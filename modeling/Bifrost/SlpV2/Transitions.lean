import Bifrost.SlpV2.Pallet
import Bifrost.VtokenMinting.ExchangeRate

/-!
# The transitions of slp-v2

What an update of the exchange rate leaves, and one constructor for each way a call that succeeds
can change the ledgers, the queries and the blocks of the updates.
-/

namespace Bifrost.SlpV2

open Result Shares
set_option autoImplicit false

variable {AccountId : Type} [DecidableEq AccountId] {cfg : Config AccountId} {s s' : State cfg}
  {protocol : StakingProtocol} {delegator : Delegator AccountId} {c v : CurrencyId}

/-! What an update does. -/

/-- The fee buys shares of the pool of the currency. -/
structure FeeCharged (s : State cfg) (c v : CurrencyId) (fee : ℕ) (s' : State cfg) : Prop where
  rest : ∃ minting, s' = { s with minting := minting }
  vtoken : s.minting.convertToVtoken c = .ok v
  pool : s'.minting.tokenPool = s.minting.tokenPool
  mapping : s'.minting.tokenToVToken = s.minting.tokenToVToken
  issuance : s'.minting.vtokenIssuance = Function.update s.minting.vtokenIssuance v
    (s.minting.vtokenIssuance v +
      mintedFor (s.getTokenPool c) (s.minting.vtokenIssuance v) fee)

theorem mintedFor_zero (pool issuance : ℕ) : mintedFor pool issuance 0 = 0 := by
  simp [mintedFor]

omit [DecidableEq AccountId] in
theorem calculateVCurrencyAmount_ok {amount shares : ℕ}
    (h : s.calculateVCurrencyAmount c v amount = .ok shares) :
    v.isVtoken = true ∧
      shares = mintedFor (s.getTokenPool c) (s.minting.vtokenIssuance v) amount := by
  simp only [State.calculateVCurrencyAmount, VtokenMinting.State.getVCurrencyIssuanceInner,
    bind_eq_ok, mapErr_eq_ok, ensure_eq_ok, exists_const, pure_eq_ok] at h
  obtain ⟨issuance, ⟨hvtoken, rfl⟩, h⟩ := h
  refine ⟨hvtoken, ?_⟩
  unfold mintedFor
  split at h
  · rename_i hempty
    rw [pure_eq_ok] at h
    rw [if_pos hempty, h]
  · rename_i hfull
    rw [okOr_eq_ok, U128.mulDiv_eq_some] at h
    rw [if_neg hfull, h.2.1]

omit [DecidableEq AccountId] in
theorem chargeProtocolFee_charged {fee : ℕ} (h : s.chargeProtocolFee c fee = .ok s') :
    ∃ v, FeeCharged s c v fee s' := by
  simp only [State.chargeProtocolFee, bind_eq_ok, mapErr_eq_ok] at h
  obtain ⟨v, hv, h⟩ := h
  refine ⟨v, ?_⟩
  split at h
  · simp only [bind_eq_ok, mapErr_eq_ok] at h
    obtain ⟨shares, hshares, ledger, -, h⟩ := h
    obtain ⟨hvtoken, rfl⟩ := calculateVCurrencyAmount_ok hshares
    rw [if_pos hvtoken] at h
    simp only [VtokenMinting.toI128, VtokenMinting.State.setVCurrencyIssuanceInner, bind_eq_ok,
      mapErr_eq_ok, ensure_eq_ok, exists_const, pure_eq_ok] at h
    obtain ⟨adjustment, ⟨-, rfl⟩, minting, ⟨-, total, htotal, rfl⟩, rfl⟩ := h
    simp only [Nat.cast_nonneg, if_true, Int.natAbs_natCast, VtokenMinting.updateTotal,
      okOr_eq_ok, U128.checkedAdd_eq_some] at htotal
    obtain ⟨rfl, -⟩ := htotal
    exact ⟨⟨_, rfl⟩, hv, rfl, rfl, rfl⟩
  · rename_i hzero
    rw [pure_eq_ok] at h
    subst s'
    rw [not_not] at hzero
    subst fee
    refine ⟨⟨_, rfl⟩, hv, rfl, rfl, ?_⟩
    rw [mintedFor_zero, add_zero, Function.update_eq_self]

theorem addDelegatorValue_ok {value : ℕ}
    (h : s.addDelegatorValue protocol delegator value = .ok s') :
    (protocol.isGeneralProxy = true ∧ s' = s) ∨
      ∃ l l', s.ledgers protocol delegator = some l ∧ l.addLockAmount value = .ok l' ∧
        s' = s.setLedger protocol delegator (some l') := by
  unfold State.addDelegatorValue at h
  split at h
  · rename_i hproxy
    rw [pure_eq_ok] at h
    exact .inl ⟨hproxy, h.symm⟩
  · simp only [bind_eq_ok, okOr_eq_ok, mapErr_eq_ok, pure_eq_ok] at h
    obtain ⟨l, hget, l', hl, rfl⟩ := h
    exact .inr ⟨l, l', hget, hl, rfl⟩

/-- A call that updates: its checks and what it leaves. -/
structure UpdatesRate (s : State cfg) (protocol : StakingProtocol) (delegator : Delegator AccountId)
    (poolValue delegatorValue : ℕ) (c : CurrencyId) (s' : State cfg) : Prop where
  due : U32.wrappingAdd (s.lastUpdateTokenExchangeRate protocol delegator)
    (s.rateLimits protocol).1 ≤ s.relayBlockNumber
  pool_le : poolValue ≤ (s.rateLimits protocol).2.1.mulFloor (s.getTokenPool c) ∨
    (s.rateLimits protocol).2.1.mulFloor (s.getTokenPool c) = 0
  delegator_le : delegatorValue ≤ (s.rateLimits protocol).2.1.mulFloor (s.getTokenPool c) ∨
    (s.rateLimits protocol).2.1.mulFloor (s.getTokenPool c) = 0
  rates : VtokenMinting.RateKept s.minting s'.minting
  updated : s'.lastUpdateTokenExchangeRate = Function.update s.lastUpdateTokenExchangeRate protocol
    (Function.update (s.lastUpdateTokenExchangeRate protocol) delegator s.relayBlockNumber)
  pending : s'.pendingStatus = s.pendingStatus
  xcm : s'.xcm = s.xcm
  ledgers : (protocol.isGeneralProxy = true ∧ s'.ledgers = s.ledgers) ∨
    ∃ l l', s.ledgers protocol delegator = some l ∧ l.addLockAmount delegatorValue = .ok l' ∧
      s'.ledgers = (s.setLedger protocol delegator (some l')).ledgers

omit [DecidableEq AccountId] in
theorem FeeCharged.rateKept {fee poolValue : ℕ} {minting : VtokenMinting.State cfg.minting}
    {s₁ : State cfg} (hcharged : FeeCharged s c v fee s₁) (hle : fee ≤ poolValue)
    (hraised : s₁.minting.updateTokenPool c poolValue .add = .ok minting) :
    VtokenMinting.RateKept s.minting minting := by
  simp only [VtokenMinting.State.updateTokenPool, VtokenMinting.State.getVtokenForToken,
    VtokenMinting.updateTotal, hcharged.mapping, bind_eq_ok, okOr_eq_ok, mapErr_eq_ok, pure_eq_ok]
    at hraised
  obtain ⟨target, htarget, total, htotal, rfl⟩ := hraised
  rw [hcharged.pool, U128.checkedAdd_eq_some] at htotal
  obtain ⟨rfl, -⟩ := htotal
  have hv : v = target := by
    have hconvert := hcharged.vtoken
    simp only [VtokenMinting.State.convertToVtoken, VtokenMinting.State.getVtokenForToken, htarget,
      pure_eq_ok] at hconvert
    exact hconvert.symm
  have hpool : s.getTokenPool c = s.minting.tokenPool v := by
    simp only [State.getTokenPool, VtokenMinting.State.getVtokenForToken, htarget,
      Option.elim_some, hv]
  have hissuance := hcharged.issuance
  rw [hpool] at hissuance
  intro w hw _ _
  simp only [hcharged.pool, hissuance, ← hv]
  by_cases hwv : w = v
  · subst w
    rw [Function.update_self, Function.update_self]
    exact mint_rate_of_le hw hle
  · rw [Function.update_of_ne hwv, Function.update_of_ne hwv]
    exact Nat.le_refl _

theorem updateTokenExchangeRate_ok {currencyId : Option CurrencyId} {poolValue delegatorValue : ℕ}
    (h : updateTokenExchangeRate s protocol currencyId delegator poolValue delegatorValue =
      .ok s') :
    ∃ c, ensureParameterCorrect protocol currencyId = .ok c ∧
      UpdatesRate s protocol delegator poolValue delegatorValue c s' := by
  simp only [updateTokenExchangeRate, bind_eq_ok, ensure_eq_ok, exists_const, mapErr_eq_ok,
    pure_eq_ok] at h
  obtain ⟨-, -, c, hc, hdue, hpool, hdelegator, s₁, hcharge, minting, hraise, s₂, hvalue, rfl⟩ := h
  obtain ⟨v, hcharged⟩ := chargeProtocolFee_charged hcharge
  have hrates := hcharged.rateKept (Permill.mulFloor_le _ _) hraise
  obtain ⟨minting₁, rfl⟩ := hcharged.rest
  refine ⟨c, hc, ?_⟩
  rcases addDelegatorValue_ok hvalue with ⟨hproxy, rfl⟩ | ⟨l, l', hget, hl, rfl⟩
  · exact ⟨hdue, hpool, hdelegator, hrates, rfl, rfl, rfl, .inl ⟨hproxy, rfl⟩⟩
  · exact ⟨hdue, hpool, hdelegator, hrates, rfl, rfl, rfl, .inr ⟨l, l', hget, hl, rfl⟩⟩

/-! The calls. -/

/-- None of the storage that responses and updates go by. -/
structure Apart (s s' : State cfg) : Prop where
  ledgers : s'.ledgers = s.ledgers
  pending : s'.pendingStatus = s.pendingStatus
  xcm : s'.xcm = s.xcm
  updated : s'.lastUpdateTokenExchangeRate = s.lastUpdateTokenExchangeRate

def Call.IsApart : Call cfg → Prop
  | .setProtocolConfiguration .. | .addValidator .. | .removeValidator .. | .transferTo ..
  | .transferBack .. | .updateOngoingTimeUnit .. | .world .. => True
  | _ => False

/-- The ledger a delegator is given. -/
inductive Assigns (s : State cfg) :
    Call cfg → StakingProtocol → Delegator AccountId → Option Ledger → Prop where
  | added (protocol : StakingProtocol) (given : Option (Delegator AccountId))
      (delegator : Delegator AccountId) (l : Option Ledger)
      (hgiven : getDelegator cfg (s.nextDelegatorIndex protocol) protocol given = .ok delegator)
      (hl : defaultLedger protocol = .ok l) :
      Assigns s (.addDelegator protocol given) protocol delegator l
  | removed (protocol : StakingProtocol) (delegator : Delegator AccountId) :
      Assigns s (.removeDelegator protocol delegator) protocol delegator none
  | set (protocol : StakingProtocol) (delegator : Delegator AccountId) (l : Ledger) :
      Assigns s (.setLedger protocol delegator l) protocol delegator (some l)
  | ethereum (delegator : Delegator AccountId) (task : EthereumStaking) (l : Option Ledger) :
      Assigns s (.ethereumStaking delegator task) .ethereumStaking delegator l

inductive Transition (s : State cfg) : Origin AccountId × Call cfg → State cfg → Prop where
  | apart (origin : Origin AccountId) (call : Call cfg) (s' : State cfg) (hcall : call.IsApart)
      (h : Apart s s') : Transition s (origin, call) s'
  | assigned (origin : Origin AccountId) (call : Call cfg) (protocol : StakingProtocol)
      (delegator : Delegator AccountId) (l : Option Ledger) (s' : State cfg)
      (hcall : Assigns s call protocol delegator l)
      (h : Apart (s.setLedger protocol delegator l) s') : Transition s (origin, call) s'
  | proxied (origin : Origin AccountId) (c : CurrencyId) (destination : ℕ)
      (given : Option (Delegator AccountId)) (s' : State cfg) (h : Apart s s') :
      Transition s (origin, .addDelegator (.generalProxyStaking c destination) given) s'
  | updated (origin : Origin AccountId) (protocol : StakingProtocol)
      (currencyId : Option CurrencyId) (delegator : Delegator AccountId)
      (poolValue delegatorValue : ℕ) (c : CurrencyId) (s' : State cfg)
      (hc : ensureParameterCorrect protocol currencyId = .ok c)
      (h : UpdatesRate s protocol delegator poolValue delegatorValue c s') :
      Transition s
        (origin, .updateTokenExchangeRate protocol currencyId delegator poolValue delegatorValue) s'
  | sent (origin : Origin AccountId) (delegator : Delegator AccountId)
      (task : DappStaking AccountId) (s' : State cfg) (h : Apart s s') :
      Transition s (origin, .astarDappStaking delegator task) s'
  | queried (origin : Origin AccountId) (delegator : Delegator AccountId)
      (task : DappStaking AccountId) (status : PendingStatus AccountId) (timeout q : ℕ)
      (x : cfg.Xcm) (s' : State cfg)
      (hq : cfg.newNotifyQuery s.xcm .astarDappStaking timeout = (q, x))
      (h : Apart { s with
        xcm := x, pendingStatus := Function.update s.pendingStatus q (some status) } s') :
      Transition s (origin, .astarDappStaking delegator task) s'
  | failed (origin : Origin AccountId) (q : ℕ) (status : PendingStatus AccountId)
      (hq : s.pendingStatus q = some status) :
      Transition s (origin, .notifyAstarDappStaking q false)
        { s with pendingStatus := Function.update s.pendingStatus q none }
  | passed (origin : Origin AccountId) (q : ℕ) (status : PendingStatus AccountId)
      (hq : s.pendingStatus q = some status)
      (hnone : ∀ l, s.ledgers .astarDappStaking status.delegator ≠ some (.astarDappStaking l)) :
      Transition s (origin, .notifyAstarDappStaking q true) s
  | applied (origin : Origin AccountId) (q : ℕ) (status : PendingStatus AccountId)
      (l l' : AstarDappStakingLedger) (hq : s.pendingStatus q = some status)
      (hget : s.ledgers .astarDappStaking status.delegator = some (.astarDappStaking l))
      (hl : s.applyStatus status l = .ok l') :
      Transition s (origin, .notifyAstarDappStaking q true)
        (s.setLedger .astarDappStaking status.delegator (some (.astarDappStaking l')))
  | otherQuery (origin : Origin AccountId) (protocol : StakingProtocol) (timeout : ℕ) :
      Transition s (origin, .otherQuery protocol timeout)
        { s with xcm := (cfg.newNotifyQuery s.xcm protocol timeout).2 }

omit [DecidableEq AccountId] in
theorem sendXcmMessage_apart {message : XcmMessage AccountId}
    (h : s.sendXcmMessage message = .ok s') : Apart s s' := by
  simp only [State.sendXcmMessage, bind_eq_ok, pure_eq_ok] at h
  obtain ⟨-, -, ledger, -, rfl⟩ := h
  exact ⟨rfl, rfl, rfl, rfl⟩

omit [DecidableEq AccountId] in
theorem doTransferTo_apart {currencyId : Option CurrencyId} {amount dest fee : Option ℕ}
    (h : doTransferTo s protocol delegator currencyId amount dest fee = .ok s') : Apart s s' := by
  simp only [doTransferTo, bind_eq_ok] at h
  obtain ⟨-, -, c, -, h⟩ := h
  split at h
  · split at h
    · simp only [bind_eq_ok, pure_eq_ok] at h
      obtain ⟨ledger, -, rfl⟩ := h
      exact ⟨rfl, rfl, rfl, rfl⟩
    · cases h
  · split at h
    · simp only [bind_eq_ok, pure_eq_ok] at h
      obtain ⟨-, -, ledger, -, rfl⟩ := h
      exact ⟨rfl, rfl, rfl, rfl⟩
    · cases h
  · split at h
    · simp only [bind_eq_ok, pure_eq_ok] at h
      obtain ⟨-, -, ledger, -, rfl⟩ := h
      exact ⟨rfl, rfl, rfl, rfl⟩
    · cases h
  · cases h

theorem step_ok {origin : Origin AccountId} {call : Call cfg} (h : step s (origin, call) = .ok s') :
    Transition s (origin, call) s' := by
  cases call with
  | setProtocolConfiguration protocol configuration =>
    simp only [step, setProtocolConfiguration, bind_eq_ok, pure_eq_ok] at h
    obtain ⟨-, -, -, -, rfl⟩ := h
    exact .apart _ _ _ trivial ⟨rfl, rfl, rfl, rfl⟩
  | addDelegator protocol given =>
    simp only [step, doAddDelegator, bind_eq_ok, pure_eq_ok] at h
    obtain ⟨-, -, -, -, delegator, hgiven, -, -, -, -, l, hl, rfl⟩ := h
    cases protocol with
    | generalProxyStaking c destination =>
      exact .proxied _ _ _ _ _ ⟨rfl, rfl, rfl, rfl⟩
    | _ => exact .assigned _ _ _ delegator l _ (.added _ _ _ l hgiven hl) ⟨rfl, rfl, rfl, rfl⟩
  | removeDelegator protocol delegator =>
    simp only [step, doRemoveDelegator, bind_eq_ok, pure_eq_ok] at h
    obtain ⟨-, -, index, -, rfl⟩ := h
    exact .assigned _ _ _ _ _ _ (.removed protocol delegator) ⟨rfl, rfl, rfl, rfl⟩
  | addValidator protocol delegator validator =>
    simp only [step, addValidator, bind_eq_ok, pure_eq_ok] at h
    obtain ⟨-, -, -, -, -, -, -, -, rfl⟩ := h
    exact .apart _ _ _ trivial ⟨rfl, rfl, rfl, rfl⟩
  | removeValidator protocol delegator validator =>
    simp only [step, removeValidator, bind_eq_ok, pure_eq_ok] at h
    obtain ⟨-, -, -, -, -, -, rfl⟩ := h
    exact .apart _ _ _ trivial ⟨rfl, rfl, rfl, rfl⟩
  | setLedger protocol delegator l =>
    simp only [step, setLedger, bind_eq_ok, pure_eq_ok] at h
    obtain ⟨-, -, -, -, -, -, rfl⟩ := h
    exact .assigned _ _ _ _ _ _ (.set protocol delegator l) ⟨rfl, rfl, rfl, rfl⟩
  | transferTo protocol delegator currencyId amount dest fee =>
    simp only [step, bind_eq_ok] at h
    obtain ⟨-, -, h⟩ := h
    exact .apart _ _ _ trivial (doTransferTo_apart h)
  | transferBack protocol delegator amount =>
    simp only [step, doTransferBack, bind_eq_ok] at h
    obtain ⟨-, -, -, -, message, -, h⟩ := h
    exact .apart _ _ _ trivial (sendXcmMessage_apart h)
  | updateOngoingTimeUnit protocol currencyId timeUnit =>
    simp only [step, updateOngoingTimeUnit, bind_eq_ok, pure_eq_ok] at h
    obtain ⟨-, -, -, -, c, -, unit, -, rfl⟩ := h
    exact .apart _ _ _ trivial ⟨rfl, rfl, rfl, rfl⟩
  | updateTokenExchangeRate protocol currencyId delegator poolValue delegatorValue =>
    simp only [step, bind_eq_ok] at h
    obtain ⟨-, -, h⟩ := h
    obtain ⟨c, hc, hupdates⟩ := updateTokenExchangeRate_ok h
    exact .updated _ _ _ _ _ _ c _ hc hupdates
  | astarDappStaking delegator task =>
    simp only [step, doDappStaking, bind_eq_ok] at h
    obtain ⟨-, -, index, -, status, -, h⟩ := h
    split at h
    · rename_i status
      simp only [bind_eq_ok] at h
      obtain ⟨message, -, h⟩ := h
      exact .queried _ _ _ status _ _ _ _ rfl (sendXcmMessage_apart h)
    · simp only [bind_eq_ok] at h
      obtain ⟨message, -, h⟩ := h
      exact .sent _ _ _ _ (sendXcmMessage_apart h)
  | notifyAstarDappStaking q success =>
    simp only [step, notifyAstarDappStaking, bind_eq_ok, okOr_eq_ok] at h
    obtain ⟨-, -, status, hq, h⟩ := h
    cases success with
    | true =>
      simp only [if_true, doNotifyAstarDappStaking] at h
      split at h
      · rename_i l hget
        simp only [bind_eq_ok, mapErr_eq_ok, pure_eq_ok] at h
        obtain ⟨l', hl, rfl⟩ := h
        exact .applied _ q status l l' hq hget hl
      · rename_i hnone
        rw [pure_eq_ok] at h
        subst s'
        exact .passed _ q status hq hnone
    | false =>
      simp only [Bool.false_eq_true, if_false, pure_eq_ok] at h
      subst s'
      exact .failed _ q status hq
  | ethereumStaking delegator task =>
    simp only [step, doEthereumStaking, bind_eq_ok] at h
    obtain ⟨-, -, -, -, h⟩ := h
    split at h
    · simp only [bind_eq_ok, pure_eq_ok] at h
      obtain ⟨locked, -, rfl⟩ := h
      exact .assigned _ _ _ _ _ _ (.ethereum delegator task _) ⟨rfl, rfl, rfl, rfl⟩
    · cases h
  | world minting blocks relayBlocks =>
    cases h
    exact .apart _ _ _ trivial ⟨rfl, rfl, rfl, rfl⟩
  | otherQuery protocol timeout =>
    cases h
    exact .otherQuery _ protocol timeout

end Bifrost.SlpV2
