import Bifrost.ChannelCommission.Conservation
import Bifrost.Slp.Tuning

/-!
# Recorded commissions are funded

`slp` mints the hosting fee to the commission account at the rate before a tuning and the
commission pallet records it at the rate after. The rate has not fallen by then, so what is
recorded was received, where the vToken that is minted is the one the currency is mapped to: the
agent mints the vToken of the currency, the record is of the mapped one.
-/

namespace Bifrost.HostingFees

open Result Machine Shares ChannelCommission
set_option autoImplicit false

/-- The runtime's choices for both pallets. -/
structure Config (AccountId : Type) where
  slp : Slp.Config AccountId
  channels : ChannelCommission.Config AccountId

def Config.commission {AccountId : Type} (cfg : Config AccountId) :
    ChannelCommission.Config AccountId :=
  { cfg.channels with minting := cfg.slp.minting }

variable {AccountId : Type} {cfg : Config AccountId}

/-! The two pallets. -/

inductive Fault where
  | slp (e : Slp.Fault)
  | commission (e : ChannelCommission.Fault)

/-- `received` is what was minted of a vToken to the commission account as hosting fees, and
`funded` whether every call that charged one minted what it recorded. The source has neither. -/
structure State (cfg : Config AccountId) where
  slp : Slp.State cfg.slp
  commission : ChannelCommission.State cfg.commission
  received : CurrencyId → ℕ
  funded : Prop

def start (slp : Slp.State cfg.slp) (blockNumber : ℕ) : State cfg where
  slp := slp
  commission := ChannelCommission.State.start cfg.commission slp.minting blockNumber
  received := fun _ => 0
  funded := True

inductive Call (cfg : Config AccountId) where
  | slp (call : Slp.Call cfg.slp)
  | commission (call : ChannelCommission.Call cfg.commission)

section Charging

variable {slp : Slp.Config AccountId}

def feeToCharge (s : Slp.State slp) (c : CurrencyId) (poolValue : ℕ) : ℕ :=
  (s.settings.hostingFees c).elim 0 fun e => e.1.mulFloor poolValue

/-- What `charge_hosting_fee` deposits: the vToken, the account and the amount. -/
def hostingFeeDeposit (s : Slp.State slp) (c : CurrencyId) (poolValue : ℕ) :
    Except Slp.Fault (CurrencyId × AccountId × ℕ) := do
  let (_, beneficiary) ← okOr (s.settings.hostingFees c) (.pallet .invalidHostingFee)
  let agent ← Slp.getCurrencyStakingAgent c
  let vtoken ← Slp.hostingFeeVtoken c agent
  let chargeAmount ← s.innerCalculateVtokenHostingFee (feeToCharge s c poolValue) vtoken c
  let account ← Slp.multilocationToAccount beneficiary
  pure (vtoken, account, chargeAmount)

end Charging

section Steps

variable [DecidableEq AccountId]

def recordFee (s : State cfg) (minting : VtokenMinting.State cfg.slp.minting) :
    Slp.Call cfg.slp → Except ChannelCommission.Fault (ChannelCommission.State cfg.commission)
  | .chargeHostFeeAndTuneVtokenExchangeRate _ c poolValue _ _ =>
    { s.commission with minting := minting }.recordHostingFee c (feeToCharge s.slp c poolValue)
  | _ => pure { s.commission with minting := minting }

def receivedBy (s : State cfg) : Slp.Call cfg.slp → CurrencyId → ℕ
  | .chargeHostFeeAndTuneVtokenExchangeRate _ c poolValue _ _ =>
    match hostingFeeDeposit s.slp c poolValue with
    | .ok (vtoken, account, amount) =>
      if account = cfg.commission.account then
        Function.update s.received vtoken (s.received vtoken + amount)
      else s.received
    | .error _ => s.received
  | _ => s.received

/-- Of no token more is recorded than is received. -/
def Covers (k k' : ChannelCommission.State cfg.commission) (received received' : CurrencyId → ℕ) :
    Prop :=
  ∀ token, (k'.history token).recorded + received token ≤
    (k.history token).recorded + received' token

/-- A hosting fee is recorded by `slp` only. -/
def step (s : State cfg) : Call cfg → Except Fault (State cfg)
  | .slp call => do
    let slp ← mapErr (Slp.step s.slp call) Fault.slp
    let commission ← mapErr (recordFee s slp.minting call) Fault.commission
    let received := receivedBy s call
    pure ⟨slp, commission, received,
      s.funded ∧ Covers s.commission commission s.received received⟩
  | .commission (.recordHostingFee _ _) => .error (.commission .badOrigin)
  | .commission call => do
    let commission ← mapErr (ChannelCommission.step s.commission call) Fault.commission
    pure { s with slp := { s.slp with minting := commission.minting }, commission := commission }

end Steps

/-! What is promised, and when it holds. -/

/-- Every call minted what it recorded, and what channels and Bifrost get of a token within what
was recorded of it is within what the account received. -/
structure Funded (s : State cfg) : Prop where
  calls : s.funded
  recorded_le : ∀ token, (s.commission.history token).recorded ≤ s.received token
  paid_le : ∀ token, Conserved token s.commission →
    (s.commission.history token).credited + (s.commission.history token).sent ≤ s.received token

/-- The fee goes to the commission account, and the vToken the currency is mapped to is its own
commission token. -/
def Commissioned (s : State cfg) : Call cfg → Prop
  | .slp (.chargeHostFeeAndTuneVtokenExchangeRate _ c _ _ _) =>
    (∀ feePermill beneficiary, s.slp.settings.hostingFees c = some (feePermill, beneficiary) →
      Slp.multilocationToAccount beneficiary = .ok cfg.commission.account) ∧
    ∀ target, s.slp.minting.tokenToVToken c = some target →
      s.commission.commissionTokens.get target = some target
  | _ => True

/-- The agent of the currency mints the vToken the currency is mapped to, or the fee is worth no
unit of that one. -/
def MintsMapped (s : State cfg) : Call cfg → Prop
  | .slp (.chargeHostFeeAndTuneVtokenExchangeRate _ c poolValue _ _) =>
    ∀ agent vtoken target, Slp.getCurrencyStakingAgent c = .ok agent →
      Slp.hostingFeeVtoken c agent = .ok vtoken → s.slp.minting.tokenToVToken c = some target →
      vtoken = target ∨ feeToCharge s.slp c poolValue * s.slp.minting.vtokenIssuance target <
        s.slp.minting.tokenPool target + poolValue
  | _ => True

/-! A call that charges. -/

/-- The fee is minted at the rate before, and then the pool grows. -/
structure Charges {slp : Slp.Config AccountId} (s : Slp.State slp) (c : CurrencyId)
    (poolValue : ℕ) (vtoken target : CurrencyId) (account : AccountId) (s' : Slp.State slp) :
    Prop where
  beneficiary : ∃ feePermill beneficiary,
    s.settings.hostingFees c = some (feePermill, beneficiary) ∧
      Slp.multilocationToAccount beneficiary = .ok account
  agent : ∃ agent, Slp.getCurrencyStakingAgent c = .ok agent ∧
    Slp.hostingFeeVtoken c agent = .ok vtoken
  deposit : hostingFeeDeposit s c poolValue = .ok (vtoken, account,
    mintedFor (s.minting.tokenPool target) (s.minting.vtokenIssuance vtoken)
      (feeToCharge s c poolValue))
  deposited : ∃ L, slp.minting.currency.deposit s.outside vtoken account
    (mintedFor (s.minting.tokenPool target) (s.minting.vtokenIssuance vtoken)
      (feeToCharge s c poolValue)) = .ok L
  fee_pos : 0 < feeToCharge s c poolValue
  fee_le : feeToCharge s c poolValue ≤ poolValue
  pool_pos : 0 < s.minting.tokenPool target
  mapped : s.minting.tokenToVToken c = some target
  mapping : s'.minting.tokenToVToken = s.minting.tokenToVToken
  pool : s'.minting.tokenPool target = s.minting.tokenPool target + poolValue
  issuance : s'.minting.vtokenIssuance = Function.update s.minting.vtokenIssuance vtoken
    (s.minting.vtokenIssuance vtoken + mintedFor (s.minting.tokenPool target)
      (s.minting.vtokenIssuance vtoken) (feeToCharge s c poolValue))

section Charging

variable {slp : Slp.Config AccountId} {s s' : Slp.State slp} {c v : CurrencyId} {poolValue : ℕ}

theorem charge_deposits {fee : ℕ} {beneficiary : MultiLocation AccountId} {agent : Slp.Agent}
    (h : Slp.chargeHostingFee s fee beneficiary c agent = .ok s') :
    0 < fee ∧ ∃ v account amount L, Slp.hostingFeeVtoken c agent = .ok v ∧
      s.innerCalculateVtokenHostingFee fee v c = .ok amount ∧
      Slp.multilocationToAccount beneficiary = .ok account ∧
      slp.minting.currency.deposit s.outside v account amount = .ok L ∧ 0 < amount := by
  simp only [Slp.chargeHostingFee, Slp.State.innerChargeHostingFee, bind_eq_ok, ensure_eq_ok,
    mapErr_eq_ok] at h
  obtain ⟨v, hv, amount, hamount, -, hpos, account, haccount, L, hdeposit, -⟩ := h
  have hfee := hamount
  simp only [Slp.State.innerCalculateVtokenHostingFee, bind_eq_ok, ensure_eq_ok] at hfee
  obtain ⟨-, hfee, -⟩ := hfee
  exact ⟨hfee, v, account, amount, L, hv, hamount, haccount, hdeposit, hpos⟩

variable [DecidableEq AccountId]

theorem chargeHostFee_charges {w : Option (MultiLocation AccountId)} {delegator : ℕ}
    (h : Slp.chargeHostFeeAndTuneVtokenExchangeRate s c poolValue delegator w = .ok s') :
    ∃ vtoken target account, Charges s c poolValue vtoken target account s' := by
  simp only [Slp.chargeHostFeeAndTuneVtokenExchangeRate, bind_eq_ok, ensure_eq_ok, okOr_eq_ok,
    mapErr_eq_ok, pure_eq_ok, exists_const] at h
  obtain ⟨hpos, -, ⟨limitNum, maxPermill⟩, -, hle, -, current, -, tuneNum, -,
    ⟨feePermill, beneficiary⟩, hfees, agent, hagent, s₁, hcharge, s₂, htune, L, -, rfl⟩ := h
  have hfee : feePermill.mulFloor poolValue = feeToCharge s c poolValue := by
    rw [feeToCharge, hfees]
    rfl
  rw [hfee] at hcharge
  obtain ⟨v, hv, hminted⟩ := Slp.chargeHostingFee_minted hcharge
  obtain ⟨hfeepos, v', account, amount, L', hv', hamount, haccount, hdeposit, hamountpos⟩ :=
    charge_deposits hcharge
  rw [hv] at hv'
  cases hv'
  obtain ⟨huntuned, hissuance, target, htarget, hpool⟩ := Slp.tuneVtokenExchangeRate_raised htune
  rw [hminted.untuned.mapping] at htarget
  have hget : s.getTokenPool c = s.minting.tokenPool target := by
    simp only [Slp.State.getTokenPool, VtokenMinting.State.getVtokenForToken, htarget,
      Option.elim_some]
  have hfill : 0 < s.minting.tokenPool target := by
    have hfloor := maxPermill.mulFloor_le (s.minting.tokenPool target)
    rw [hget] at hle
    exact hpos.trans_le (hle.trans hfloor)
  have hshares : mintedFor (s.minting.tokenPool target) (s.minting.vtokenIssuance v)
      (feeToCharge s c poolValue) =
      feeToCharge s c poolValue * s.minting.vtokenIssuance v / s.getTokenPool c := by
    rw [hget, mintedFor, if_neg (by omega)]
  have hexact : amount = mintedFor (s.minting.tokenPool target) (s.minting.vtokenIssuance v)
      (feeToCharge s c poolValue) := by
    have hcalculated := hamount
    simp only [Slp.State.innerCalculateVtokenHostingFee,
      VtokenMinting.State.getVCurrencyIssuanceInner, bind_eq_ok, ensure_eq_ok, mapErr_eq_ok,
      pure_eq_ok, exists_const] at hcalculated
    obtain ⟨-, issuance, ⟨-, rfl⟩, hcalculated⟩ := hcalculated
    rw [hshares]
    split at hcalculated
    · rw [pure_eq_ok] at hcalculated
      omega
    · rw [pure_eq_ok] at hcalculated
      split at hcalculated
      · exact hcalculated.symm
      · omega
  rw [hexact] at hdeposit
  have hdue : hostingFeeDeposit s c poolValue = .ok (v, account, amount) := by
    simp only [hostingFeeDeposit, bind_eq_ok, okOr_eq_ok, pure_eq_ok]
    exact ⟨_, hfees, _, hagent, _, hv, _, hamount, _, haccount, rfl⟩
  rw [hexact] at hdue
  refine ⟨v, target, account, ?_⟩
  constructor
  · exact ⟨feePermill, beneficiary, hfees, haccount⟩
  · exact ⟨agent, hagent, hv⟩
  · exact hdue
  · exact ⟨L', hdeposit⟩
  · exact hfeepos
  · rw [← hfee]
    exact feePermill.mulFloor_le poolValue
  · exact hfill
  · exact htarget
  · exact huntuned.mapping.trans hminted.untuned.mapping
  · have hraised := congrFun hpool target
    rw [Function.update_self, hminted.pool] at hraised
    exact hraised
  · rw [hshares, ← hminted.issuance]
    exact hissuance

end Charging

section Recording

variable [DecidableEq AccountId] {s s' : State cfg} {slp' : Slp.State cfg.slp}
  {k : ChannelCommission.State cfg.commission} {c v target : CurrencyId} {poolValue : ℕ}
  {account : AccountId} (h : Charges s.slp c poolValue v target account slp')
include h

omit [DecidableEq AccountId] in
theorem Charges.recorded_eq (hown : s.commission.commissionTokens.get target = some target)
    (hrecord : { s.commission with minting := slp'.minting }.recordHostingFee c
      (feeToCharge s.slp c poolValue) = .ok k) (token : CurrencyId) :
    (k.history token).recorded = (s.commission.history token).recorded +
      if token = target then mintedFor (slp'.minting.tokenPool target)
        (slp'.minting.vtokenIssuance target) (feeToCharge s.slp c poolValue) else 0 := by
  have hmapped : slp'.minting.tokenToVToken c = some target := by
    rw [h.mapping, h.mapped]
  -- the same pallet, as the configuration of the commission pallet has it
  have hpool : @VtokenMinting.State.getTokenPool _ cfg.commission.minting slp'.minting c =
      slp'.minting.tokenPool target := by
    simp only [VtokenMinting.State.getTokenPool, VtokenMinting.State.getVtokenForToken, hmapped,
      Option.getD_some]
  have hfill : slp'.minting.tokenPool target ≠ 0 := by
    have hpos := h.pool_pos
    rw [h.pool]
    omega
  have hfee := h.fee_pos
  unfold ChannelCommission.State.recordHostingFee at hrecord
  rw [if_neg (by omega)] at hrecord
  simp only [VtokenMinting.State.convertToVtoken, VtokenMinting.State.getVtokenForToken, hmapped,
    VtokenMinting.State.getVCurrencyAmountByCurrencyAmount,
    VtokenMinting.State.getVCurrencyIssuanceInner, hpool, bind_eq_ok, mapErr_eq_ok, pure_eq_ok,
    ensure_eq_ok] at hrecord
  obtain ⟨_, rfl, amount, ⟨_, ⟨-, -, rfl⟩, hamount⟩, hrecord⟩ := hrecord
  rw [if_neg hfill, okOr_eq_ok, U128.mulDiv_eq_some] at hamount
  obtain ⟨-, rfl, -⟩ := hamount
  simp only [hown, ChannelCommission.State.addCommission, bind_eq_ok, okOr_eq_ok, pure_eq_ok]
    at hrecord
  obtain ⟨_, -, rfl⟩ := hrecord
  rw [mintedFor, if_neg hfill]
  by_cases htoken : token = target
  · subst htoken
    simp only [Function.update_self, if_true]
  · simp only [Function.update_of_ne htoken, if_neg htoken, Nat.add_zero]

omit [DecidableEq AccountId] in
theorem Charges.recorded_le_minted (hv : v = target) :
    mintedFor (slp'.minting.tokenPool target) (slp'.minting.vtokenIssuance target)
        (feeToCharge s.slp c poolValue) ≤
      mintedFor (s.slp.minting.tokenPool target) (s.slp.minting.vtokenIssuance v)
        (feeToCharge s.slp c poolValue) := by
  subst hv
  have hpos := h.pool_pos
  rw [h.pool, h.issuance, Function.update_self]
  exact mintedFor_le_of_rateLe hpos (by omega) (mint_rate_of_le hpos h.fee_le) _

omit [DecidableEq AccountId] in
theorem Charges.recorded_eq_zero_iff (hv : v ≠ target) :
    mintedFor (slp'.minting.tokenPool target) (slp'.minting.vtokenIssuance target)
        (feeToCharge s.slp c poolValue) = 0 ↔
      feeToCharge s.slp c poolValue * s.slp.minting.vtokenIssuance target <
        s.slp.minting.tokenPool target + poolValue := by
  have hpos := h.pool_pos
  rw [h.pool, h.issuance, Function.update_of_ne (Ne.symm hv), mintedFor, if_neg (by omega),
    Nat.div_eq_zero_iff]
  omega

/-- What is recorded is received, just where the agent mints the mapped vToken or nothing is
recorded. -/
theorem Charges.covers_iff (haccount : account = cfg.commission.account)
    (hown : s.commission.commissionTokens.get target = some target) {origin : Slp.Origin AccountId}
    {delegatorValue : ℕ} {w : Option (MultiLocation AccountId)}
    (hrecord : recordFee s slp'.minting
      (.chargeHostFeeAndTuneVtokenExchangeRate origin c poolValue delegatorValue w) = .ok k) :
    Covers s.commission k s.received (receivedBy s
        (.chargeHostFeeAndTuneVtokenExchangeRate origin c poolValue delegatorValue w)) ↔
      v = target ∨ feeToCharge s.slp c poolValue * s.slp.minting.vtokenIssuance target <
        s.slp.minting.tokenPool target + poolValue := by
  have hrecorded := h.recorded_eq hown hrecord
  have hreceived : receivedBy s
      (.chargeHostFeeAndTuneVtokenExchangeRate origin c poolValue delegatorValue w) =
      Function.update s.received v (s.received v + mintedFor (s.slp.minting.tokenPool target)
        (s.slp.minting.vtokenIssuance v) (feeToCharge s.slp c poolValue)) := by
    simp only [receivedBy, h.deposit, haccount, if_true]
  have hiff : Covers s.commission k s.received (receivedBy s
      (.chargeHostFeeAndTuneVtokenExchangeRate origin c poolValue delegatorValue w)) ↔
      (v ≠ target → mintedFor (slp'.minting.tokenPool target)
        (slp'.minting.vtokenIssuance target) (feeToCharge s.slp c poolValue) = 0) := by
    constructor
    · intro hcovers hv
      have htarget := hcovers target
      rw [hrecorded, hreceived, if_pos rfl, Function.update_of_ne (Ne.symm hv)] at htarget
      omega
    · intro hnothing token
      rw [hrecorded, hreceived]
      by_cases htoken : token = target
      · subst htoken
        by_cases hv : v = token
        · have hle := h.recorded_le_minted hv
          subst hv
          rw [if_pos rfl, Function.update_self]
          omega
        · rw [if_pos rfl, Function.update_of_ne (Ne.symm hv), hnothing hv]
          omega
      · rw [if_neg htoken]
        by_cases hv : token = v
        · subst hv
          rw [Function.update_self]
          omega
        · rw [Function.update_of_ne hv]
          omega
  rw [hiff]
  constructor
  · intro hnothing
    by_cases hv : v = target
    · exact Or.inl hv
    · exact Or.inr ((h.recorded_eq_zero_iff hv).mp (hnothing hv))
  · rintro (hv | hsmall) hne
    · exact absurd hv hne
    · exact (h.recorded_eq_zero_iff hne).mpr hsmall

end Recording

/-! What a step keeps. -/

section Steps

variable [DecidableEq AccountId] {s s' : State cfg}

theorem quiet_of_tunes_none {call : Slp.Call cfg.slp} (hcall : call.tunes = none)
    {minting : VtokenMinting.State cfg.slp.minting}
    {k : ChannelCommission.State cfg.commission} (hrecord : recordFee s minting call = .ok k) :
    k = { s.commission with minting := minting } ∧ receivedBy s call = s.received := by
  cases call with
  | chargeHostFeeAndTuneVtokenExchangeRate origin c poolValue delegatorValue w => cases hcall
  | _ =>
    simp only [recordFee, pure_eq_ok] at hrecord
    exact ⟨hrecord.symm, rfl⟩

theorem commission_recorded {call : ChannelCommission.Call cfg.commission}
    {k : ChannelCommission.State cfg.commission} (hs : s.commission.Keyed)
    (hcall : ∀ c amount, call ≠ .recordHostingFee c amount)
    (h : ChannelCommission.step s.commission call = .ok k) :
    k.Keyed ∧ ∀ token, (k.history token).recorded = (s.commission.history token).recorded := by
  have hkeyed : k.Keyed := by
    rcases step_cases Slp.bnc h with ⟨enough, -, rfl⟩ | ⟨hclock, -⟩
    · exact endBlock_keyed enough hs
    · exact hclock.keyed hs
  refine ⟨hkeyed, fun token => ?_⟩
  show (k.pool token).recorded = (s.commission.pool token).recorded
  rcases step_cases token h with ⟨enough, -, rfl⟩ | ⟨-, hmove⟩
  · rw [endBlock_pool]
    split
    · exact onIdle_recorded hs
    · rfl
  · generalize k.pool token = p at hmove
    cases hmove with
    | kept => rfl
    | recorded c fee amount hle => exact absurd rfl (hcall c fee)
    | recounted => rfl
    | voided => rfl

omit [DecidableEq AccountId] in
/-- What is recorded within what is received pays for all that is within the records. -/
theorem funded_iff_covers (hs : Funded s) {slp' : Slp.State cfg.slp}
    {k : ChannelCommission.State cfg.commission} {received : CurrencyId → ℕ} :
    Funded ⟨slp', k, received, s.funded ∧ Covers s.commission k s.received received⟩ ↔
      Covers s.commission k s.received received := by
  constructor
  · intro hs'
    exact hs'.calls.2
  · intro hcovers
    have hle : ∀ token, (k.history token).recorded ≤ received token := by
      intro token
      have hnow := hcovers token
      have hbefore := hs.recorded_le token
      omega
    exact ⟨⟨hs.calls, hcovers⟩, hle, fun token hconserved => hconserved.trans (hle token)⟩

theorem slp_step {call : Slp.Call cfg.slp} (hcommissioned : Commissioned s (.slp call))
    (hkeyed : s.commission.Keyed) (hs : Funded s) (h : step s (.slp call) = .ok s') :
    (Funded s' ↔ MintsMapped s (.slp call)) ∧ s'.commission.Keyed := by
  simp only [step, bind_eq_ok, mapErr_eq_ok, pure_eq_ok] at h
  obtain ⟨slp', hslp, k, hrecord, rfl⟩ := h
  rw [funded_iff_covers hs]
  cases hcall : call.tunes with
  | none =>
    obtain ⟨hk, hreceived⟩ := quiet_of_tunes_none hcall hrecord
    have hcovers : Covers s.commission k s.received (receivedBy s call) := by
      intro token
      rw [hreceived, hk]
    have hmints : MintsMapped s (.slp call) := by
      cases call with
      | chargeHostFeeAndTuneVtokenExchangeRate origin c poolValue delegatorValue w => cases hcall
      | _ => trivial
    refine ⟨iff_of_true hcovers hmints, ?_⟩
    rw [hk]
    exact hkeyed
  | some c =>
    cases call with
    | chargeHostFeeAndTuneVtokenExchangeRate origin d poolValue delegatorValue w =>
      cases hcall
      simp only [Slp.step, bind_eq_ok] at hslp
      obtain ⟨-, -, hcharge⟩ := hslp
      obtain ⟨v, target, account, h⟩ := chargeHostFee_charges hcharge
      obtain ⟨feePermill, beneficiary, hfees, haccount⟩ := h.beneficiary
      obtain ⟨hbeneficiary, hown⟩ := hcommissioned
      have hours : account = cfg.commission.account := by
        have hsame := hbeneficiary feePermill beneficiary hfees
        rw [haccount] at hsame
        exact Except.ok.inj hsame
      constructor
      · rw [h.covers_iff hours (hown target h.mapped) hrecord]
        obtain ⟨agent, hagent, hv⟩ := h.agent
        constructor
        · intro hmints agent' v' target' hagent' hv' htarget'
          rw [hagent] at hagent'
          cases hagent'
          rw [hv] at hv'
          cases hv'
          rw [h.mapped] at htarget'
          cases htarget'
          exact hmints
        · intro hmints
          exact hmints agent v target hagent hv h.mapped
      · simp only [recordFee] at hrecord
        rcases recordHostingFee_ok hrecord with rfl | ⟨token, amount, -, rfl⟩
        · exact hkeyed
        · exact hkeyed
    | _ => cases hcall

theorem commission_step {call : ChannelCommission.Call cfg.commission}
    (hkeyed : s.commission.Keyed) (hs : Funded s) (h : step s (.commission call) = .ok s') :
    Funded s' ∧ s'.commission.Keyed := by
  have hrecords : ∀ c amount, call ≠ .recordHostingFee c amount := by
    rintro c amount rfl
    simp [step] at h
  have hstep : ∃ k, ChannelCommission.step s.commission call = .ok k ∧
      s' = { s with slp := { s.slp with minting := k.minting }, commission := k } := by
    cases call with
    | recordHostingFee c amount => exact absurd rfl (hrecords c amount)
    | _ =>
      simp only [step, bind_eq_ok, mapErr_eq_ok, pure_eq_ok] at h
      obtain ⟨k, hk, rfl⟩ := h
      exact ⟨k, hk, rfl⟩
  obtain ⟨k, hk, rfl⟩ := hstep
  obtain ⟨hkeyed', hrecorded⟩ := commission_recorded hkeyed hrecords hk
  refine ⟨⟨hs.calls, ?_, ?_⟩, hkeyed'⟩
  · intro token
    rw [hrecorded token]
    exact hs.recorded_le token
  · intro token hconserved
    have hle : (k.history token).recorded ≤ s.received token := by
      rw [hrecorded token]
      exact hs.recorded_le token
    exact Nat.le_trans hconserved hle

end Steps

/-- In a run where the fees go to the commission account and are recorded in the vToken they are
converted to, recorded commissions are funded just as long as every call mints the vToken its
currency is mapped to, or charges too little to be recorded. -/
theorem commissions_funded_iff [DecidableEq AccountId] (slp : Slp.State cfg.slp) (blockNumber : ℕ)
    (calls : List (Call cfg)) (hcalls : Meets step Commissioned (start slp blockNumber) calls) :
    Always step Funded (start slp blockNumber) calls ↔
      Meets step MintsMapped (start slp blockNumber) calls := by
  have hstep (s : State cfg) (call : Call cfg) (s' : State cfg) (hcommissioned : Commissioned s call)
      (hkeyed : s.commission.Keyed) (hs : Funded s) (h : step s call = .ok s') :
      (Funded s' ↔ MintsMapped s call) ∧ (Funded s' → s'.commission.Keyed) := by
    cases call with
    | slp call =>
      obtain ⟨hiff, hkeyed'⟩ := slp_step hcommissioned hkeyed hs h
      exact ⟨hiff, fun _ => hkeyed'⟩
    | commission call =>
      obtain ⟨hs', hkeyed'⟩ := commission_step hkeyed hs h
      exact ⟨iff_of_true hs' trivial, fun _ => hkeyed'⟩
  apply always_iff_meets_of_meets hstep hcalls
  · exact (@start_backed _ cfg.commission Slp.bnc slp.minting blockNumber).keyed
  · exact ⟨trivial, fun _ => Nat.le_refl 0, fun _ _ => Nat.le_refl 0⟩

namespace Sample

/-- The beneficiary of the fees is the account of the commission pallet. -/
def config : Config ℕ where
  slp := Slp.Sample.config
  channels := { ChannelCommission.Sample.config with account := 7 }

def vMovr : CurrencyId := .vToken .MOVR

def begun (v : CurrencyId) : State config :=
  start (Slp.genesis Slp.Sample.config (Slp.Sample.tuning 1) (Slp.Sample.mapped v 1) (0 : ℕ)) 0

/-- Both vTokens are their own commission tokens. -/
def tuned (v : CurrencyId) : List (Call config) :=
  [.commission (.setCommissionTokens ChannelCommission.Sample.control vMovr (some vMovr)),
    .commission (.setCommissionTokens ChannelCommission.Sample.control v (some v)),
    .slp Slp.Sample.tune]

theorem tuned_commissioned {v : CurrencyId} {s : State config}
    (hs : run step (begun v) ((tuned v).take 2) = s)
    (hsettings : s.slp.settings = Slp.Sample.tuning 1)
    (hmapped : s.slp.minting.tokenToVToken Slp.movr = some v)
    (hown : s.commission.commissionTokens.get v = some v) :
    Meets step Commissioned (begun v) (tuned v) := by
  refine ⟨fun _ _ => trivial, fun _ _ => trivial, fun _ _ => ?_, trivial⟩
  show Commissioned (run step (begun v) ((tuned v).take 2)) (.slp Slp.Sample.tune)
  rw [hs]
  constructor
  · intro feePermill beneficiary hfees
    rw [hsettings] at hfees
    cases hfees
    rfl
  · intro target htarget
    rw [hmapped] at htarget
    cases htarget
    exact hown

end Sample

/-- A fee of 10 mints 10 vMOVR, of which 9 are recorded. -/
theorem commissions_funded_movr :
    Always step Funded (Sample.begun Sample.vMovr) (Sample.tuned Sample.vMovr) ∧
      let s := run step (Sample.begun Sample.vMovr) (Sample.tuned Sample.vMovr)
      ((s.commission.history Sample.vMovr).recorded, s.received Sample.vMovr) = (9, 10) := by
  refine ⟨(commissions_funded_iff _ _ _ (Sample.tuned_commissioned rfl rfl
    (by decide) (by decide))).mpr ?_, by decide⟩
  refine ⟨fun _ _ => trivial, fun _ _ => trivial, fun _ _ => ?_, trivial⟩
  intro agent v target hagent hv htarget
  cases hagent
  cases hv
  cases htarget
  exact Or.inl rfl

/-- Where MOVR is mapped to another vToken, 10 vMOVR are minted and 9 of the other recorded. -/
theorem mapped_commission_unfunded :
    Meets step Commissioned (Sample.begun (.vToken2 9)) (Sample.tuned (.vToken2 9)) ∧
      (let s := run step (Sample.begun (.vToken2 9)) (Sample.tuned (.vToken2 9))
      ((s.commission.history (.vToken2 9)).recorded, s.received (.vToken2 9),
        s.received Sample.vMovr) = (9, 0, 10)) ∧
      ¬Always step Funded (Sample.begun (.vToken2 9)) (Sample.tuned (.vToken2 9)) := by
  refine ⟨Sample.tuned_commissioned rfl rfl (by decide) (by decide), by decide, ?_⟩
  intro halways
  exact absurd (halways.run.recorded_le (.vToken2 9)) (by decide)

end Bifrost.HostingFees
