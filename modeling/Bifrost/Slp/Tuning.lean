import Bifrost.Slp.Steps
import Bifrost.VtokenMinting.ExchangeRate
import Mathlib.Tactic.Linarith
import Mathlib.Tactic.FieldSimp
import Mathlib.Tactic.Positivity

/-!
# The limits of tuning

How often a currency is tuned in a time unit is counted with the unit the count is for, and the
pool grows by its limited share each time. The first time in a unit is not compared with the limit,
so a limit of zero lets one through. The fee is minted in the vToken the agent knows; where the
currency is mapped to another one, that other pool grows and the minted vToken is diluted.
-/

namespace Bifrost.Slp

open Result Machine Shares
set_option autoImplicit false

variable {AccountId : Type} [DecidableEq AccountId] {cfg : Config AccountId} {s s' : State cfg}
  {c target v : CurrencyId} {poolValue : ℕ}

/-! What a call does to the pools and the counters. -/

/-- Everything but the pools, the issuance and the ledgers. -/
structure Untuned (s s' : State cfg) : Prop where
  settings : s'.settings = s.settings
  records : s'.currencyLatestTuneRecord = s.currencyLatestTuneRecord
  ongoing : s'.minting.ongoingTimeUnit = s.minting.ongoingTimeUnit
  mapping : s'.minting.tokenToVToken = s.minting.tokenToVToken

omit [DecidableEq AccountId] in
theorem Untuned.trans {s'' : State cfg} (h : Untuned s s') (h' : Untuned s' s'') :
    Untuned s s'' :=
  ⟨h'.1.trans h.1, h'.2.trans h.2, h'.3.trans h.3, h'.4.trans h.4⟩

structure Raised (c : CurrencyId) (amount : ℕ) (s s' : State cfg) : Prop where
  untuned : Untuned s s'
  issuance : s'.minting.vtokenIssuance = s.minting.vtokenIssuance
  pool : ∃ target, s.minting.tokenToVToken c = some target ∧ s'.minting.tokenPool =
    Function.update s.minting.tokenPool target (s.minting.tokenPool target + amount)

omit [DecidableEq AccountId] in
theorem increaseTokenPool_raised {amount : ℕ} (h : s.increaseTokenPool c amount = .ok s') :
    Raised c amount s s' := by
  simp only [State.increaseTokenPool, VtokenMinting.State.updateTokenPool,
    VtokenMinting.State.getVtokenForToken, bind_eq_ok, mapErr_eq_ok, okOr_eq_ok, pure_eq_ok] at h
  obtain ⟨minting, ⟨target, htarget, total, htotal, rfl⟩, rfl⟩ := h
  refine ⟨⟨rfl, rfl, rfl, rfl⟩, rfl, target, htarget, ?_⟩
  simp only [VtokenMinting.updateTotal, okOr_eq_ok, U128.checkedAdd_eq_some] at htotal
  rw [htotal.1]

omit [DecidableEq AccountId] in
theorem Raised.quiet {amount : ℕ} {s₁ : State cfg} {L : cfg.minting.currency.Ledger}
    (h : Raised c amount s s₁) (hsettings : s'.settings = s₁.settings)
    (hrecords : s'.currencyLatestTuneRecord = s₁.currencyLatestTuneRecord)
    (hminting : s'.minting = { s₁.minting with ledger := L }) : Raised c amount s s' := by
  obtain ⟨huntuned, hissuance, target, htarget, hpool⟩ := h
  refine ⟨huntuned.trans ⟨hsettings, hrecords, by rw [hminting], by rw [hminting]⟩,
    by rw [hminting, hissuance], target, htarget, by rw [hminting, hpool]⟩

theorem tuneWithoutUpdate_raised {who : MultiLocation AccountId} {amount : ℕ}
    (h : s.tuneVtokenExchangeRateWithoutUpdateLedger who amount c = .ok s') :
    Raised c amount s s' := by
  simp only [State.tuneVtokenExchangeRateWithoutUpdateLedger, bind_eq_ok, pure_eq_ok] at h
  obtain ⟨-, -, _, -, -, -, -, -, -, -, s₁, hpool, rfl⟩ := h
  exact (increaseTokenPool_raised hpool).quiet rfl rfl rfl

theorem tuneVtokenExchangeRate_raised {w : Option (MultiLocation AccountId)} {delegator : ℕ}
    {agent : Agent} (h : tuneVtokenExchangeRate s w poolValue delegator c agent = .ok s') :
    Raised c poolValue s s' := by
  have hsubstrate (h : PolkadotAgent.tuneVtokenExchangeRate s w poolValue delegator c = .ok s') :
      Raised c poolValue s s' := by
    simp only [PolkadotAgent.tuneVtokenExchangeRate, State.handleHyperbridgeOracle, bind_eq_ok,
      pure_eq_ok] at h
    obtain ⟨who, -, s₁, hpool, s₂, hmutate, L, -, rfl⟩ := h
    obtain ⟨l, l', -, -, rfl⟩ := mutateSubstrate_ok hmutate
    exact (tuneWithoutUpdate_raised hpool).quiet rfl rfl rfl
  cases agent with
  | polkadot => exact hsubstrate h
  | astar => exact hsubstrate h
  | parachainStaking =>
    simp only [tuneVtokenExchangeRate, ParachainStakingAgent.tuneVtokenExchangeRate,
      State.handleHyperbridgeOracle, bind_eq_ok, pure_eq_ok] at h
    obtain ⟨-, -, s₁, hpool, L, -, rfl⟩ := h
    exact (increaseTokenPool_raised hpool).quiet rfl rfl rfl
  | phala =>
    simp only [tuneVtokenExchangeRate, PhalaAgent.tuneVtokenExchangeRate, bind_eq_ok] at h
    obtain ⟨who, -, _, -, -, -, h⟩ := h
    exact tuneWithoutUpdate_raised h

/-- The fee is minted at the rate of the pool of the currency. -/
structure Minted (s : State cfg) (c v : CurrencyId) (fee : ℕ) (s' : State cfg) : Prop where
  untuned : Untuned s s'
  pool : s'.minting.tokenPool = s.minting.tokenPool
  shares_pos : 0 < fee * s.minting.vtokenIssuance v / s.getTokenPool c
  issuance : s'.minting.vtokenIssuance = Function.update s.minting.vtokenIssuance v
    (s.minting.vtokenIssuance v + fee * s.minting.vtokenIssuance v / s.getTokenPool c)

omit [DecidableEq AccountId] in
theorem chargeHostingFee_minted {fee : ℕ} {beneficiary : MultiLocation AccountId} {agent : Agent}
    (h : chargeHostingFee s fee beneficiary c agent = .ok s') :
    ∃ v, hostingFeeVtoken c agent = .ok v ∧ Minted s c v fee s' := by
  simp only [chargeHostingFee, State.innerCalculateVtokenHostingFee, State.innerChargeHostingFee,
    VtokenMinting.State.getVCurrencyIssuanceInner, bind_eq_ok, ensure_eq_ok, mapErr_eq_ok,
    pure_eq_ok, exists_const] at h
  obtain ⟨v, hv, charge, ⟨-, issuance, ⟨hvtoken, rfl⟩, hcharge⟩, hpos, account, -, L, -, h⟩ := h
  refine ⟨v, hv, ?_⟩
  rw [if_pos hvtoken] at h
  simp only [VtokenMinting.toI128, VtokenMinting.State.setVCurrencyIssuanceInner, bind_eq_ok,
    ensure_eq_ok, mapErr_eq_ok, pure_eq_ok, exists_const] at h
  obtain ⟨adjustment, ⟨-, rfl⟩, minting, ⟨-, total, htotal, rfl⟩, rfl⟩ := h
  have hshares : fee * s.minting.vtokenIssuance v / s.getTokenPool c = charge := by
    split at hcharge
    · rw [pure_eq_ok] at hcharge
      omega
    · rw [pure_eq_ok] at hcharge
      split at hcharge
      · exact hcharge
      · omega
  simp only [Nat.cast_nonneg, if_true, Int.natAbs_natCast, VtokenMinting.updateTotal,
    okOr_eq_ok, U128.checkedAdd_eq_some] at htotal
  obtain ⟨rfl, -⟩ := htotal
  refine ⟨⟨rfl, rfl, rfl, rfl⟩, rfl, by omega, ?_⟩
  rw [hshares]
  rfl

/-- A call that tunes: its checks, its counter, and the two pools it works on. -/
structure TunesBy (s : State cfg) (c : CurrencyId) (poolValue limitNum : ℕ) (maxPermill : Permill)
    (current : TimeUnit) (tuneNum fee : ℕ) (v target : CurrencyId) (s' : State cfg) : Prop where
  limit : s.settings.currencyTuneExchangeRateLimit c = some (limitNum, maxPermill)
  value_pos : 0 < poolValue
  value_le : poolValue ≤ maxPermill.mulFloor (s.minting.tokenPool target)
  ongoing : s.getOngoingTimeUnit c = some current
  counted : newTuneNum s c current limitNum = .ok tuneNum
  vtoken : ∃ agent, getCurrencyStakingAgent c = .ok agent ∧ hostingFeeVtoken c agent = .ok v
  mapped : s.minting.tokenToVToken c = some target
  fee_le : fee ≤ poolValue
  shares_pos : 0 < mintedFor (s.minting.tokenPool target) (s.minting.vtokenIssuance v) fee
  pool : s'.minting.tokenPool =
    Function.update s.minting.tokenPool target (s.minting.tokenPool target + poolValue)
  issuance : s'.minting.vtokenIssuance = Function.update s.minting.vtokenIssuance v
    (s.minting.vtokenIssuance v +
      mintedFor (s.minting.tokenPool target) (s.minting.vtokenIssuance v) fee)
  settings : s'.settings = s.settings
  units : s'.minting.ongoingTimeUnit = s.minting.ongoingTimeUnit
  mapping : s'.minting.tokenToVToken = s.minting.tokenToVToken
  records : s'.currencyLatestTuneRecord =
    Function.update s.currencyLatestTuneRecord c (some (current, tuneNum))

theorem chargeHostFee_tunesBy {w : Option (MultiLocation AccountId)} {delegator : ℕ}
    (h : chargeHostFeeAndTuneVtokenExchangeRate s c poolValue delegator w = .ok s') :
    ∃ limitNum maxPermill current tuneNum fee v target,
      TunesBy s c poolValue limitNum maxPermill current tuneNum fee v target s' := by
  simp only [chargeHostFeeAndTuneVtokenExchangeRate, bind_eq_ok, ensure_eq_ok, okOr_eq_ok,
    mapErr_eq_ok, pure_eq_ok, exists_const] at h
  obtain ⟨hpos, -, ⟨limitNum, maxPermill⟩, hlimit, hle, -, current, hongoing, tuneNum, htuneNum,
    ⟨feePermill, beneficiary⟩, -, agent, hagent, s₁, hcharge, s₂, htune, L, -, rfl⟩ := h
  obtain ⟨v, hv, hminted⟩ := chargeHostingFee_minted hcharge
  obtain ⟨huntuned, hissuance, target, htarget, hpool⟩ := tuneVtokenExchangeRate_raised htune
  have hbefore := hminted.untuned
  rw [hbefore.mapping] at htarget
  have hget : s.getTokenPool c = s.minting.tokenPool target := by
    simp only [State.getTokenPool, VtokenMinting.State.getVtokenForToken, htarget, Option.elim_some]
  have hfill : 0 < s.minting.tokenPool target := by
    have hfloor := maxPermill.mulFloor_le (s.minting.tokenPool target)
    rw [← hget] at hfloor ⊢
    exact hpos.trans_le (hle.trans hfloor)
  have hshares : mintedFor (s.minting.tokenPool target) (s.minting.vtokenIssuance v)
      (feePermill.mulFloor poolValue) =
      feePermill.mulFloor poolValue * s.minting.vtokenIssuance v / s.getTokenPool c := by
    rw [hget, mintedFor, if_neg (by omega)]
  refine ⟨limitNum, maxPermill, current, tuneNum, feePermill.mulFloor poolValue, v, target, ?_⟩
  constructor
  · exact hlimit
  · exact hpos
  · rwa [hget] at hle
  · exact hongoing
  · exact htuneNum
  · exact ⟨agent, hagent, hv⟩
  · exact htarget
  · exact feePermill.mulFloor_le poolValue
  · rw [hshares]
    exact hminted.shares_pos
  · rw [← hminted.pool]
    exact hpool
  · rw [hshares, ← hminted.issuance]
    exact hissuance
  · exact huntuned.settings.trans hbefore.settings
  · exact huntuned.ongoing.trans hbefore.ongoing
  · exact huntuned.mapping.trans hbefore.mapping
  · have hrecords := huntuned.records.trans hbefore.records
    exact congrArg (Function.update · c (some (current, tuneNum))) hrecords

theorem Effect.records {agent : Agent} {e : Event AccountId} (h : Effect agent c e s s') :
    s'.currencyLatestTuneRecord = s.currencyLatestTuneRecord := by
  cases h with
  | quiet x L es hx hes he => rfl
  | queued s₀ s₁ entry q hopens hqueued hentry =>
    obtain ⟨ledgers, rfl, -⟩ := hopens.eq
    obtain ⟨r, x, L, es, -, hes, rfl⟩ := hqueued
    rfl
  | nominated r x L es q who validators hagent hq hes => rfl
  | native s₀ entry l l' L occ hagent hc hopens hget hupdate hfits he =>
    obtain ⟨ledgers, rfl, -⟩ := hopens.eq
    rfl
  | phala s₀ who l es hagent hopens hes =>
    obtain ⟨ledgers, rfl, -⟩ := hopens.eq
    rfl

def Call.tunes : Call cfg → Option CurrencyId
  | .chargeHostFeeAndTuneVtokenExchangeRate _ c _ _ _ => some c
  | _ => none

theorem records_of_tunes_none {call : Call cfg} (hcall : call.tunes = none)
    (h : step s call = .ok s') : s'.currencyLatestTuneRecord = s.currencyLatestTuneRecord := by
  cases step_ok h with
  | operated origin c operation agent e s₁ hauth hagent heffect he hleave => exact heffect.records
  | noted _ _ c es hnote hnoted hes =>
    cases call with
    | updateOngoingTimeUnit origin c timeUnit =>
      simp only [step, updateOngoingTimeUnit, bind_eq_ok, pure_eq_ok] at h
      obtain ⟨-, -, _, -, _, -, -, -, -, -, -, -, rfl⟩ := h
      rfl
    | cleanOutdatedValidatorBoostList origin c page =>
      simp only [step, cleanOutdatedValidatorBoostList, bind_eq_ok, pure_eq_ok] at h
      obtain ⟨-, -, -, -, _, -, -, -, rfl⟩ := h
      rfl
    | world minting blocks =>
      cases h
      rfl
    | _ => exact hnote.elim
  | tuned origin c pool delegator who s₁ _ es hauth htuned hnoted hes => cases hcall
  | ledgerSet origin c who ledger hauth => rfl
  | ledgerAnswered _ q _ hanswers hanswer =>
    generalize s.confirmed call = o at hanswer
    cases hanswer with
    | confirmed entry timeout c agent who l l' occ hq hdue hc hagent hget hl => rfl
    | failed entry timeout c hq hc => rfl
  | validatorsAnswered _ q _ hanswers hanswer =>
    cases hanswer with
    | confirmed entry timeout hq hdue => rfl
    | failed entry timeout hq => rfl
  | removed origin c who settings horigin => rfl
  | validatorsSet origin c who validators list horigin => rfl
  | governed settings boostList => rfl
  | otherQuery responder timeout => rfl

/-! What is promised, and when it holds. -/

/-- The pallet with what has been tuned since the time unit or the limit of the currency changed:
how often, and the factor by which its pool grew. -/
structure Observed (cfg : Config AccountId) where
  state : State cfg
  accepted : CurrencyId → ℕ
  growth : CurrencyId → ℚ
  ratesKept : Prop

namespace Observed

def start (s : State cfg) : Observed cfg := ⟨s, fun _ => 0, fun _ => 1, True⟩

/-- The time unit and the limit that calls are counted under. -/
def window (s : State cfg) (c : CurrencyId) : Option TimeUnit × Option (ℕ × Permill) :=
  (s.getOngoingTimeUnit c, s.settings.currencyTuneExchangeRateLimit c)

/-- The factor by which the pool of the currency has grown. -/
def poolGrowth (s s' : State cfg) (c : CurrencyId) : ℚ :=
  (s'.getTokenPool c : ℚ) / s.getTokenPool c

/-- What the observer makes of a call that has led to `s'`. -/
def next (o : Observed cfg) (call : Call cfg) (s' : State cfg) : Observed cfg where
  state := s'
  accepted c :=
    if window s' c = window o.state c then o.accepted c + if call.tunes = some c then 1 else 0
    else 0
  growth c :=
    if window s' c = window o.state c then
      o.growth c * if call.tunes = some c then poolGrowth o.state s' c else 1
    else 1
  ratesKept := o.ratesKept ∧
    (call.tunes ≠ none → VtokenMinting.RateKept o.state.minting s'.minting)

def step (o : Observed cfg) (call : Call cfg) : Except Fault (Observed cfg) := do
  let s' ← Slp.step o.state call
  pure (o.next call s')

end Observed

/-- At most `limitNum` calls in a time unit, a growth of at most the largest share that often, and
no rate that has fallen. -/
structure TuningBounded (o : Observed cfg) : Prop where
  accepted : ∀ {c limitNum maxPermill},
    o.state.settings.currencyTuneExchangeRateLimit c = some (limitNum, maxPermill) →
    o.accepted c ≤ limitNum
  growth : ∀ {c limitNum maxPermill},
    o.state.settings.currencyTuneExchangeRateLimit c = some (limitNum, maxPermill) →
    o.growth c ≤ (1 + maxPermill.parts / Permill.accuracy) ^ limitNum
  ratesKept : o.ratesKept

/-- The limit is not zero, and the fee is minted in the vToken the currency is mapped to, unless
the other vToken has no pool. -/
def TunesSoundly (s : State cfg) : Call cfg → Prop
  | .chargeHostFeeAndTuneVtokenExchangeRate _ c _ _ _ =>
    (∀ limitNum maxPermill, s.settings.currencyTuneExchangeRateLimit c =
      some (limitNum, maxPermill) → limitNum ≠ 0) ∧
    ∀ agent v, getCurrencyStakingAgent c = .ok agent → hostingFeeVtoken c agent = .ok v →
      s.minting.tokenToVToken c = some v ∨ s.minting.tokenPool v = 0
  | _ => True

/-- The counter of the pallet is not behind the observer. -/
structure Counted (o : Observed cfg) : Prop where
  current : ∀ {c current tuneNum}, o.state.getOngoingTimeUnit c = some current →
    o.state.currencyLatestTuneRecord c = some (current, tuneNum) → o.accepted c ≤ tuneNum
  earlier : ∀ {c current}, o.state.getOngoingTimeUnit c = some current →
    (∀ tuneNum, o.state.currencyLatestTuneRecord c ≠ some (current, tuneNum)) → o.accepted c = 0
  growth_pos : ∀ c, 0 < o.growth c
  growth_le : ∀ {c limitNum maxPermill},
    o.state.settings.currencyTuneExchangeRateLimit c = some (limitNum, maxPermill) →
    o.growth c ≤ (1 + maxPermill.parts / Permill.accuracy) ^ o.accepted c

/-! What a step keeps. -/

section Tunes

variable {limitNum tuneNum fee : ℕ} {maxPermill : Permill} {current : TimeUnit}

omit [DecidableEq AccountId] in
theorem newTuneNum_ok (h : newTuneNum s c current limitNum = .ok tuneNum) :
    (∃ n, s.currencyLatestTuneRecord c = some (current, n) ∧ n < limitNum ∧ tuneNum = n + 1) ∨
      (∀ n, s.currencyLatestTuneRecord c ≠ some (current, n)) ∧ tuneNum = 1 := by
  cases hrecord : s.currencyLatestTuneRecord c with
  | none =>
    simp only [newTuneNum, hrecord, Option.getD_none, bind_eq_ok, ensure_eq_ok, okOr_eq_ok,
      exists_const, if_true, U32.checkedAdd_eq_some] at h
    exact .inr ⟨by simp, by omega⟩
  | some record =>
    obtain ⟨latest, n⟩ := record
    simp only [newTuneNum, hrecord, Option.getD_some, bind_eq_ok, ensure_eq_ok, okOr_eq_ok,
      exists_const, U32.checkedAdd_eq_some] at h
    obtain ⟨hlimit, htuneNum, -⟩ := h
    by_cases hlatest : latest = current
    · subst latest
      rw [if_pos rfl] at htuneNum
      exact .inl ⟨n, rfl, by simpa using hlimit, htuneNum.symm⟩
    · rw [if_neg hlatest] at htuneNum
      refine .inr ⟨?_, by omega⟩
      rintro m hm
      cases hm
      exact hlatest rfl

variable (h : TunesBy s c poolValue limitNum maxPermill current tuneNum fee v target s')
include h

section

omit [DecidableEq AccountId]

theorem TunesBy.getTokenPool : s.getTokenPool c = s.minting.tokenPool target ∧
    s'.getTokenPool c = s.minting.tokenPool target + poolValue := by
  constructor
  · simp only [State.getTokenPool, VtokenMinting.State.getVtokenForToken, h.mapped,
      Option.elim_some]
  · simp only [State.getTokenPool, VtokenMinting.State.getVtokenForToken, h.mapping, h.mapped,
      Option.elim_some, h.pool, Function.update_self]

theorem TunesBy.pool_pos : 0 < s.minting.tokenPool target :=
  h.value_pos.trans_le (h.value_le.trans (maxPermill.mulFloor_le _))

theorem TunesBy.growth_le :
    Observed.poolGrowth s s' c ≤ 1 + maxPermill.parts / Permill.accuracy := by
  have hpool : (0 : ℚ) < s.minting.tokenPool target := by
    exact_mod_cast h.pool_pos
  have hvalue : poolValue * Permill.accuracy ≤ s.minting.tokenPool target * maxPermill.parts :=
    (Nat.le_div_iff_mul_le (by decide)).mp h.value_le
  have hshare : (poolValue : ℚ) * Permill.accuracy ≤
      s.minting.tokenPool target * maxPermill.parts := by
    exact_mod_cast hvalue
  have haccuracy : (0 : ℚ) < Permill.accuracy := by
    exact_mod_cast (by decide : 0 < Permill.accuracy)
  rw [Observed.poolGrowth, h.getTokenPool.1, h.getTokenPool.2, div_le_iff₀ hpool, add_mul, one_mul,
    Nat.cast_add, div_mul_eq_mul_div]
  apply add_le_add_right
  rw [le_div_iff₀ haccuracy]
  linarith

/-- The pool that grows is the pool of the vToken that is minted, or that one has no pool. -/
theorem TunesBy.rateKept_iff :
    VtokenMinting.RateKept s.minting s'.minting ↔ target = v ∨ s.minting.tokenPool v = 0 := by
  have hissued : 0 < s.minting.vtokenIssuance v := by
    rcases Nat.eq_zero_or_pos (s.minting.vtokenIssuance v) with hzero | hpos
    · have hshares := h.shares_pos
      rw [mintedFor, if_neg h.pool_pos.ne', hzero] at hshares
      simp at hshares
    · exact hpos
  constructor
  · intro hkept
    by_contra hneither
    obtain ⟨hne, hpool⟩ := not_or.mp hneither
    have hrate := hkept v (Nat.pos_of_ne_zero hpool) hissued (by
      rw [h.issuance, Function.update_self]
      omega)
    rw [h.pool, h.issuance, Function.update_self, Function.update_of_ne (Ne.symm hne)] at hrate
    exact hpool ((dilute_rate_iff h.shares_pos).mp hrate)
  · intro hsound w hw _ _
    rw [h.pool, h.issuance]
    by_cases hwv : w = v
    · subst w
      obtain rfl : target = v := hsound.resolve_right hw.ne'
      rw [Function.update_self, Function.update_self]
      exact mint_rate_of_le h.pool_pos h.fee_le
    · rw [Function.update_of_ne hwv]
      by_cases hwt : w = target
      · subst w
        rw [Function.update_self]
        exact Nat.mul_le_mul_right _ (Nat.le_add_right _ _)
      · rw [Function.update_of_ne hwt]
        exact Nat.le_refl _

end

end Tunes

variable {o : Observed cfg} {call : Call cfg}

theorem one_le_share (p : Permill) : (1 : ℚ) ≤ 1 + p.parts / Permill.accuracy :=
  le_add_of_nonneg_right (div_nonneg (Nat.cast_nonneg _) (Nat.cast_nonneg _))

theorem counted_of_tunes_none (hs : Counted o) (hcall : call.tunes = none)
    (h : step o.state call = .ok s') : Counted (o.next call s') := by
  have hrecords := records_of_tunes_none hcall h
  have hwindow {c : CurrencyId} (hsame : Observed.window s' c = Observed.window o.state c) :
      s'.getOngoingTimeUnit c = o.state.getOngoingTimeUnit c ∧
        s'.settings.currencyTuneExchangeRateLimit c =
          o.state.settings.currencyTuneExchangeRateLimit c := Prod.mk.inj hsame
  constructor
  · intro c current tuneNum hongoing hrecord
    simp only [Observed.next, hcall, reduceCtorEq, if_false, add_zero] at hongoing hrecord ⊢
    rw [hrecords] at hrecord
    split
    · rename_i hsame
      rw [(hwindow hsame).1] at hongoing
      exact hs.current hongoing hrecord
    · exact Nat.zero_le _
  · intro c current hongoing hrecord
    simp only [Observed.next, hcall, reduceCtorEq, if_false, add_zero] at hongoing hrecord ⊢
    rw [hrecords] at hrecord
    split
    · rename_i hsame
      rw [(hwindow hsame).1] at hongoing
      exact hs.earlier hongoing hrecord
    · rfl
  · intro c
    simp only [Observed.next, hcall, reduceCtorEq, if_false, mul_one]
    split
    · exact hs.growth_pos c
    · exact one_pos
  · intro c limitNum maxPermill hlimit
    simp only [Observed.next, hcall, reduceCtorEq, if_false, add_zero, mul_one] at hlimit ⊢
    split
    · rename_i hsame
      rw [(hwindow hsame).2] at hlimit
      exact hs.growth_le hlimit
    · exact (pow_zero _).ge

omit [DecidableEq AccountId] in
theorem bounded_of_tunes_none (hp : TuningBounded o) (hcall : call.tunes = none) :
    TuningBounded (o.next call s') := by
  constructor
  · intro c limitNum maxPermill hlimit
    simp only [Observed.next, hcall, reduceCtorEq, if_false, add_zero] at hlimit ⊢
    split
    · rename_i hsame
      rw [(Prod.mk.inj hsame).2] at hlimit
      exact hp.accepted hlimit
    · exact Nat.zero_le _
  · intro c limitNum maxPermill hlimit
    simp only [Observed.next, hcall, reduceCtorEq, if_false, mul_one] at hlimit ⊢
    split
    · rename_i hsame
      rw [(Prod.mk.inj hsame).2] at hlimit
      exact hp.growth hlimit
    · exact one_le_pow₀ (one_le_share maxPermill)
  · exact ⟨hp.ratesKept, fun htunes => absurd hcall htunes⟩

section Tunes

variable {limitNum tuneNum fee : ℕ} {maxPermill : Permill} {current : TimeUnit}
  (h : TunesBy o.state c poolValue limitNum maxPermill current tuneNum fee v target s')
include h

omit [DecidableEq AccountId] in
theorem TunesBy.window_eq (d : CurrencyId) :
    Observed.window s' d = Observed.window o.state d := by
  simp only [Observed.window, State.getOngoingTimeUnit, h.units, h.settings]

omit [DecidableEq AccountId] in
theorem TunesBy.accepted_lt (hs : Counted o) : o.accepted c < tuneNum := by
  rcases newTuneNum_ok h.counted with ⟨n, hrecord, -, rfl⟩ | ⟨hrecord, rfl⟩
  · exact Nat.lt_succ_of_le (hs.current h.ongoing hrecord)
  · rw [hs.earlier h.ongoing hrecord]
    exact Nat.one_pos

variable (hcall : call.tunes = some c)
include hcall

section

omit [DecidableEq AccountId]

theorem TunesBy.accepted_self : (o.next call s').accepted c = o.accepted c + 1 := by
  simp only [Observed.next, if_pos (h.window_eq c), hcall, if_true]

theorem TunesBy.other {d : CurrencyId} (hd : d ≠ c) :
    (o.next call s').accepted d = o.accepted d ∧ (o.next call s').growth d = o.growth d := by
  have hother : call.tunes ≠ some d := by
    rw [hcall]
    rintro ⟨⟩
    exact hd rfl
  simp only [Observed.next, if_pos (h.window_eq d), if_neg hother, add_zero, mul_one,
    and_self]

theorem counted_of_tunesBy (hs : Counted o) : Counted (o.next call s') := by
  have hongoing (d : CurrencyId) : s'.getOngoingTimeUnit d = o.state.getOngoingTimeUnit d :=
    (Prod.mk.inj (h.window_eq d)).1
  constructor
  · intro d current' tuneNum' hunit hrecord
    simp only [Observed.next, h.records] at hunit hrecord
    rw [hongoing d] at hunit
    by_cases hd : d = c
    · subst d
      rw [Function.update_self] at hrecord
      cases hrecord
      rw [h.accepted_self hcall]
      exact h.accepted_lt hs
    · rw [Function.update_of_ne hd] at hrecord
      rw [(h.other hcall hd).1]
      exact hs.current hunit hrecord
  · intro d current' hunit hrecord
    simp only [Observed.next, h.records] at hunit hrecord
    rw [hongoing d] at hunit
    by_cases hd : d = c
    · subst d
      rw [h.ongoing] at hunit
      cases hunit
      rw [Function.update_self] at hrecord
      exact absurd rfl (hrecord tuneNum)
    · rw [Function.update_of_ne hd] at hrecord
      rw [(h.other hcall hd).1]
      exact hs.earlier hunit hrecord
  · intro d
    by_cases hd : d = c
    · subst d
      have hpool := h.pool_pos
      simp only [Observed.next, if_pos (h.window_eq c), hcall, if_true]
      rw [Observed.poolGrowth, h.getTokenPool.1, h.getTokenPool.2]
      have hbefore := hs.growth_pos c
      positivity
    · rw [(h.other hcall hd).2]
      exact hs.growth_pos d
  · intro d limitNum' maxPermill' hlimit
    simp only [Observed.next, h.settings] at hlimit
    by_cases hd : d = c
    · subst d
      rw [h.limit] at hlimit
      cases hlimit
      rw [h.accepted_self hcall, pow_succ]
      simp only [Observed.next, if_pos (h.window_eq c), hcall, if_true]
      apply mul_le_mul (hs.growth_le h.limit) h.growth_le
      · exact div_nonneg (Nat.cast_nonneg _) (Nat.cast_nonneg _)
      · exact pow_nonneg (zero_le_one.trans (one_le_share maxPermill)) _
    · rw [(h.other hcall hd).1, (h.other hcall hd).2]
      exact hs.growth_le hlimit

theorem TunesBy.accepted_le_iff (hs : Counted o) :
    (o.next call s').accepted c ≤ limitNum ↔ limitNum ≠ 0 := by
  rw [h.accepted_self hcall]
  rcases newTuneNum_ok h.counted with ⟨n, hrecord, hn, rfl⟩ | ⟨hrecord, rfl⟩
  · have hle := hs.current h.ongoing hrecord
    omega
  · rw [hs.earlier h.ongoing hrecord]
    omega

theorem bounded_of_tunesBy_iff (hs : Counted o) (hp : TuningBounded o) :
    TuningBounded (o.next call s') ↔
      limitNum ≠ 0 ∧ (target = v ∨ o.state.minting.tokenPool v = 0) := by
  have hs' := counted_of_tunesBy h hcall hs
  have hsettings : (o.next call s').state.settings = o.state.settings := h.settings
  rw [← h.accepted_le_iff hcall hs, ← h.rateKept_iff]
  constructor
  · intro hp'
    have hlimit : (o.next call s').state.settings.currencyTuneExchangeRateLimit c =
        some (limitNum, maxPermill) := by
      rw [hsettings, h.limit]
    refine ⟨hp'.accepted hlimit, hp'.ratesKept.2 ?_⟩
    rw [hcall]
    exact Option.some_ne_none c
  · rintro ⟨haccepted, hrates⟩
    have hcount {d : CurrencyId} {n : ℕ} {p : Permill}
        (hlimit : o.state.settings.currencyTuneExchangeRateLimit d = some (n, p)) :
        (o.next call s').accepted d ≤ n := by
      by_cases hd : d = c
      · subst d
        rw [h.limit] at hlimit
        cases hlimit
        exact haccepted
      · rw [(h.other hcall hd).1]
        exact hp.accepted hlimit
    constructor
    · intro d n p hlimit
      rw [hsettings] at hlimit
      exact hcount hlimit
    · intro d n p hlimit
      have hle := hs'.growth_le hlimit
      rw [hsettings] at hlimit
      exact hle.trans (pow_le_pow_right₀ (one_le_share p) (hcount hlimit))
    · exact ⟨hp.ratesKept, fun _ => hrates⟩

end

end Tunes

theorem tuning_step (hs : Counted o) (hp : TuningBounded o) {o' : Observed cfg}
    (h : o.step call = .ok o') :
    (TuningBounded o' ↔ TunesSoundly o.state call) ∧ (TuningBounded o' → Counted o') := by
  simp only [Observed.step, bind_eq_ok, pure_eq_ok] at h
  obtain ⟨s', hstep, rfl⟩ := h
  cases hcall : call.tunes with
  | none =>
    have hsound : TunesSoundly o.state call := by
      cases call with
      | chargeHostFeeAndTuneVtokenExchangeRate origin d pool delegator who => cases hcall
      | _ => trivial
    exact ⟨iff_of_true (bounded_of_tunes_none hp hcall) hsound,
      fun _ => counted_of_tunes_none hs hcall hstep⟩
  | some c =>
    cases call with
    | chargeHostFeeAndTuneVtokenExchangeRate origin d pool delegator who =>
      cases hcall
      have htunes := hstep
      simp only [step, bind_eq_ok] at htunes
      obtain ⟨-, -, hcharge⟩ := htunes
      obtain ⟨limitNum, maxPermill, current, tuneNum, fee, v, target, h⟩ :=
        chargeHostFee_tunesBy hcharge
      refine ⟨?_, fun _ => counted_of_tunesBy h rfl hs⟩
      rw [bounded_of_tunesBy_iff h rfl hs hp]
      obtain ⟨agent, hagent, hv⟩ := h.vtoken
      constructor
      · rintro ⟨hlimit, hpools⟩
        constructor
        · intro n p hset
          rw [h.limit] at hset
          cases hset
          exact hlimit
        · intro agent' v' hagent' hv'
          rw [hagent] at hagent'
          cases hagent'
          rw [hv] at hv'
          cases hv'
          refine hpools.imp ?_ id
          rintro rfl
          exact h.mapped
      · rintro ⟨hlimit, hpools⟩
        refine ⟨hlimit limitNum maxPermill h.limit, (hpools agent v hagent hv).imp ?_ id⟩
        intro hmapped
        rw [h.mapped] at hmapped
        exact Option.some.inj hmapped
    | _ => cases hcall

/-- Tuning stays within its limits, and no rate falls, just as long as no call tunes under a limit
of zero or mints the fee in a vToken of another pool. -/
theorem tuning_bounded_iff (settings : Settings AccountId)
    (minting : VtokenMinting.State cfg.minting) (xcm : cfg.Xcm) (calls : List (Call cfg)) :
    Always Observed.step TuningBounded (.start (genesis cfg settings minting xcm)) calls ↔
      Meets Observed.step (fun o call => TunesSoundly o.state call)
        (.start (genesis cfg settings minting xcm)) calls := by
  have hstep (o : Observed cfg) (call : Call cfg) (o' : Observed cfg) (_ : True)
      (hs : Counted o) (hp : TuningBounded o) (h : o.step call = .ok o') :
      (TuningBounded o' ↔ TunesSoundly o.state call) ∧ (TuningBounded o' → Counted o') :=
    tuning_step hs hp h
  apply always_iff_meets hstep (fun _ _ => trivial)
  · exact ⟨fun _ _ => Nat.zero_le _, fun _ _ => rfl, fun _ => one_pos,
      fun _ => (pow_zero _).ge⟩
  · exact ⟨fun _ => Nat.zero_le _, fun _ => one_le_pow₀ (one_le_share _), trivial⟩

namespace Sample

/-- A tenth of what is tuned is charged, and a tenth of the pool may be tuned at once. -/
def tuning (limitNum : ℕ) : Settings ℕ where
  operateOrigins := settings.operateOrigins
  feeSources := settings.feeSources
  hostingFees := fun _ => some (⟨100000, by decide⟩, delegator)
  delegatorsMultilocation2Index := settings.delegatorsMultilocation2Index
  validators := settings.validators
  minimumsAndMaximums := settings.minimumsAndMaximums
  currencyDelays := settings.currencyDelays
  currencyTuneExchangeRateLimit := fun _ => some (limitNum, ⟨100000, by decide⟩)
  ongoingTimeUnitUpdateInterval := settings.ongoingTimeUnitUpdateInterval

/-- MOVR is mapped to `v` in a round. -/
def mapped (v : CurrencyId) (round : ℕ) : VtokenMinting.State config.minting where
  fees := minting.fees
  tokenPool := fun _ => 1000
  unlockDuration := minting.unlockDuration
  ongoingTimeUnit := (∅ : Table CurrencyId TimeUnit).write movr (some (.round round))
  minimumMint := minting.minimumMint
  minimumRedeem := minting.minimumRedeem
  tokenUnlockNextId := minting.tokenUnlockNextId
  unlockLedgers := minting.unlockLedgers
  tokenToRebond := minting.tokenToRebond
  minTimeUnit := minting.minTimeUnit
  vtokenIssuance := fun _ => 1000
  hookIterationLimit := minting.hookIterationLimit
  vTokenToTokens := minting.vTokenToTokens
  tokenToVToken := fun c => if c = movr then some v else none
  ledger := minting.ledger
  events := []

def tune : Call config := .chargeHostFeeAndTuneVtokenExchangeRate .control movr 100 100 none

end Sample

/-- In a new round a limit of zero lets one call through; and where MOVR is mapped to another
vToken, the fee dilutes vMOVR. -/
theorem tuning_unbounded :
    ¬Always Observed.step TuningBounded
        (.start (genesis Sample.config (Sample.tuning 1) (Sample.mapped (.vToken .MOVR) 1) (0 : ℕ)))
        [Sample.tune, .govern (Sample.tuning 0) fun _ => none,
          .world (Sample.mapped (.vToken .MOVR) 2) 1, Sample.tune] ∧
      ¬Always Observed.step TuningBounded
        (.start (genesis Sample.config (Sample.tuning 1) (Sample.mapped (.vToken2 9) 1) (0 : ℕ)))
        [Sample.tune] := by
  constructor
  · rintro ⟨-, -, -, -, hlast⟩
    exact absurd (hlast.accepted (c := movr) rfl) (by decide)
  · rintro ⟨-, hlast⟩
    have hrate := hlast.ratesKept.2 (Option.some_ne_none _) (.vToken .MOVR) (by decide) (by decide)
      (by decide)
    exact absurd hrate (by unfold RateLe; decide)

end Bifrost.Slp
