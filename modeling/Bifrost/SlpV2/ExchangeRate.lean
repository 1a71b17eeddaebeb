import Bifrost.SlpV2.Transitions

/-!
# Updates of the exchange rate

A value is limited by a share of the token pool, rounded down; where the share is nothing, there is
no limit. Updates of one delegator keep their distance as long as the next block they are due at is
a block number. The fee is minted at the rate before the update and is at most what the pool gains.
-/

namespace Bifrost.SlpV2

open Result Machine
set_option autoImplicit false

variable {AccountId : Type} [DecidableEq AccountId] {cfg : Config AccountId}

/-- The pallet with the block of the last update of each delegator. -/
structure Timed (cfg : Config AccountId) where
  state : State cfg
  lastUpdate : StakingProtocol → Delegator AccountId → Option ℕ

namespace Timed

def start (s : State cfg) : Timed cfg := ⟨s, fun _ _ => none⟩

/-- The delegator a call updates. -/
def updates : Call cfg → StakingProtocol → Delegator AccountId → Bool
  | .updateTokenExchangeRate protocol _ delegator _ _, p, d => protocol = p ∧ delegator = d
  | _, _, _ => false

def next (o : Timed cfg) (call : Call cfg) (s' : State cfg) : Timed cfg where
  state := s'
  lastUpdate p d := if updates call p d then some o.state.relayBlockNumber else o.lastUpdate p d

def step (o : Timed cfg) (call : Origin AccountId × Call cfg) : Except Fault (Timed cfg) := do
  let s' ← SlpV2.step o.state call
  pure (o.next call.2 s')

end Timed

variable {o o' : Timed cfg} {call : Origin AccountId × Call cfg} {protocol : StakingProtocol}
  {delegator : Delegator AccountId} {c : CurrencyId} {poolValue delegatorValue : ℕ}

theorem Timed.step_ok (h : o.step call = .ok o') :
    ∃ s', SlpV2.step o.state call = .ok s' ∧ o' = o.next call.2 s' := by
  simp only [Timed.step, bind_eq_ok, pure_eq_ok] at h
  obtain ⟨s', hs', rfl⟩ := h
  exact ⟨s', hs', rfl⟩

/-- Every update is noted by the pallet. -/
def Noted (o : Timed cfg) : Prop :=
  ∀ p d block, o.lastUpdate p d = some block → o.state.lastUpdateTokenExchangeRate p d = block

theorem noted_of_same {s' : State cfg} {call : Call cfg} (hs : Noted o)
    (hsame : s'.lastUpdateTokenExchangeRate = o.state.lastUpdateTokenExchangeRate)
    (hcall : Timed.updates call = fun _ _ => false) : Noted (o.next call s') := by
  intro p d block hblock
  simp only [Timed.next, hcall, Bool.false_eq_true, if_false] at hblock ⊢
  rw [hsame]
  exact hs p d block hblock

theorem noted_step (hs : Noted o) (h : o.step call = .ok o') : Noted o' := by
  obtain ⟨s', hstep, rfl⟩ := Timed.step_ok h
  obtain ⟨origin, call⟩ := call
  cases SlpV2.step_ok hstep with
  | apart _ _ _ hcall hapart =>
    apply noted_of_same hs hapart.updated
    cases call <;> first | rfl | exact hcall.elim
  | assigned _ _ protocol delegator l _ hcall hapart =>
    apply noted_of_same hs hapart.updated
    cases hcall <;> rfl
  | proxied _ c destination given _ hapart => exact noted_of_same hs hapart.updated rfl
  | updated _ protocol currencyId delegator poolValue delegatorValue c _ hc hupdates =>
    intro p d block hblock
    simp only [Timed.next, Timed.updates, decide_eq_true_eq] at hblock ⊢
    rw [hupdates.updated]
    by_cases hsame : protocol = p ∧ delegator = d
    · rw [if_pos hsame] at hblock
      obtain ⟨rfl, rfl⟩ := hsame
      rw [Function.update_self, Function.update_self]
      exact Option.some.inj hblock
    · rw [if_neg hsame] at hblock
      have hbefore := hs p d block hblock
      by_cases hp : p = protocol
      · subst p
        have hd : d ≠ delegator := by
          rintro rfl
          exact hsame ⟨rfl, rfl⟩
        rw [Function.update_self, Function.update_of_ne hd]
        exact hbefore
      · rw [Function.update_of_ne hp]
        exact hbefore
  | sent _ delegator task _ hapart => exact noted_of_same hs hapart.updated rfl
  | queried _ delegator task status timeout q x _ hq hapart =>
    exact noted_of_same hs hapart.updated rfl
  | failed _ q status hq => exact hs
  | passed _ q status hq hnone => exact hs
  | applied _ q status l l' hq hget hl => exact hs
  | otherQuery _ protocol timeout => exact hs

/-- The largest value an update may have, rounded down. -/
def State.maxAmount (s : State cfg) (protocol : StakingProtocol) (c : CurrencyId) : ℕ :=
  (s.rateLimits protocol).2.1.mulFloor (s.getTokenPool c)

/-- The values are within the share of the pool. -/
def Capped (s : State cfg) (protocol : StakingProtocol) (c : CurrencyId)
    (poolValue delegatorValue : ℕ) : Prop :=
  poolValue ≤ s.maxAmount protocol c ∧ delegatorValue ≤ s.maxAmount protocol c

/-- The update is within its limits, and no rate falls. -/
structure UpdateBounded (o : Timed cfg) (protocol : StakingProtocol)
    (delegator : Delegator AccountId) (c : CurrencyId) (poolValue delegatorValue : ℕ)
    (o' : Timed cfg) : Prop where
  capped : o.state.maxAmount protocol c ≠ 0 →
    Capped o.state protocol c poolValue delegatorValue
  spaced : ∀ block, o.lastUpdate protocol delegator = some block →
    block + (o.state.rateLimits protocol).1 ≤ u32Max →
    block + (o.state.rateLimits protocol).1 ≤ o.state.relayBlockNumber
  rates : VtokenMinting.RateKept o.state.minting o'.state.minting

/-- Every update that succeeds, in any run. -/
theorem exchange_rate_updates_bounded {minting : VtokenMinting.State cfg.minting} {xcm : cfg.Xcm}
    {calls : List (Origin AccountId × Call cfg)} {origin : Origin AccountId}
    {currencyId : Option CurrencyId} {o o' : Timed cfg}
    (ho : o = run Timed.step (.start (genesis cfg minting xcm)) calls)
    (h : o.step (origin, .updateTokenExchangeRate protocol currencyId delegator poolValue
      delegatorValue) = .ok o') :
    ∃ c, ensureParameterCorrect protocol currencyId = .ok c ∧
      UpdateBounded o protocol delegator c poolValue delegatorValue o' := by
  have hstep (o : Timed cfg) (call : Origin AccountId × Call cfg) (o' : Timed cfg) (hs : Noted o)
      (_ : True) (h : o.step call = .ok o') : Noted o' := noted_step hs h
  have hnoted : Noted o := by
    rw [ho]
    exact run_invariant hstep calls (fun _ _ _ hblock => by cases hblock) (meets_true calls _)
  obtain ⟨s', hcall, rfl⟩ := Timed.step_ok h
  cases SlpV2.step_ok hcall with
  | apart _ _ _ hquiet hapart => exact hquiet.elim
  | assigned _ _ protocol delegator l _ hassigns hapart => cases hassigns
  | updated _ _ _ _ _ _ c _ hc hupdates =>
    refine ⟨c, hc, ?_, ?_, hupdates.rates⟩
    · intro hmax
      exact ⟨hupdates.pool_le.resolve_right hmax, hupdates.delegator_le.resolve_right hmax⟩
    · intro block hblock hfits
      have hdue := hupdates.due
      rw [hnoted _ _ _ hblock, U32.wrappingAdd] at hdue
      rwa [Nat.mod_eq_of_lt (by unfold u32Max at hfits; omega)] at hdue

namespace Sample

def config : Config ℕ where
  minting := VtokenMinting.Sample.config
  Xcm := ℕ
  newNotifyQuery := fun n _ _ => (n, n + 1)
  queryTimeout := 100
  validate := fun _ _ => true
  deliver := fun L _ => .ok L
  derivativeAccountId := fun index => .ok (1000 + index)
  commissionAccount := 50
  maxValidators := 10

/-- ASTR in era 5, with as many vASTR as there are in the pool. -/
def minting (pool : ℕ) : VtokenMinting.State config.minting :=
  { VtokenMinting.genesis config.minting fun _ _ => 0 with
    tokenPool := fun _ => pool
    vtokenIssuance := fun _ => pool
    tokenToVToken := fun c => if c = astr then some (.vToken2 3) else none
    ongoingTimeUnit := (∅ : Table CurrencyId TimeUnit).write astr (some (.era 5)) }

theorem maxUpdate_le_one : 1000 ≤ 1000000 := by decide

def configuration : ProtocolConfiguration ℕ where
  xcmTaskFee := ⟨1, 1⟩
  protocolFeeRate := .fromPercent 10
  unlockPeriod := .era 9
  operator := 1
  maxUpdateTokenExchangeRate := ⟨1000, maxUpdate_le_one⟩
  updateTimeUnitInterval := 0
  updateExchangeRateInterval := 100

def derivative : Delegator ℕ := .substrate 1000

def setup : List (Origin ℕ × Call config) :=
  [(.control, .setProtocolConfiguration .astarDappStaking configuration),
    (.control, .addDelegator .astarDappStaking none), (.control, .world (minting 1000000) 0 100)]

def update (poolValue delegatorValue : ℕ) : Origin ℕ × Call config :=
  (.signed 1,
    .updateTokenExchangeRate .astarDappStaking none derivative poolValue delegatorValue)

end Sample

theorem exchange_rate_updates_bounded_sample :
    let o := run Timed.step (.start (genesis Sample.config (Sample.minting 100) (0 : ℕ)))
      (Sample.setup ++ [Sample.update 1000 500, (.control, .world (Sample.minting 1000000) 0 100)])
    ∃ o', o.step (Sample.update 1000 1000) = .ok o' ∧
      ∃ c, ensureParameterCorrect .astarDappStaking none = .ok c ∧
        UpdateBounded o .astarDappStaking Sample.derivative c 1000 1000 o' := by
  intro o
  have hok : (o.step (Sample.update 1000 1000)).toBool = true := by decide
  obtain ⟨o', h⟩ := exists_of_toBool hok
  exact ⟨o', h, exchange_rate_updates_bounded rfl h⟩

/-- A thousandth of a pool of 100 is nothing, and a value of 1000 is accepted. -/
theorem small_pool_unlimited :
    let o := run Timed.step (.start (genesis Sample.config (Sample.minting 100) (0 : ℕ)))
      (Sample.setup ++ [(.control, .world (Sample.minting 100) 0 0)])
    (∃ o', o.step (Sample.update 1000 1000) = .ok o') ∧ o.state.getTokenPool astr = 100 ∧
      ¬Capped o.state .astarDappStaking astr 1000 1000 := by
  intro o
  have hok : (o.step (Sample.update 1000 1000)).toBool = true := by decide
  refine ⟨exists_of_toBool hok, rfl, ?_⟩
  rintro ⟨hpool, -⟩
  exact absurd hpool (by decide)

end Bifrost.SlpV2
