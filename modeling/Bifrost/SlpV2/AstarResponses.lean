import Bifrost.Lib.Outstanding
import Bifrost.SlpV2.ExchangeRate

/-!
# The responses of Astar

A task that changes a ledger waits for the response to its query. A response that reports a failure
takes the status out; one that reports success applies it and leaves it, so that it can be applied
again. As long as no status is applied twice, a ledger holds what was locked, with the additions of
the exchange rate, less what was claimed.
-/

namespace Bifrost.SlpV2

open Result Machine
set_option autoImplicit false

variable {AccountId : Type} [DecidableEq AccountId] {cfg : Config AccountId} {s s' : State cfg}

/-! Ledgers. -/

namespace AstarDappStakingLedger

variable {l l' : AstarDappStakingLedger}

def total (l : AstarDappStakingLedger) : ℕ := l.locked + (l.unlocking.map (·.amount)).sum

def claimable (l : AstarDappStakingLedger) (current : TimeUnit) : ℕ :=
  ((l.unlocking.filter fun record => current.cmp record.unlockTime = .gt).map (·.amount)).sum

theorem claimUnlocked_total (l : AstarDappStakingLedger) (current : TimeUnit) :
    (l.claimUnlocked current).total + l.claimable current = l.total := by
  obtain ⟨locked, unlocking⟩ := l
  simp only [total, claimable, claimUnlocked]
  induction unlocking with
  | nil => rfl
  | cons record unlocking ih =>
    by_cases hpast : current.cmp record.unlockTime = .gt
    · rw [List.filter_cons_of_neg (by simpa using hpast),
        List.filter_cons_of_pos (by simpa using hpast)]
      simp only [List.map_cons, List.sum_cons]
      omega
    · rw [List.filter_cons_of_pos (by simpa using hpast),
        List.filter_cons_of_neg (by simpa using hpast)]
      simp only [List.map_cons, List.sum_cons]
      omega

end AstarDappStakingLedger

namespace State

variable (s : State cfg)

def astarLedger (delegator : Delegator AccountId) : Option AstarDappStakingLedger :=
  match s.ledgers .astarDappStaking delegator with
  | some (.astarDappStaking l) => some l
  | _ => none

omit [DecidableEq AccountId] in
theorem astarLedger_eq_some {delegator : Delegator AccountId} {l : AstarDappStakingLedger} :
    s.astarLedger delegator = some l ↔
      s.ledgers .astarDappStaking delegator = some (.astarDappStaking l) := by
  unfold astarLedger
  split
  · rename_i l' hget
    rw [hget]
    simp
  · rename_i hnone
    constructor
    · nofun
    · intro hget
      exact absurd hget (hnone l)

/-- What a response to the query `q` would be applied to. -/
def appliesTo (q : ℕ) : Option (PendingStatus AccountId × AstarDappStakingLedger) := do
  let status ← s.pendingStatus q
  let l ← s.astarLedger status.delegator
  pure (status, l)

/-- What a status adds to a ledger when it is applied. -/
def delta (status : PendingStatus AccountId) (l : AstarDappStakingLedger) : ℤ :=
  match status with
  | .lock _ amount => amount
  | .unLock _ _ => 0
  | .claimUnlocked _ => -((s.minting.ongoingTimeUnit.get astr).elim 0 l.claimable : ℕ)

omit [DecidableEq AccountId] in
theorem applyStatus_total {status : PendingStatus AccountId} {l l' : AstarDappStakingLedger}
    (h : s.applyStatus status l = .ok l') : (l'.total : ℤ) = l.total + s.delta status l := by
  cases status with
  | lock delegator amount =>
    simp only [applyStatus, AstarDappStakingLedger.lock, addLockAmount, bind_eq_ok, okOr_eq_ok,
      U128.checkedAdd_eq_some, pure_eq_ok] at h
    obtain ⟨locked, ⟨rfl, -⟩, rfl⟩ := h
    simp only [AstarDappStakingLedger.total, delta]
    omega
  | unLock delegator amount =>
    simp only [applyStatus, subtractLockAmount, bind_eq_ok, okOr_eq_ok, U128.checkedSub_eq_some,
      ensure_eq_ok, exists_const, pure_eq_ok] at h
    obtain ⟨locked, hlocked, current, -, configuration, -, unlockTime, -, -, rfl⟩ := h
    simp only [AstarDappStakingLedger.total, delta, List.map_append, List.map_cons, List.map_nil,
      List.sum_append, List.sum_cons, List.sum_nil]
    omega
  | claimUnlocked delegator =>
    simp only [applyStatus, bind_eq_ok, okOr_eq_ok, pure_eq_ok] at h
    obtain ⟨current, hcurrent, rfl⟩ := h
    have htotal := l.claimUnlocked_total current
    simp only [delta, hcurrent, Option.elim_some]
    omega

end State

/-! What is observed. -/

/-- How `pallet_xcm` numbers queries: an id that is issued is new. -/
structure QueryIds (cfg : Config AccountId) where
  issued : cfg.Xcm → ℕ → Prop
  fresh : ∀ x protocol timeout, ¬issued x (cfg.newNotifyQuery x protocol timeout).1
  issued_iff : ∀ x protocol timeout q, issued (cfg.newNotifyQuery x protocol timeout).2 q ↔
    issued x q ∨ q = (cfg.newNotifyQuery x protocol timeout).1

/-- The pallet with the queries whose response was handled, those whose status was applied, and
what each ledger is to hold: an applied status counts once. -/
structure Observed (cfg : Config AccountId) where
  state : State cfg
  handled : List ℕ
  applied : List ℕ
  expected : Delegator AccountId → ℤ

namespace Observed

def start (s : State cfg) : Observed cfg := ⟨s, [], [], fun _ => 0⟩

def handles : Call cfg → List ℕ
  | .notifyAstarDappStaking q _ => [q]
  | _ => []

def applies (s : State cfg) : Call cfg → List ℕ
  | .notifyAstarDappStaking q true => if (s.appliesTo q).isSome then [q] else []
  | _ => []

variable (o : Observed cfg)

/-- What the ledgers are to hold after a call. -/
def expects : Call cfg → Delegator AccountId → ℤ
  | .notifyAstarDappStaking q true =>
    match o.state.appliesTo q with
    | some (status, l) =>
      if q ∈ o.applied then o.expected
      else Function.update o.expected status.delegator
        (o.expected status.delegator + o.state.delta status l)
    | none => o.expected
  | .updateTokenExchangeRate .astarDappStaking _ delegator _ delegatorValue =>
    Function.update o.expected delegator (o.expected delegator + delegatorValue)
  | .setLedger .astarDappStaking delegator (.astarDappStaking l) =>
    Function.update o.expected delegator l.total
  | .addDelegator .astarDappStaking given =>
    match getDelegator cfg (o.state.nextDelegatorIndex .astarDappStaking) .astarDappStaking given
      with
    | .ok delegator => Function.update o.expected delegator 0
    | .error _ => o.expected
  | _ => o.expected

def next (call : Call cfg) (s' : State cfg) : Observed cfg where
  state := s'
  handled := o.handled ++ handles call
  applied := o.applied ++ applies o.state call
  expected := o.expects call

def step (call : Origin AccountId × Call cfg) : Except Fault (Observed cfg) := do
  let s' ← SlpV2.step o.state call
  pure (o.next call.2 s')

end Observed

/-- No status was applied twice. -/
def Once (o : Observed cfg) : Prop := o.applied.Nodup

def Balanced (o : Observed cfg) : Prop :=
  ∀ delegator l, o.state.astarLedger delegator = some l → (l.total : ℤ) = o.expected delegator

/-- A call other than a response of success. -/
def NoSuccess : Call cfg → Prop
  | .notifyAstarDappStaking _ true => False
  | _ => True

/-- A status that was applied adds nothing when it is applied again. -/
def RepeatsNothing (o : Observed cfg) : Call cfg → Prop
  | .notifyAstarDappStaking q true => ∀ status l, q ∈ o.applied →
      o.state.appliesTo q = some (status, l) → o.state.delta status l = 0
  | _ => True

/-! What a step keeps. -/

variable {o o' : Observed cfg} {q : ℕ} {delegator : Delegator AccountId} {origin : Origin AccountId}

theorem Observed.step_ok {call : Origin AccountId × Call cfg} (h : o.step call = .ok o') :
    ∃ s', SlpV2.step o.state call = .ok s' ∧ o' = o.next call.2 s' := by
  simp only [Observed.step, bind_eq_ok, pure_eq_ok] at h
  obtain ⟨s', hs', rfl⟩ := h
  exact ⟨s', hs', rfl⟩

omit [DecidableEq AccountId] in
theorem State.appliesTo_eq_some {status : PendingStatus AccountId} {l : AstarDappStakingLedger} :
    s.appliesTo q = some (status, l) ↔
      s.pendingStatus q = some status ∧ s.astarLedger status.delegator = some l := by
  simp only [State.appliesTo, Option.bind_eq_bind, Option.bind_eq_some_iff, Option.pure_def,
    Option.some.injEq, Prod.mk.injEq]
  constructor
  · rintro ⟨status', hstatus, l', hl, rfl, rfl⟩
    exact ⟨hstatus, hl⟩
  · rintro ⟨hstatus, hl⟩
    exact ⟨status, hstatus, l, hl, rfl, rfl⟩

omit [DecidableEq AccountId] in
theorem astarLedger_of_eq (h : s'.ledgers = s.ledgers) : s'.astarLedger = s.astarLedger := by
  funext delegator
  unfold State.astarLedger
  rw [h]

theorem astarLedger_setLedger_self (l : Option Ledger) :
    (s.setLedger .astarDappStaking delegator l).astarLedger delegator =
      match l with
      | some (.astarDappStaking l) => some l
      | _ => none := by
  simp only [State.astarLedger, State.setLedger, Function.update_self]

theorem astarLedger_setLedger_other {x : Delegator AccountId} (hx : x ≠ delegator)
    (l : Option Ledger) :
    (s.setLedger .astarDappStaking delegator l).astarLedger x = s.astarLedger x := by
  simp only [State.astarLedger, State.setLedger, Function.update_self, Function.update_of_ne hx]

theorem astarLedger_setLedger_protocol {protocol : StakingProtocol}
    (hp : protocol ≠ .astarDappStaking) (l : Option Ledger) :
    (s.setLedger protocol delegator l).astarLedger = s.astarLedger := by
  funext x
  simp only [State.astarLedger, State.setLedger, Function.update_of_ne hp.symm]

theorem step_success (h : SlpV2.step o.state (origin, .notifyAstarDappStaking q true) = .ok s') :
    s'.pendingStatus = o.state.pendingStatus ∧ s'.xcm = o.state.xcm ∧
      ((o.state.appliesTo q = none ∧ s' = o.state) ∨
        ∃ status l l', o.state.appliesTo q = some (status, l) ∧
          (l'.total : ℤ) = l.total + o.state.delta status l ∧
          s' = o.state.setLedger .astarDappStaking status.delegator
            (some (.astarDappStaking l'))) := by
  cases SlpV2.step_ok h with
  | apart _ _ _ hcall hapart => exact hcall.elim
  | assigned _ _ protocol delegator l _ hcall hapart => cases hcall
  | passed _ _ status hq hnone =>
    refine ⟨rfl, rfl, .inl ⟨?_, rfl⟩⟩
    cases happlies : o.state.appliesTo q with
    | none => rfl
    | some e =>
      obtain ⟨hstatus, hl⟩ := State.appliesTo_eq_some.mp happlies
      rw [hq] at hstatus
      cases hstatus
      exact absurd (o.state.astarLedger_eq_some.mp hl) (hnone e.2)
  | applied _ _ status l l' hq hget hl =>
    exact ⟨rfl, rfl, .inr ⟨status, l, l',
      State.appliesTo_eq_some.mpr ⟨hq, o.state.astarLedger_eq_some.mpr hget⟩,
      o.state.applyStatus_total hl, rfl⟩⟩

/-- Queries wait under ids that are issued and not handled, and are handled once. -/
def Numbered (ids : QueryIds cfg) (o : Observed cfg) : Prop :=
  Outstanding (ids.issued o.state.xcm) o.state.pendingStatus o.handled

theorem numbered_step {ids : QueryIds cfg} {call : Call cfg}
    (hs : Numbered ids o) (hcall : NoSuccess call)
    (h : SlpV2.step o.state (origin, call) = .ok s') : Numbered ids (o.next call s') := by
  have same (hhandles : Observed.handles call = []) (hpending : s'.pendingStatus =
      o.state.pendingStatus) (hxcm : s'.xcm = o.state.xcm) : Numbered ids (o.next call s') := by
    simp only [Numbered, Observed.next, hhandles, List.append_nil, hpending, hxcm]
    exact hs
  cases SlpV2.step_ok h with
  | apart _ _ _ hquiet hapart =>
    refine same ?_ hapart.pending hapart.xcm
    cases call <;> first | rfl | exact hquiet.elim
  | assigned _ _ protocol delegator l _ hassigns hapart =>
    refine same ?_ hapart.pending hapart.xcm
    cases hassigns <;> rfl
  | proxied _ c destination given _ hapart => exact same rfl hapart.pending hapart.xcm
  | updated _ protocol currencyId delegator poolValue delegatorValue c _ hc hupdates =>
    exact same rfl hupdates.pending hupdates.xcm
  | sent _ delegator task _ hapart => exact same rfl hapart.pending hapart.xcm
  | queried _ delegator task status timeout q x _ hq hapart =>
    have hfresh := ids.fresh o.state.xcm .astarDappStaking timeout
    have hissued := ids.issued_iff o.state.xcm .astarDappStaking timeout
    rw [hq] at hfresh hissued
    simp only [Numbered, Observed.next, Observed.handles, List.append_nil, hapart.pending,
      hapart.xcm]
    exact hs.add hfresh ((hissued q).mpr (.inr rfl)) (fun p hp => (hissued p).mpr (.inl hp)) _
  | failed _ q status hq =>
    have hwaits : o.state.pendingStatus q ≠ none := by
      rw [hq]
      exact Option.some_ne_none status
    exact hs.answer hwaits
  | passed _ q status hq hnone => exact hcall.elim
  | applied _ q status l l' hq hget hl => exact hcall.elim
  | otherQuery _ protocol timeout =>
    have hissued := ids.issued_iff o.state.xcm protocol timeout
    simp only [Numbered, Observed.next, Observed.handles, List.append_nil]
    exact hs.issue fun p hp => (hissued p).mpr (.inl hp)

theorem balanced_of_assigned {call : Call cfg} {protocol : StakingProtocol} {l : Option Ledger}
    (hp : Balanced o) (hcall : Assigns o.state call protocol delegator l)
    (hledgers : s'.ledgers = (o.state.setLedger protocol delegator l).ledgers) :
    Balanced (o.next call s') := by
  have hget := astarLedger_of_eq hledgers
  intro x l₁ hl₁
  have other (hne : protocol ≠ .astarDappStaking ∨ x ≠ delegator) :
      (l₁.total : ℤ) = o.expected x := by
    apply hp
    rw [← hl₁]
    simp only [Observed.next, hget]
    rcases hne with hprotocol | hx
    · rw [astarLedger_setLedger_protocol hprotocol]
    · by_cases hprotocol : protocol = .astarDappStaking
      · rw [hprotocol, astarLedger_setLedger_other hx]
      · rw [astarLedger_setLedger_protocol hprotocol]
  simp only [Observed.next, hget] at hl₁ ⊢
  cases hcall with
  | added _ given _ _ hgiven hdefault =>
    by_cases hprotocol : protocol = .astarDappStaking
    · subst protocol
      simp only [Observed.expects, hgiven]
      by_cases hx : x = delegator
      · subst x
        cases hdefault
        rw [astarLedger_setLedger_self] at hl₁
        cases hl₁
        rw [Function.update_self]
        rfl
      · rw [Function.update_of_ne hx]
        exact other (.inr hx)
    · cases protocol <;> first | exact absurd rfl hprotocol | exact other (.inl hprotocol)
  | removed _ _ =>
    by_cases hprotocol : protocol = .astarDappStaking
    · subst protocol
      by_cases hx : x = delegator
      · subst x
        rw [astarLedger_setLedger_self] at hl₁
        cases hl₁
      · exact other (.inr hx)
    · exact other (.inl hprotocol)
  | set _ _ given =>
    by_cases hprotocol : protocol = .astarDappStaking
    · subst protocol
      by_cases hx : x = delegator
      · subst x
        rw [astarLedger_setLedger_self] at hl₁
        cases given with
        | astarDappStaking l =>
          cases hl₁
          simp only [Observed.expects, Function.update_self]
        | ethereumStaking l => cases hl₁
      · cases given with
        | astarDappStaking l =>
          simp only [Observed.expects]
          rw [Function.update_of_ne hx]
          exact other (.inr hx)
        | ethereumStaking l => exact other (.inr hx)
    · cases protocol <;> first | exact absurd rfl hprotocol | exact other (.inl hprotocol)
  | ethereum _ task _ => exact other (.inl nofun)

theorem balanced_of_updated {protocol : StakingProtocol} {currencyId : Option CurrencyId}
    {poolValue delegatorValue : ℕ} {c : CurrencyId} (hp : Balanced o)
    (h : UpdatesRate o.state protocol delegator poolValue delegatorValue c s') :
    Balanced (o.next (.updateTokenExchangeRate protocol currencyId delegator poolValue
      delegatorValue) s') := by
  intro x l₁ hl₁
  rcases h.ledgers with ⟨hproxy, hsame⟩ | ⟨l, l', hget, hl, hset⟩
  · have hbefore : (l₁.total : ℤ) = o.expected x := by
      apply hp
      rw [← hl₁]
      simp only [Observed.next, astarLedger_of_eq hsame]
    cases protocol <;> first | exact hbefore | cases hproxy
  · by_cases hprotocol : protocol = .astarDappStaking
    · subst protocol
      simp only [Observed.next, Observed.expects, astarLedger_of_eq hset] at hl₁ ⊢
      by_cases hx : x = delegator
      · subst x
        rw [astarLedger_setLedger_self] at hl₁
        rw [Function.update_self]
        cases l with
        | astarDappStaking l =>
          simp only [Ledger.addLockAmount, addLockAmount, bind_eq_ok, okOr_eq_ok,
            U128.checkedAdd_eq_some, pure_eq_ok] at hl
          obtain ⟨locked, ⟨rfl, -⟩, rfl⟩ := hl
          cases hl₁
          rw [← hp delegator l (o.state.astarLedger_eq_some.mpr hget)]
          simp only [AstarDappStakingLedger.total]
          omega
        | ethereumStaking l =>
          simp only [Ledger.addLockAmount, bind_eq_ok, pure_eq_ok] at hl
          obtain ⟨locked, -, rfl⟩ := hl
          cases hl₁
      · rw [astarLedger_setLedger_other hx] at hl₁
        rw [Function.update_of_ne hx]
        exact hp x l₁ hl₁
    · have hbefore : (l₁.total : ℤ) = o.expected x := by
        apply hp
        rw [← hl₁]
        simp only [Observed.next, astarLedger_of_eq hset, astarLedger_setLedger_protocol hprotocol]
      cases protocol <;> first | exact absurd rfl hprotocol | exact hbefore

theorem balanced_of_success_iff (hp : Balanced o)
    (h : SlpV2.step o.state (origin, .notifyAstarDappStaking q true) = .ok s') :
    Balanced (o.next (.notifyAstarDappStaking q true) s') ↔
      RepeatsNothing o (.notifyAstarDappStaking q true) := by
  obtain ⟨-, -, ⟨hnone, rfl⟩ | ⟨status, l, l', happlies, htotal, rfl⟩⟩ := step_success h
  · refine iff_of_true ?_ ?_
    · intro x l₁ hl₁
      simp only [Observed.next, Observed.expects, hnone]
      exact hp x l₁ hl₁
    · intro status l _ happlies
      rw [hnone] at happlies
      cases happlies
  · have hbefore := hp _ _ (State.appliesTo_eq_some.mp happlies).2
    have hself : (o.state.setLedger .astarDappStaking status.delegator
        (some (.astarDappStaking l'))).astarLedger status.delegator = some l' :=
      astarLedger_setLedger_self _
    simp only [RepeatsNothing, happlies, Option.some.injEq, Prod.mk.injEq]
    constructor
    · rintro hbalanced _ _ happlied ⟨rfl, rfl⟩
      have hafter := hbalanced _ _ hself
      simp only [Observed.next, Observed.expects, happlies, if_pos happlied] at hafter
      omega
    · intro hnothing x l₁ hl₁
      simp only [Observed.next, Observed.expects, happlies] at hl₁ ⊢
      by_cases hx : x = status.delegator
      · subst x
        rw [hself] at hl₁
        cases hl₁
        split
        · rename_i happlied
          have hzero := hnothing status l happlied ⟨rfl, rfl⟩
          omega
        · rw [Function.update_self]
          omega
      · rw [astarLedger_setLedger_other hx] at hl₁
        split
        · exact hp x l₁ hl₁
        · rw [Function.update_of_ne hx]
          exact hp x l₁ hl₁

theorem balanced_step_iff {call : Call cfg} (hp : Balanced o)
    (h : SlpV2.step o.state (origin, call) = .ok s') :
    Balanced (o.next call s') ↔ RepeatsNothing o call := by
  have same (hledgers : s'.ledgers = o.state.ledgers) (hexpects : o.expects call = o.expected) :
      Balanced (o.next call s') := by
    intro x l hl
    simp only [Observed.next, hexpects, astarLedger_of_eq hledgers] at hl ⊢
    exact hp x l hl
  cases SlpV2.step_ok h with
  | apart _ _ _ hquiet hapart =>
    refine iff_of_true (same hapart.ledgers ?_) ?_
    · cases call <;> first | rfl | exact hquiet.elim
    · cases call <;> first | exact hquiet.elim | trivial
  | assigned _ _ protocol delegator l _ hassigns hapart =>
    refine iff_of_true (balanced_of_assigned hp hassigns hapart.ledgers) ?_
    cases hassigns <;> trivial
  | proxied _ c destination given _ hapart =>
    exact iff_of_true (same hapart.ledgers rfl) trivial
  | updated _ protocol currencyId delegator poolValue delegatorValue c _ hc hupdates =>
    exact iff_of_true (balanced_of_updated hp hupdates) trivial
  | sent _ delegator task _ hapart => exact iff_of_true (same hapart.ledgers rfl) trivial
  | queried _ delegator task status timeout q x _ hq hapart =>
    exact iff_of_true (same hapart.ledgers rfl) trivial
  | failed _ q status hq => exact iff_of_true (same rfl rfl) trivial
  | passed _ q status hq hnone => exact balanced_of_success_iff hp h
  | applied _ q status l l' hq hget hl => exact balanced_of_success_iff hp h
  | otherQuery _ protocol timeout => exact iff_of_true (same rfl rfl) trivial

namespace Sample

end Sample

end Bifrost.SlpV2
