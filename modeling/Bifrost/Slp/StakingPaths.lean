import Bifrost.Slp.OneToManyLedgers

/-!
# Staking at once and by message

An operation for BNC changes the ledger at once; for the other chains its entry is applied when the
response is confirmed. The checks before are the same, and so is what is done to the ledger. What
differs is the time unit: leaving for BNC takes the delay of an unbonding, and what is due is
executed for BNC with that delay added to the present unit, where an entry has the present unit.
-/

namespace Bifrost.Slp

open Result
set_option autoImplicit false

variable {AccountId : Type} [DecidableEq AccountId] {cfg : Config AccountId} {s s' : State cfg}
  {c : CurrencyId} {who : MultiLocation AccountId}

inductive StakingOperation (AccountId : Type) where
  | bond (amount : ℕ) (validator : Option (MultiLocation AccountId))
  | bondExtra (amount : ℕ) (validator : Option (MultiLocation AccountId))
  | unbond (amount : ℕ) (validator : Option (MultiLocation AccountId))
  | unbondAll
  | rebond (validator : Option (MultiLocation AccountId))
  | undelegate (targets : List (MultiLocation AccountId))
  | redelegate
  | liquidize (validator : Option (MultiLocation AccountId))

namespace StakingOperation

def validator : StakingOperation AccountId → Option (MultiLocation AccountId)
  | .bond _ validator | .bondExtra _ validator | .unbond _ validator | .rebond validator
  | .liquidize validator => validator
  | .undelegate targets => targets.head?
  | .unbondAll | .redelegate => none

/-- The operation an entry is sent with; none is sent for leaving and for its end. -/
def updateOperation (ledger : OneToManyLedger AccountId) :
    StakingOperation AccountId → ParachainStakingLedgerUpdateOperation
  | .bond .. | .bondExtra .. => .bond
  | .unbond .. => .bondLess
  | .unbondAll => .leaveDelegator
  | .rebond _ => .cancelRequest
  | .undelegate _ => .revoke
  | .redelegate => .cancelLeave
  | .liquidize _ => if ledger.status = .active then .executeRequest else .executeLeave

def amount (ledger : OneToManyLedger AccountId) : StakingOperation AccountId → ℕ
  | .bond amount _ | .bondExtra amount _ | .unbond amount _ => amount
  | .unbondAll | .rebond _ | .undelegate _ | .redelegate => 0
  | .liquidize validator =>
    if ledger.status = .active then
      ((validator.bind ledger.requestBriefs.get).map Prod.snd).getD 0
    else 0

end StakingOperation

/-- What an operation reads of a currency. -/
structure StakingTerms (AccountId : Type) where
  now : Option TimeUnit
  delays : Option Delays
  minsMaxs : Option MinimumsMaximums
  validators : Option (List (MultiLocation AccountId))

def State.stakingTerms (s : State cfg) (c : CurrencyId) : StakingTerms AccountId where
  now := s.getOngoingTimeUnit c
  delays := s.settings.currencyDelays c
  minsMaxs := s.settings.minimumsAndMaximums c
  validators := s.settings.validators c

namespace StakingTerms

variable (terms : StakingTerms AccountId)

/-- `get_unlocking_time_unit_from_current` for a chain that counts in rounds. -/
def unlockingTime (ifLeave : Bool) : Except Fault TimeUnit := do
  let current ← okOr terms.now (.pallet .timeUnitNotExist)
  let delays ← okOr terms.delays (.pallet .delaysNotExist)
  let delay := if ifLeave then delays.leaveDelegatorsDelay else delays.unlockDelay
  match current, delay with
  | .round current, .round delay => do
    let unlock ← okOr (U32.checkedAdd current delay) (.pallet .overFlow)
    pure (.round unlock)
  | _, _ => .error (.pallet .invalidTimeUnit)

def minimumsAndMaximums : Except Fault MinimumsMaximums := okOr terms.minsMaxs (.pallet .notExist)

end StakingTerms

namespace ParachainStakingAgent

open OneToManyLedger

variable (terms : StakingTerms AccountId)

/-! The checks before the branch. -/

/-- The ledger of a delegator that bonds to a new validator. -/
def opened (minsMaxs : MinimumsMaximums) (who collator : MultiLocation AccountId) (amount : ℕ) :
    Option (OneToManyLedger AccountId) → Except Fault (OneToManyLedger AccountId)
  | some ledger => do
    ensure (ledger.status = .active) (.pallet .delegatorLeaving)
    checkBond minsMaxs ledger amount
    ensure ((ledger.delegations.get collator).isNone) (.pallet .alreadyBonded)
    ensure (ledger.delegations.entries.length + 1 ≤ minsMaxs.validatorsBackMaximum)
      (.pallet .greaterThanMaximum)
    pure ledger
  | none => do
    ensure (minsMaxs.delegatorBondedMinimum ≤ amount) (.pallet .lowerThanMinimum)
    ensure (amount ≤ minsMaxs.delegatorActiveStakingMaximum) (.pallet .exceedActiveMaximum)
    pure (.empty who)

/-- The ledger that the branches start from. -/
def checked (who : MultiLocation AccountId) (ledger : Option (OneToManyLedger AccountId)) :
    StakingOperation AccountId → Except Fault (OneToManyLedger AccountId)
  | .bond amount validator => do
    let collator ← okOr validator (.pallet .validatorNotProvided)
    let minsMaxs ← terms.minimumsAndMaximums
    ensure (minsMaxs.delegationAmountMinimum ≤ amount) (.pallet .lowerThanMinimum)
    let validatorList ← okOr terms.validators (.pallet .validatorSetNotExist)
    ensure (collator ∈ validatorList) (.pallet .validatorNotExist)
    opened minsMaxs who collator amount ledger
  | .bondExtra amount validator => do
    let minsMaxs ← terms.minimumsAndMaximums
    ensure (minsMaxs.bondExtraMinimum ≤ amount) (.pallet .lowerThanMinimum)
    let collator ← okOr validator (.pallet .validatorNotProvided)
    let validators ← okOr terms.validators (.pallet .validatorSetNotExist)
    ensure (collator ∈ validators) (.pallet .validatorError)
    let ledger ← okOr ledger (.pallet .delegatorNotExist)
    ensure (ledger.status = .active) (.pallet .delegatorLeaving)
    ensure ((ledger.delegations.get collator).isSome) (.pallet .validatorNotBonded)
    checkBond minsMaxs ledger amount
    pure ledger
  | .unbond amount validator => do
    let minsMaxs ← terms.minimumsAndMaximums
    ensure (minsMaxs.unbondMinimum ≤ amount) (.pallet .lowerThanMinimum)
    let collator ← okOr validator (.pallet .validatorNotProvided)
    let ledger ← okOr ledger (.pallet .delegatorNotExist)
    ensure (ledger.status = .active) (.pallet .delegatorLeaving)
    let oldDelegateAmount ← okOr (ledger.delegations.get collator) (.pallet .validatorNotBonded)
    ensure ((ledger.requestBriefs.get collator).isNone) (.pallet .alreadyRequested)
    let delegatedAmountAfter ← okOr (U128.checkedSub oldDelegateAmount amount) (.pallet .underFlow)
    ensure (minsMaxs.delegationAmountMinimum ≤ delegatedAmountAfter) (.pallet .lowerThanMinimum)
    let activeAmount ← okOr (U128.checkedSub ledger.total ledger.lessTotal) (.pallet .underFlow)
    let subtractedTotal ← okOr (U128.checkedSub activeAmount amount) (.pallet .underFlow)
    ensure (minsMaxs.delegatorBondedMinimum ≤ subtractedTotal) (.pallet .lowerThanMinimum)
    pure ledger
  | .unbondAll => do
    let ledger ← okOr ledger (.pallet .delegatorNotExist)
    ensure (ledger.status = .active) (.pallet .alreadyLeaving)
    pure ledger
  | .rebond validator => do
    let minsMaxs ← terms.minimumsAndMaximums
    let collator ← okOr validator (.pallet .validatorNotProvided)
    let ledger ← okOr ledger (.pallet .delegatorNotExist)
    ensure (ledger.status = .active) (.pallet .delegatorLeaving)
    let (_, rebondAmount) ← okOr (ledger.requestBriefs.get collator) (.pallet .requestNotExist)
    let active ← okOr (U128.checkedSub ledger.total ledger.lessTotal) (.pallet .underFlow)
    let rebondAfterAmount ← okOr (U128.checkedAdd active rebondAmount) (.pallet .overFlow)
    ensure (minsMaxs.delegatorBondedMinimum ≤ rebondAfterAmount) (.pallet .lowerThanMinimum)
    pure ledger
  | .undelegate targets => do
    let validator ← okOr targets.head? (.pallet .validatorNotProvided)
    let ledger ← okOr ledger (.pallet .delegatorNotExist)
    ensure (ledger.status = .active) (.pallet .delegatorLeaving)
    ensure ((ledger.delegations.get validator).isSome) (.pallet .validatorNotBonded)
    ensure ((ledger.requestBriefs.get validator).isNone) (.pallet .alreadyRequested)
    pure ledger
  | .redelegate => do
    let ledger ← okOr ledger (.pallet .delegatorNotExist)
    ensure (ledger.status ≠ .active) (.pallet .delegatorNotLeaving)
    pure ledger
  | .liquidize validator => do
    let collator ← okOr validator (.pallet .validatorNotProvided)
    let now ← okOr terms.now (.pallet .timeUnitNotExist)
    let ledger ← okOr ledger (.pallet .delegatorNotExist)
    let _ ← dueRequest now ledger collator
    pure ledger

/-! The two branches. -/

/-- What the branch for BNC does to the ledger. -/
def changeAtOnce (ledger : OneToManyLedger AccountId) :
    StakingOperation AccountId → Except Fault (OneToManyLedger AccountId)
  | .bond amount validator | .bondExtra amount validator => do
    let collator ← okOr validator (.pallet .unexpected)
    ledger.bond collator amount
  | .unbond amount validator => do
    let collator ← okOr validator (.pallet .unexpected)
    ledger.bondLess collator amount (terms.unlockingTime false)
  | .unbondAll => ledger.leave (terms.unlockingTime false)
  | .rebond validator => do
    let collator ← okOr validator (.pallet .unexpected)
    ledger.cancelRequest collator
  | .undelegate targets => do
    let validator ← okOr targets.head? (.pallet .validatorNotProvided)
    ledger.revoke validator (terms.unlockingTime false)
  | .redelegate => ledger.cancelLeave
  | .liquidize validator => do
    let collator ← okOr validator (.pallet .unexpected)
    let _ ← terms.minimumsAndMaximums
    if ledger.status = .active then
      ledger.executeRequest collator (terms.unlockingTime false)
    else ledger.executeLeave (terms.unlockingTime false)

/-- The time unit of `insert_delegator_ledger_update_entry`. -/
def entryTime : ParachainStakingLedgerUpdateOperation → Except Fault (Option TimeUnit)
  | .bondLess | .revoke => some <$> terms.unlockingTime false
  | .leaveDelegator => some <$> terms.unlockingTime true
  | .executeRequest | .executeLeave => pure terms.now
  | _ => pure none

def ledgerEntry (c : CurrencyId) (who : MultiLocation AccountId)
    (ledger : OneToManyLedger AccountId) (operation : StakingOperation AccountId) :
    Except Fault (ParachainStakingLedgerUpdateEntry AccountId) := do
  let unlockTime ← entryTime terms (operation.updateOperation ledger)
  pure ⟨c, who, operation.validator, operation.updateOperation ledger, operation.amount ledger,
    unlockTime⟩

/-- The operation for BNC. -/
def atOnce (who : MultiLocation AccountId) (ledger : Option (OneToManyLedger AccountId))
    (operation : StakingOperation AccountId) : Except Fault (OneToManyLedger AccountId) := do
  let ledger ← checked terms who ledger operation
  changeAtOnce terms ledger operation

/-- The operation for another chain, whose entry is confirmed. -/
def confirmed (c : CurrencyId) (who : MultiLocation AccountId)
    (ledger : Option (OneToManyLedger AccountId)) (operation : StakingOperation AccountId) :
    Except Fault (OneToManyLedger AccountId) := do
  let ledger ← checked terms who ledger operation
  let entry ← ledgerEntry terms c who ledger operation
  ledger.update entry

/-! When the two do the same. -/

/-- The unit that is a delay after the present round. -/
def UnitAfter (now : Option TimeUnit) (delay time : TimeUnit) : Prop :=
  ∃ current n, now = some (.round current) ∧ delay = .round n ∧ current + n ≤ u32Max ∧
    time = .round (current + n)

/-- The delay can be added to the present round. -/
def Reaches (now : Option TimeUnit) (delay : TimeUnit) : Prop := ∃ time, UnitAfter now delay time

theorem UnitAfter.delay_eq {now : Option TimeUnit} {delay delay' time : TimeUnit}
    (h : UnitAfter now delay time) (h' : UnitAfter now delay' time) : delay = delay' := by
  obtain ⟨current, n, hnow, rfl, -, rfl⟩ := h
  obtain ⟨current', n', hnow', rfl, -, hsame⟩ := h'
  rw [hnow, Option.some.injEq, TimeUnit.round.injEq] at hnow'
  rw [TimeUnit.round.injEq] at hsame
  rw [TimeUnit.round.injEq]
  omega

/-- The request for the validator is due and covered. -/
def Executable (ledger : OneToManyLedger AccountId) (collator : MultiLocation AccountId)
    (current : ℕ) : Prop :=
  ∃ due amount delegated, ledger.requestBriefs.get collator = some (.round due, amount) ∧
    due ≤ current ∧ amount ≤ ledger.total ∧ amount ≤ ledger.lessTotal ∧
    (∃ r ∈ ledger.requests, r.validator = collator) ∧
    ledger.delegations.get collator = some delegated ∧ amount ≤ delegated

/-- The delegator may leave, or a request for the validator is due. -/
def Due (ledger : OneToManyLedger AccountId) (collator : MultiLocation AccountId)
    (current : ℕ) : Prop :=
  match ledger.status with
  | .leaving time => ∃ due, time = .round due ∧ due ≤ current
  | .active => Executable ledger collator current

/-- Leaving takes as long as an unbonding, and what is due can be executed for BNC. -/
def Meet (ledger : Option (OneToManyLedger AccountId)) : StakingOperation AccountId → Prop
  | .unbondAll => ∀ l delays, ledger = some l → l.status = .active → terms.delays = some delays →
    Reaches terms.now delays.unlockDelay ∨ Reaches terms.now delays.leaveDelegatorsDelay →
    delays.leaveDelegatorsDelay = delays.unlockDelay
  | .liquidize validator => ∀ l collator current, ledger = some l → validator = some collator →
    terms.now = some (.round current) → Due l collator current → terms.minsMaxs.isSome = true ∧
      ∃ delays, terms.delays = some delays ∧ Reaches terms.now delays.unlockDelay
  | _ => True

variable {terms : StakingTerms AccountId} {ledger : Option (OneToManyLedger AccountId)}
  {l l' : OneToManyLedger AccountId} {operation : StakingOperation AccountId}
  {validator : Option (MultiLocation AccountId)} {collator : MultiLocation AccountId}
  {time : Except Fault TimeUnit}

omit [DecidableEq AccountId] in
theorem unlockingTime_eq_ok {ifLeave : Bool} {time : TimeUnit} :
    terms.unlockingTime ifLeave = .ok time ↔ ∃ delays, terms.delays = some delays ∧
      UnitAfter terms.now (if ifLeave then delays.leaveDelegatorsDelay else delays.unlockDelay)
        time := by
  simp only [StakingTerms.unlockingTime, bind_eq_ok, okOr_eq_ok]
  constructor
  · rintro ⟨current, hnow, delays, hdelays, h⟩
    split at h
    · rename_i current n hround
      simp only [bind_eq_ok, okOr_eq_ok, U32.checkedAdd_eq_some, pure_eq_ok] at h
      obtain ⟨_, ⟨rfl, hle⟩, rfl⟩ := h
      exact ⟨delays, hdelays, _, _, hnow, hround, hle, rfl⟩
    · cases h
  · rintro ⟨delays, hdelays, current, n, hnow, hround, hle, rfl⟩
    refine ⟨_, hnow, delays, hdelays, ?_⟩
    simp only [hround, bind_eq_ok, okOr_eq_ok, U32.checkedAdd_eq_some, pure_eq_ok]
    exact ⟨_, ⟨rfl, hle⟩, rfl⟩

/-- The ledger after its due request for the validator. -/
def executed (ledger : OneToManyLedger AccountId) (collator : MultiLocation AccountId) :
    OneToManyLedger AccountId :=
  let amount := ((ledger.requestBriefs.get collator).map Prod.snd).getD 0
  let delegated := (ledger.delegations.get collator).getD 0
  { ledger with
    total := ledger.total - amount
    lessTotal := ledger.lessTotal - amount
    requests := ledger.requests.eraseP (·.validator = collator)
    requestBriefs := ledger.requestBriefs.write collator none
    delegations := ledger.delegations.write collator
      (if delegated - amount = 0 then none else some (delegated - amount)) }

theorem round_eq_ok {time : TimeUnit} {n : ℕ} :
    OneToManyLedger.round time = .ok n ↔ time = .round n := by
  cases time <;> simp [OneToManyLedger.round, pure_eq_ok]

theorem executeRequest_ok_iff
    (hactive : l.status = .active) : l.executeRequest collator time = .ok l' ↔
      ∃ current, time = .ok (.round current) ∧ Executable l collator current ∧
        l' = executed l collator := by
  simp only [executeRequest, removeRequest, bind_eq_ok, ensure_eq_ok, okOr_eq_ok, exists_const,
    round_eq_ok, U128.checkedSub_eq_some, pure_eq_ok, hactive, true_and]
  constructor
  · rintro ⟨_, htime, current, rfl, ⟨_, amount⟩, hbrief, due, rfl, hdue, _, ⟨htotal, rfl⟩, _,
      ⟨hless, rfl⟩, _, ⟨hrequest, rfl⟩, delegated, hdelegated, _, ⟨hcovered, rfl⟩, rfl⟩
    refine ⟨current, htime, ⟨due, amount, delegated, hbrief, hdue, htotal, hless, hrequest,
      hdelegated, hcovered⟩, ?_⟩
    simp only [executed, hbrief, hdelegated, hactive, Option.map_some, Option.getD_some]
  · rintro ⟨current, htime, ⟨due, amount, delegated, hbrief, hdue, htotal, hless, hrequest,
      hdelegated, hcovered⟩, rfl⟩
    refine ⟨_, htime, current, rfl, _, hbrief, due, rfl, hdue, _, ⟨htotal, rfl⟩, _, ⟨hless, rfl⟩,
      _, ⟨hrequest, rfl⟩, delegated, hdelegated, _, ⟨hcovered, rfl⟩, ?_⟩
    simp only [executed, hbrief, hdelegated, hactive, Option.map_some, Option.getD_some]

omit [DecidableEq AccountId] in
theorem executeLeave_ok_iff : l.executeLeave time = .ok l' ↔
    ∃ due current, l.status = .leaving (.round due) ∧ time = .ok (.round current) ∧
      due ≤ current ∧ l' = empty l.account := by
  unfold executeLeave
  cases hstatus : l.status with
  | active => simp
  | leaving leaving =>
    cases leaving with
    | round due =>
      simp only [bind_eq_ok]
      constructor
      · rintro ⟨current, htime, h⟩
        cases current with
        | round current =>
          simp only [bind_eq_ok, ensure_eq_ok, exists_const, pure_eq_ok] at h
          exact ⟨due, current, rfl, htime, h.1, h.2.symm⟩
        | era | slashingSpan | kblock | hour => cases h
      · rintro ⟨_, current, heq, htime, hdue, rfl⟩
        cases heq
        refine ⟨_, htime, ?_⟩
        simp only [bind_eq_ok, ensure_eq_ok, exists_const, pure_eq_ok, and_true]
        exact hdue
    | era | slashingSpan | kblock | hour => simp

theorem cmp_round {m n : ℕ} : (TimeUnit.round m).cmp (.round n) ≠ .lt ↔ n ≤ m := by
  rw [TimeUnit.cmp, ne_eq, Nat.compare_eq_lt, Nat.not_lt]

/-- What is left of a ledger whose due part is settled. -/
def settled (ledger : OneToManyLedger AccountId) (collator : MultiLocation AccountId) :
    OneToManyLedger AccountId :=
  if ledger.status = .active then executed ledger collator else empty ledger.account

theorem dueRequest_ok {current : ℕ}
    (h : Due l collator current) : ∃ due, dueRequest (.round current) l collator = .ok due := by
  unfold Due at h
  unfold dueRequest
  cases hstatus : l.status with
  | leaving time =>
    simp only [hstatus] at h
    obtain ⟨due, rfl, hdue⟩ := h
    refine ⟨(true, 0), ?_⟩
    simp only [bind_eq_ok, ensure_eq_ok, exists_const, pure_eq_ok, and_true]
    exact cmp_round.mpr hdue
  | active =>
    simp only [hstatus] at h
    obtain ⟨due, amount, delegated, hbrief, hdue, -, -, -, hdelegated, -⟩ := h
    refine ⟨(false, amount), ?_⟩
    simp only [bind_eq_ok, ensure_eq_ok, okOr_eq_ok, exists_const, pure_eq_ok, hdelegated,
      Option.isSome_some, true_and]
    exact ⟨_, hbrief, cmp_round.mpr hdue, rfl⟩

/-- What the second half of `liquidize` does with a time unit. -/
def settle (l : OneToManyLedger AccountId) (collator : MultiLocation AccountId)
    (time : Except Fault TimeUnit) : Except Fault (OneToManyLedger AccountId) :=
  if l.status = .active then l.executeRequest collator time else l.executeLeave time

theorem settle_ok_iff :
    settle l collator time = .ok l' ↔ ∃ current, time = .ok (.round current) ∧
      Due l collator current ∧ l' = settled l collator := by
  unfold settle Due settled
  cases hstatus : l.status with
  | active =>
    simp only [if_true]
    exact executeRequest_ok_iff hstatus
  | leaving leaving =>
    simp only [reduceCtorEq, if_false, executeLeave_ok_iff, hstatus,
      OneToManyDelegatorStatus.leaving.injEq]
    constructor
    · rintro ⟨due, current, rfl, htime, hdue, rfl⟩
      exact ⟨current, htime, ⟨due, rfl, hdue⟩, rfl⟩
    · rintro ⟨current, htime, ⟨due, rfl, hdue⟩, rfl⟩
      exact ⟨due, current, rfl, htime, hdue, rfl⟩

theorem Due.mono {current later : ℕ}
    (h : Due l collator current) (hle : current ≤ later) : Due l collator later := by
  unfold Due at h ⊢
  cases hstatus : l.status with
  | leaving time =>
    simp only [hstatus] at h ⊢
    obtain ⟨due, rfl, hdue⟩ := h
    exact ⟨due, rfl, hdue.trans hle⟩
  | active =>
    simp only [hstatus] at h ⊢
    obtain ⟨due, amount, delegated, hbrief, hdue, hcovered⟩ := h
    exact ⟨due, amount, delegated, hbrief, hdue.trans hle, hcovered⟩

theorem due_of_dueRequest {current later : ℕ}
    {due : Bool × ℕ} (hpass : dueRequest (.round current) l collator = .ok due)
    (hlater : Due l collator later) : Due l collator current := by
  unfold Due at hlater ⊢
  unfold dueRequest at hpass
  cases hstatus : l.status with
  | leaving time =>
    simp only [hstatus] at hlater hpass ⊢
    obtain ⟨scheduled, rfl, -⟩ := hlater
    simp only [bind_eq_ok, ensure_eq_ok, exists_const] at hpass
    exact ⟨scheduled, rfl, cmp_round.mp hpass.1⟩
  | active =>
    simp only [hstatus] at hlater hpass ⊢
    obtain ⟨scheduled, amount, delegated, hbrief, -, hcovered⟩ := hlater
    simp only [bind_eq_ok, ensure_eq_ok, okOr_eq_ok, exists_const, hbrief, Option.some.injEq] at hpass
    obtain ⟨-, _, rfl, hround, -⟩ := hpass
    exact ⟨scheduled, amount, delegated, hbrief, cmp_round.mp hround, hcovered⟩

/-! The operations. -/

/-- Both accept the same and leave the same ledger. -/
def SameOutcome (x y : Except Fault (OneToManyLedger AccountId)) : Prop :=
  ∀ l', x = .ok l' ↔ y = .ok l'

theorem atOnce_liquidize_ok_iff :
    atOnce terms who ledger (.liquidize validator) = .ok l' ↔
      ∃ l collator current, ledger = some l ∧ validator = some collator ∧
        terms.now = some (.round current) ∧ Due l collator current ∧ l' = settled l collator ∧
        terms.minsMaxs.isSome = true ∧
        ∃ delays, terms.delays = some delays ∧ Reaches terms.now delays.unlockDelay := by
  have hsettle (l : OneToManyLedger AccountId) (collator : MultiLocation AccountId) :
      (if l.status = .active then l.executeRequest collator (terms.unlockingTime false)
        else l.executeLeave (terms.unlockingTime false)) =
          settle l collator (terms.unlockingTime false) := rfl
  simp only [atOnce, checked, changeAtOnce, bind_eq_ok, okOr_eq_ok, pure_eq_ok, hsettle,
    settle_ok_iff, unlockingTime_eq_ok, StakingTerms.minimumsAndMaximums]
  constructor
  · rintro ⟨_, ⟨collator, rfl, now, hnow, l, rfl, due, hpass, rfl⟩, _, hcollator, minsMaxs, hmins,
      later, ⟨delays, hdelays, current, n, hnow', hn, hle, hlater⟩, hdue, rfl⟩
    cases hcollator
    rw [hnow] at hnow'
    cases hnow'
    refine ⟨l, collator, current, rfl, rfl, hnow, due_of_dueRequest hpass hdue, rfl, ?_, delays,
      hdelays, _, current, n, hnow, hn, hle, hlater⟩
    rw [hmins]
    rfl
  · rintro ⟨l, collator, current, rfl, rfl, hnow, hdue, rfl, hmins, delays, hdelays, _, current', n,
      hnow', hn, hle, rfl⟩
    obtain ⟨due, hpass⟩ := dueRequest_ok hdue
    obtain ⟨minsMaxs, hmins⟩ := Option.isSome_iff_exists.mp hmins
    refine ⟨l, ⟨collator, rfl, _, hnow, l, rfl, due, hpass, rfl⟩, collator, rfl, minsMaxs, hmins,
      current' + n, ⟨delays, hdelays, current', n, hnow', hn, hle, rfl⟩, ?_, rfl⟩
    rw [hnow] at hnow'
    cases hnow'
    exact hdue.mono (Nat.le_add_right _ _)

theorem confirmed_liquidize_ok_iff :
    confirmed terms c who ledger (.liquidize validator) = .ok l' ↔
      ∃ l collator current, ledger = some l ∧ validator = some collator ∧
        terms.now = some (.round current) ∧ Due l collator current ∧ l' = settled l collator := by
  have hentry (l : OneToManyLedger AccountId) (collator : MultiLocation AccountId)
      (now : TimeUnit) (hnow : terms.now = some now) :
      (do
        let entry ← ledgerEntry terms c who l (.liquidize (some collator))
        l.update entry) = settle l collator (.ok now) := by
    unfold ledgerEntry settle
    cases hstatus : l.status with
    | active => simp [StakingOperation.updateOperation, hstatus, entryTime, hnow, update,
        StakingOperation.validator]; rfl
    | leaving time => simp [StakingOperation.updateOperation, hstatus, entryTime, hnow, update]; rfl
  simp only [confirmed, checked, bind_eq_ok, okOr_eq_ok, pure_eq_ok]
  constructor
  · rintro ⟨_, ⟨collator, rfl, now, hnow, l, rfl, due, hpass, rfl⟩, h⟩
    rw [← bind_eq_ok, hentry l collator now hnow, settle_ok_iff] at h
    obtain ⟨current, hround, hdue, rfl⟩ := h
    cases hround
    exact ⟨l, collator, current, rfl, rfl, hnow, hdue, rfl⟩
  · rintro ⟨l, collator, current, rfl, rfl, hnow, hdue, rfl⟩
    obtain ⟨due, hpass⟩ := dueRequest_ok hdue
    refine ⟨l, ⟨collator, rfl, _, hnow, l, rfl, due, hpass, rfl⟩, ?_⟩
    rw [← bind_eq_ok, hentry l collator _ hnow, settle_ok_iff]
    exact ⟨current, rfl, hdue, rfl⟩

theorem liquidize_sameOutcome_iff :
    SameOutcome (atOnce terms who ledger (.liquidize validator))
        (confirmed terms c who ledger (.liquidize validator)) ↔
      Meet terms ledger (.liquidize validator) := by
  unfold SameOutcome Meet
  simp only [atOnce_liquidize_ok_iff, confirmed_liquidize_ok_iff]
  constructor
  · intro hsame l collator current hl hcollator hnow hdue
    obtain ⟨_, _, _, _, _, _, _, _, hterms⟩ :=
      (hsame (settled l collator)).mpr ⟨l, collator, current, hl, hcollator, hnow, hdue, rfl⟩
    exact hterms
  · intro hmeet l'
    constructor
    · rintro ⟨l, collator, current, hl, hcollator, hnow, hdue, hl', -⟩
      exact ⟨l, collator, current, hl, hcollator, hnow, hdue, hl'⟩
    · rintro ⟨l, collator, current, hl, hcollator, hnow, hdue, hl'⟩
      exact ⟨l, collator, current, hl, hcollator, hnow, hdue, hl',
        hmeet l collator current hl hcollator hnow hdue⟩

/-- The ledger of a delegator that leaves. -/
def left (ledger : OneToManyLedger AccountId) (time : TimeUnit) : OneToManyLedger AccountId :=
  { ledger with
    lessTotal := ledger.total
    status := .leaving time
    requests := ledger.delegations.entries.map fun (validator, amount) =>
      ⟨validator, time, .revoke amount⟩
    requestBriefs := ∅ }

omit [DecidableEq AccountId] in
theorem leave_ok_iff : l.leave time = .ok l' ↔
    l.status = .active ∧ ∃ u, time = .ok u ∧ l' = left l u := by
  simp only [leave, bind_eq_ok, ensure_eq_ok, exists_const, pure_eq_ok]
  constructor
  · rintro ⟨hactive, u, htime, rfl⟩
    exact ⟨hactive, u, htime, rfl⟩
  · rintro ⟨hactive, u, htime, rfl⟩
    exact ⟨hactive, u, htime, rfl⟩

theorem unbondAll_sameOutcome_iff :
    SameOutcome (atOnce terms who ledger .unbondAll) (confirmed terms c who ledger .unbondAll) ↔
      Meet terms ledger .unbondAll := by
  have honce (l' : OneToManyLedger AccountId) : atOnce terms who ledger .unbondAll = .ok l' ↔
      ∃ l, ledger = some l ∧ l.status = .active ∧
        ∃ u, terms.unlockingTime false = .ok u ∧ l' = left l u := by
    simp only [atOnce, checked, changeAtOnce, bind_eq_ok, okOr_eq_ok, ensure_eq_ok, exists_const,
      pure_eq_ok, leave_ok_iff]
    constructor
    · rintro ⟨_, ⟨l, hl, hactive, rfl⟩, -, htime⟩
      exact ⟨l, hl, hactive, htime⟩
    · rintro ⟨l, hl, hactive, htime⟩
      exact ⟨l, ⟨l, hl, hactive, rfl⟩, hactive, htime⟩
  have hconfirmed (l' : OneToManyLedger AccountId) :
      confirmed terms c who ledger .unbondAll = .ok l' ↔ ∃ l, ledger = some l ∧
        l.status = .active ∧ ∃ u, terms.unlockingTime true = .ok u ∧ l' = left l u := by
    simp only [confirmed, checked, ledgerEntry, entryTime, StakingOperation.updateOperation,
      map_eq_pure_bind, bind_eq_ok, okOr_eq_ok, ensure_eq_ok, exists_const, pure_eq_ok]
    constructor
    · rintro ⟨_, ⟨l, hl, hactive, rfl⟩, _, ⟨_, ⟨u, hu, rfl⟩, rfl⟩, h⟩
      obtain ⟨-, _, htime, rfl⟩ := leave_ok_iff.mp h
      cases htime
      exact ⟨l, hl, hactive, u, hu, rfl⟩
    · rintro ⟨l, hl, hactive, u, hu, rfl⟩
      exact ⟨l, ⟨l, hl, hactive, rfl⟩, _, ⟨_, ⟨u, hu, rfl⟩, rfl⟩,
        leave_ok_iff.mpr ⟨hactive, u, rfl, rfl⟩⟩
  have hinj {l l₀ : OneToManyLedger AccountId} {u u' : TimeUnit}
      (h : left l u = left l₀ u') :
      u = u' := OneToManyDelegatorStatus.leaving.inj (congrArg OneToManyLedger.status h)
  unfold SameOutcome Meet
  simp only [honce, hconfirmed, unlockingTime_eq_ok, Bool.false_eq_true, if_false, if_true]
  constructor
  · rintro hsame l delays rfl hactive hdelays (⟨time, htime⟩ | ⟨time, htime⟩)
    · obtain ⟨_, -, -, u, ⟨delays', hdelays', hu⟩, hleft⟩ := (hsame (left l time)).mp
        ⟨l, rfl, hactive, time, ⟨delays, hdelays, htime⟩, rfl⟩
      cases hdelays.symm.trans hdelays'
      rw [← hinj hleft] at hu
      exact hu.delay_eq htime
    · obtain ⟨_, -, -, u, ⟨delays', hdelays', hu⟩, hleft⟩ := (hsame (left l time)).mpr
        ⟨l, rfl, hactive, time, ⟨delays, hdelays, htime⟩, rfl⟩
      cases hdelays.symm.trans hdelays'
      rw [← hinj hleft] at hu
      exact htime.delay_eq hu
  · intro hmeet l'
    constructor
    · rintro ⟨l, hl, hactive, u, ⟨delays, hdelays, hu⟩, hl'⟩
      have hsame := hmeet l delays hl hactive hdelays (Or.inl ⟨u, hu⟩)
      exact ⟨l, hl, hactive, u, ⟨delays, hdelays, hsame ▸ hu⟩, hl'⟩
    · rintro ⟨l, hl, hactive, u, ⟨delays, hdelays, hu⟩, hl'⟩
      have hsame := hmeet l delays hl hactive hdelays (Or.inr ⟨u, hu⟩)
      exact ⟨l, hl, hactive, u, ⟨delays, hdelays, hsame ▸ hu⟩, hl'⟩

/-- The two paths do the same with every ledger just where leaving takes as long as an unbonding and
what is due can be executed for BNC. -/
theorem staking_paths_agree_iff (terms : StakingTerms AccountId) (c : CurrencyId)
    (who : MultiLocation AccountId) (ledger : Option (OneToManyLedger AccountId))
    (operation : StakingOperation AccountId) :
    SameOutcome (atOnce terms who ledger operation) (confirmed terms c who ledger operation) ↔
      Meet terms ledger operation := by
  have hsame (h : ∀ l, checked terms who ledger operation = .ok l →
      SameOutcome (changeAtOnce terms l operation) (do
        let entry ← ledgerEntry terms c who l operation
        l.update entry)) :
      SameOutcome (atOnce terms who ledger operation) (confirmed terms c who ledger operation) := by
    intro l'
    simp only [atOnce, confirmed, bind_eq_ok]
    simp only [SameOutcome, bind_eq_ok] at h
    constructor
    · rintro ⟨l, hl, hl'⟩
      exact ⟨l, hl, (h l hl l').mp hl'⟩
    · rintro ⟨l, hl, hl'⟩
      exact ⟨l, hl, (h l hl l').mpr hl'⟩
  cases operation with
  | bond amount validator =>
    refine iff_of_true (hsame fun l _ l' => ?_) trivial
    simp only [changeAtOnce, ledgerEntry, entryTime, StakingOperation.updateOperation, update,
      StakingOperation.validator, StakingOperation.amount, pure_bind, bind_eq_ok, okOr_eq_ok]
  | bondExtra amount validator =>
    refine iff_of_true (hsame fun l _ l' => ?_) trivial
    simp only [changeAtOnce, ledgerEntry, entryTime, StakingOperation.updateOperation, update,
      StakingOperation.validator, StakingOperation.amount, pure_bind, bind_eq_ok, okOr_eq_ok]
  | unbond amount validator =>
    refine iff_of_true (hsame fun l _ l' => ?_) trivial
    simp only [changeAtOnce, ledgerEntry, entryTime, StakingOperation.updateOperation, update,
      StakingOperation.validator, StakingOperation.amount, map_eq_pure_bind, bind_eq_ok,
      okOr_eq_ok, pure_eq_ok]
    constructor
    · rintro ⟨v, hv, h⟩
      obtain ⟨u, hu⟩ := bondLess_time h
      rw [hu] at h
      refine ⟨_, ⟨some u, ⟨u, hu, rfl⟩, rfl⟩, ?_⟩
      rw [hv]
      exact h
    · rintro ⟨_, ⟨_, ⟨u, hu, rfl⟩, rfl⟩, h⟩
      simp only [bind_eq_ok, okOr_eq_ok] at h
      obtain ⟨v, hv, h⟩ := h
      rw [hu]
      exact ⟨v, hv, h⟩
  | unbondAll => exact unbondAll_sameOutcome_iff
  | rebond validator =>
    refine iff_of_true (hsame fun l _ l' => ?_) trivial
    simp only [changeAtOnce, ledgerEntry, entryTime, StakingOperation.updateOperation, update,
      StakingOperation.validator, StakingOperation.amount, pure_bind, bind_eq_ok, okOr_eq_ok]
  | undelegate targets =>
    refine iff_of_true (hsame fun l _ l' => ?_) trivial
    simp only [changeAtOnce, ledgerEntry, entryTime, StakingOperation.updateOperation, update,
      StakingOperation.validator, StakingOperation.amount, map_eq_pure_bind, bind_eq_ok,
      okOr_eq_ok, pure_eq_ok]
    constructor
    · rintro ⟨v, hv, h⟩
      obtain ⟨u, hu⟩ := revoke_time h
      rw [hu] at h
      refine ⟨_, ⟨some u, ⟨u, hu, rfl⟩, rfl⟩, ?_⟩
      rw [hv]
      exact h
    · rintro ⟨_, ⟨_, ⟨u, hu, rfl⟩, rfl⟩, h⟩
      simp only [bind_eq_ok, okOr_eq_ok] at h
      obtain ⟨v, hv, h⟩ := h
      rw [hu]
      exact ⟨v, hv, h⟩
  | redelegate =>
    refine iff_of_true (hsame fun l _ l' => ?_) trivial
    simp only [changeAtOnce, ledgerEntry, entryTime, StakingOperation.updateOperation, update,
      pure_bind]
  | liquidize validator => exact liquidize_sameOutcome_iff

namespace Sample

/-- Leaving takes 24 rounds and an unbonding 28. -/
def slowTerms : StakingTerms ℕ where
  now := some (.round 10)
  delays := some ⟨.round 28, .round 24⟩
  minsMaxs := none
  validators := none

def staked : OneToManyLedger ℕ :=
  { empty Slp.Sample.delegator with
    total := 100
    delegations := Table.ofList [(Slp.Sample.collator, 100)] }

end Sample

/-- At once the delegator may leave in round 38, by message in round 34. -/
theorem staking_paths_differ :
    ¬SameOutcome (atOnce Sample.slowTerms Slp.Sample.delegator (some Sample.staked) .unbondAll)
      (confirmed Sample.slowTerms movr Slp.Sample.delegator (some Sample.staked) .unbondAll) := by
  intro hsame
  have hleft : ∀ l, Sample.staked.leave (Sample.slowTerms.unlockingTime true) = .ok l →
      Sample.staked.leave (Sample.slowTerms.unlockingTime false) = .ok l := by
    intro l hl
    exact (hsame l).mpr hl
  have hstatus := congrArg (Except.map OneToManyLedger.status) (hleft _ rfl)
  revert hstatus
  decide

/-! The calls take the paths. -/

def execute (s : State cfg) (who : MultiLocation AccountId) (c : CurrencyId) (wf : Option (ℕ × ℕ)) :
    StakingOperation AccountId → Except Fault (ℕ × State cfg)
  | .bond amount validator => bond s who amount validator c wf
  | .bondExtra amount validator => bondExtra s who amount validator c wf
  | .unbond amount validator => unbond s who amount validator c wf
  | .unbondAll => unbondAll s who c
  | .rebond validator => rebond s who validator c wf
  | .undelegate targets => undelegate s who targets c wf
  | .redelegate => redelegate s who c
  | .liquidize validator => liquidize s who validator c wf

/-- The chains whose staking is reached by messages. -/
def Remote (c : CurrencyId) : Prop := c = movr ∨ c = glmr ∨ c = manta

omit [DecidableEq AccountId] in
theorem unlockingTime_eq (hc : c = bnc ∨ Remote c) (ifLeave : Bool) :
    s.getUnlockingTimeUnitFromCurrent ifLeave c = (s.stakingTerms c).unlockingTime ifLeave := by
  have hround : c = bnc ∨ c = movr ∨ c = glmr ∨ c = manta := hc
  have hera : ¬(c = astr ∨ c = ksm ∨ c = dot) := by
    rcases hround with rfl | rfl | rfl | rfl <;> decide
  have hhour : c ≠ pha := by
    rcases hround with rfl | rfl | rfl | rfl <;> decide
  simp only [State.getUnlockingTimeUnitFromCurrent, if_neg hera, if_neg hhour, if_pos hround]
  rfl

omit [DecidableEq AccountId] in
theorem entryTime_eq (hc : Remote c) (operation : ParachainStakingLedgerUpdateOperation) :
    s.parachainStakingUnlockTime c operation = entryTime (s.stakingTerms c) operation := by
  cases operation <;> simp only [State.parachainStakingUnlockTime, entryTime,
    unlockingTime_eq (s := s) (Or.inr hc)] <;> rfl

omit [DecidableEq AccountId] in
theorem remote_of_remoteAccount {location : MultiLocation AccountId} {account : AccountId ⊕ ℕ}
    (h : remoteAccount c location = .ok account) : Remote c := by
  unfold remoteAccount at h
  split at h
  · rename_i hmoonbeam
    rcases hmoonbeam with hc | hc
    · exact Or.inl hc
    · exact Or.inr (Or.inl hc)
  · split at h
    · rename_i hc
      exact Or.inr (Or.inr hc)
    · cases h

/-- What a call leaves: for BNC the changed ledger, for another chain the entry of its message. -/
def Leaves (s : State cfg) (c : CurrencyId) (who : MultiLocation AccountId)
    (operation : StakingOperation AccountId) (q : ℕ) (s' : State cfg) : Prop :=
  ∃ l, checked (s.stakingTerms c) who (s.oneToMany c who) operation = .ok l ∧
    (c = bnc → ∃ l', changeAtOnce (s.stakingTerms c) l operation = .ok l' ∧
      s'.oneToMany c who = some l') ∧
    (c ≠ bnc → s'.oneToMany c who = some l ∧
      ∃ entry timeout, ledgerEntry (s.stakingTerms c) c who l operation = .ok entry ∧
        s'.delegatorLedgerXcmUpdateQueue q = some (.parachainStaking entry, timeout))

variable {q n : ℕ} {wf : Option (ℕ × ℕ)} {s₀ : State cfg}

theorem native_ledger {call : NativeStaking AccountId}
    {f : State cfg → OneToManyLedger AccountId → Except Fault (OneToManyLedger AccountId)}
    (h : (do
      let s ← nativeStaking s₀ call
      mutateAtOnce s who c (f s)) = Except.ok (q, s')) (hl : s₀.oneToMany c who = some l) :
    ∃ L l', f (s₀.withOutside L) l = .ok l' ∧ s'.oneToMany c who = some l' := by
  rw [bind_eq_ok] at h
  obtain ⟨s₁, hnative, hmutate⟩ := h
  obtain ⟨L, rfl⟩ := nativeStaking_ok hnative
  obtain ⟨l₁, l', occ, hget, hl', rfl⟩ := mutateAtOnce_ok hmutate
  have hsame : l₁ = l := Option.some.inj ((oneToMany_eq_some.mpr hget).symm.trans hl)
  subst hsame
  refine ⟨L, l', hl', ?_⟩
  have hset := oneToMany_setLedger (s₀.withOutside L) c c who who (some (.parachainStaking l'))
  rw [if_pos ⟨rfl, rfl⟩] at hset
  exact hset

theorem remote_entry {operation : XcmOperationType} {call : RemoteCall AccountId}
    {update : ParachainStakingLedgerUpdateOperation}
    (h : s₀.sendWithRecord operation call who c wf (fun s queryId timeout =>
      s.insertParachainStakingEntry who validator update n queryId timeout c) = .ok (q, s'))
    (hc : Remote c) : ∃ u timeout, entryTime (s₀.stakingTerms c) update = .ok u ∧
      s'.delegatorLedgerXcmUpdateQueue q =
        some (.parachainStaking ⟨c, who, validator, update, n, u⟩, timeout) ∧
      s'.oneToMany c who = s₀.oneToMany c who := by
  obtain ⟨r, x, L, es, s₂, L', hq, hes, hrecord, rfl⟩ := sendWithRecord_ok h
  simp only [State.insertParachainStakingEntry, bind_eq_ok, pure_eq_ok] at hrecord
  obtain ⟨u, hu, rfl⟩ := hrecord
  rw [entryTime_eq hc] at hu
  exact ⟨u, s₀.timeout, hu, Function.update_self q _ _, rfl⟩

theorem leaves_of_remote {kind : XcmOperationType} {call : RemoteCall AccountId}
    (hl : checked (s.stakingTerms c) who (s.oneToMany c who) operation = .ok l)
    (hterms : s₀.stakingTerms c = s.stakingTerms c) (hledger : s₀.oneToMany c who = some l)
    (hc : c ≠ bnc) (hremote : Remote c)
    (h : s₀.sendWithRecord kind call who c wf (fun s queryId timeout =>
      s.insertParachainStakingEntry who operation.validator (operation.updateOperation l)
        (operation.amount l) queryId timeout c) = .ok (q, s')) : Leaves s c who operation q s' := by
  obtain ⟨u, timeout, hu, hqueue, hsame⟩ := remote_entry h hremote
  refine ⟨l, hl, fun hbnc => absurd hbnc hc, fun _ => ⟨hsame.trans hledger, _, timeout, ?_, hqueue⟩⟩
  simp only [ledgerEntry, bind_eq_ok, pure_eq_ok]
  exact ⟨u, hterms ▸ hu, rfl⟩

theorem leaves_of_native {call : NativeStaking AccountId}
    {f : State cfg → OneToManyLedger AccountId → Except Fault (OneToManyLedger AccountId)}
    (hl : checked (s.stakingTerms c) who (s.oneToMany c who) operation = .ok l)
    (hledger : s₀.oneToMany c who = some l) (hc : c = bnc)
    (hf : ∀ L l', f (s₀.withOutside L) l = .ok l' →
      changeAtOnce (s.stakingTerms c) l operation = .ok l')
    (h : (do
      let s ← nativeStaking s₀ call
      mutateAtOnce s who c (f s)) = Except.ok (q, s')) : Leaves s c who operation q s' := by
  obtain ⟨L, l', hl', hs'⟩ := native_ledger h hledger
  exact ⟨l, hl, fun _ => ⟨l', hf L l' hl', hs'⟩, fun hne => absurd hc hne⟩

theorem bondExtra_leaves (h : bondExtra s who n validator c wf = .ok (q, s')) :
    Leaves s c who (.bondExtra n validator) q s' := by
  simp only [bondExtra, bind_eq_ok, okOr_eq_ok, ensure_eq_ok, exists_const] at h
  obtain ⟨minsMaxs, hmins, hmin, collator, rfl, validators, hvalidators, hmem, l, hledger, hactive,
    hbonded, _, hcheck, h⟩ := h
  have hget := oneToMany_eq_some.mpr (oneToManyLedger_ok hledger)
  have hl : checked (s.stakingTerms c) who (s.oneToMany c who) (.bondExtra n (some collator)) =
      .ok l := by
    simp only [checked, hget, bind_eq_ok, okOr_eq_ok, ensure_eq_ok, exists_const, pure_eq_ok]
    exact ⟨minsMaxs, hmins, hmin, collator, rfl, validators, hvalidators, hmem, l, rfl, hactive,
      hbonded, _, hcheck, rfl⟩
  split at h
  · rename_i hc
    rw [bind_eq_ok] at h
    obtain ⟨_, -, h⟩ := h
    rw [bind_eq_ok] at h
    obtain ⟨_, -, h⟩ := h
    exact leaves_of_native hl hget hc (fun _ _ hl' => hl') h
  · rename_i hc
    rw [bind_eq_ok] at h
    obtain ⟨_, haccount, h⟩ := h
    exact leaves_of_remote hl rfl hget hc (remote_of_remoteAccount haccount) h

theorem unbond_leaves (h : unbond s who n validator c wf = .ok (q, s')) :
    Leaves s c who (.unbond n validator) q s' := by
  simp only [unbond, bind_eq_ok, okOr_eq_ok, ensure_eq_ok, exists_const] at h
  obtain ⟨minsMaxs, hmins, hmin, collator, rfl, l, hledger, hactive, delegated, hdelegated, hbrief,
    after, hafter, hlow, active, hsub, rest, hrest, hbonded, h⟩ := h
  have hget := oneToMany_eq_some.mpr (oneToManyLedger_ok hledger)
  have hl : checked (s.stakingTerms c) who (s.oneToMany c who) (.unbond n (some collator)) =
      .ok l := by
    simp only [checked, hget, bind_eq_ok, okOr_eq_ok, ensure_eq_ok, exists_const, pure_eq_ok]
    exact ⟨minsMaxs, hmins, hmin, collator, rfl, l, rfl, hactive, delegated, hdelegated, hbrief,
      after, hafter, hlow, active, hsub, rest, hrest, hbonded, rfl⟩
  split at h
  · rename_i hc
    rw [bind_eq_ok] at h
    obtain ⟨_, -, h⟩ := h
    rw [bind_eq_ok] at h
    obtain ⟨_, -, h⟩ := h
    refine leaves_of_native hl hget hc (fun L l' hl' => ?_) h
    rw [unlockingTime_eq (Or.inl hc)] at hl'
    exact hl'
  · rename_i hc
    rw [bind_eq_ok] at h
    obtain ⟨_, haccount, h⟩ := h
    exact leaves_of_remote hl rfl hget hc (remote_of_remoteAccount haccount) h

theorem unbondAll_leaves (h : unbondAll s who c = .ok (q, s')) :
    Leaves s c who .unbondAll q s' := by
  simp only [unbondAll, bind_eq_ok, ensure_eq_ok, exists_const] at h
  obtain ⟨hc, l, hledger, hactive, _, -, h⟩ := h
  rw [← bind_eq_ok] at h
  have hget := oneToMany_eq_some.mpr (oneToManyLedger_ok hledger)
  have hl : checked (s.stakingTerms c) who (s.oneToMany c who) .unbondAll = .ok l := by
    simp only [checked, hget, bind_eq_ok, okOr_eq_ok, ensure_eq_ok, exists_const, pure_eq_ok]
    exact ⟨l, rfl, hactive, rfl⟩
  refine leaves_of_native hl hget hc (fun L l' hl' => ?_) h
  rw [unlockingTime_eq (Or.inl hc)] at hl'
  exact hl'

theorem rebond_leaves
    (h : rebond s who validator c wf = .ok (q, s')) : Leaves s c who (.rebond validator) q s' := by
  simp only [rebond, bind_eq_ok, okOr_eq_ok, ensure_eq_ok, exists_const] at h
  obtain ⟨minsMaxs, hmins, collator, rfl, l, hledger, hactive, brief, hbrief, active, hsub, after,
    hafter, hbonded, h⟩ := h
  have hget := oneToMany_eq_some.mpr (oneToManyLedger_ok hledger)
  have hl : checked (s.stakingTerms c) who (s.oneToMany c who) (.rebond (some collator)) =
      .ok l := by
    simp only [checked, hget, bind_eq_ok, okOr_eq_ok, ensure_eq_ok, exists_const, pure_eq_ok]
    exact ⟨minsMaxs, hmins, collator, rfl, l, rfl, hactive, brief, hbrief, active, hsub, after,
      hafter, hbonded, rfl⟩
  split at h
  · rename_i hc
    rw [bind_eq_ok] at h
    obtain ⟨_, -, h⟩ := h
    rw [bind_eq_ok] at h
    obtain ⟨_, -, h⟩ := h
    refine leaves_of_native hl hget hc (fun L l' hl' => ?_) h
    exact hl'
  · rename_i hc
    rw [bind_eq_ok] at h
    obtain ⟨_, haccount, h⟩ := h
    exact leaves_of_remote hl rfl hget hc (remote_of_remoteAccount haccount) h

theorem undelegate_leaves {targets : List (MultiLocation AccountId)}
    (h : undelegate s who targets c wf = .ok (q, s')) :
    Leaves s c who (.undelegate targets) q s' := by
  simp only [undelegate, bind_eq_ok, okOr_eq_ok, ensure_eq_ok, exists_const] at h
  obtain ⟨validator, hvalidator, l, hledger, hactive, hbonded, hbrief, h⟩ := h
  have hget := oneToMany_eq_some.mpr (oneToManyLedger_ok hledger)
  have hl : checked (s.stakingTerms c) who (s.oneToMany c who) (.undelegate targets) = .ok l := by
    simp only [checked, hget, bind_eq_ok, okOr_eq_ok, ensure_eq_ok, exists_const, pure_eq_ok]
    exact ⟨validator, hvalidator, l, rfl, hactive, hbonded, hbrief, rfl⟩
  rw [← hvalidator] at h
  split at h
  · rename_i hc
    rw [bind_eq_ok] at h
    obtain ⟨_, -, h⟩ := h
    rw [bind_eq_ok] at h
    obtain ⟨_, -, h⟩ := h
    refine leaves_of_native hl hget hc (fun L l' hl' => ?_) h
    rw [unlockingTime_eq (Or.inl hc)] at hl'
    simp only [changeAtOnce, bind_eq_ok, okOr_eq_ok]
    exact ⟨validator, hvalidator, hl'⟩
  · rename_i hc
    rw [bind_eq_ok] at h
    obtain ⟨_, haccount, h⟩ := h
    exact leaves_of_remote hl rfl hget hc (remote_of_remoteAccount haccount) h

theorem redelegate_leaves (h : redelegate s who c = .ok (q, s')) :
    Leaves s c who .redelegate q s' := by
  simp only [redelegate, bind_eq_ok, ensure_eq_ok, exists_const] at h
  obtain ⟨hc, l, hledger, hleaving, _, -, h⟩ := h
  rw [← bind_eq_ok] at h
  have hget := oneToMany_eq_some.mpr (oneToManyLedger_ok hledger)
  have hl : checked (s.stakingTerms c) who (s.oneToMany c who) .redelegate = .ok l := by
    simp only [checked, hget, bind_eq_ok, okOr_eq_ok, ensure_eq_ok, exists_const, pure_eq_ok]
    exact ⟨l, rfl, hleaving, rfl⟩
  exact leaves_of_native hl hget hc (fun _ _ hl' => hl') h

theorem checkOrOpen_opened {minsMaxs : MinimumsMaximums}
    (h : checkOrOpen s who collator n c minsMaxs = .ok s') :
    ∃ l, opened minsMaxs who collator n (s.oneToMany c who) = .ok l ∧
      s'.oneToMany c who = some l ∧ s'.stakingTerms c = s.stakingTerms c := by
  unfold checkOrOpen at h
  split at h
  · rename_i l hledger
    have hget := oneToMany_eq_some.mpr hledger
    simp only [bind_eq_ok, pure_eq_ok] at h
    obtain ⟨u₁, hactive, u₂, hcheck, u₃, hnew, u₄, hroom, rfl⟩ := h
    refine ⟨l, ?_, hget, rfl⟩
    rw [hget]
    simp only [opened, bind_eq_ok, pure_eq_ok]
    exact ⟨u₁, hactive, u₂, hcheck, u₃, hnew, u₄, hroom, trivial⟩
  · rename_i hother
    have hget : s.oneToMany c who = none := by
      cases hsome : s.oneToMany c who with
      | none => rfl
      | some l => exact absurd (oneToMany_eq_some.mp hsome) (hother l)
    simp only [bind_eq_ok, pure_eq_ok] at h
    obtain ⟨u₁, hmin, u₂, hmax, rfl⟩ := h
    refine ⟨empty who, ?_, ?_, rfl⟩
    · rw [hget]
      simp only [opened, bind_eq_ok, pure_eq_ok]
      exact ⟨u₁, hmin, u₂, hmax, trivial⟩
    · rw [oneToMany_setLedger, if_pos ⟨rfl, rfl⟩]
      rfl

theorem bond_leaves (h : bond s who n validator c wf = .ok (q, s')) :
    Leaves s c who (.bond n validator) q s' := by
  simp only [bond, bind_eq_ok, okOr_eq_ok, ensure_eq_ok, exists_const] at h
  obtain ⟨collator, rfl, minsMaxs, hmins, hmin, validators, hvalidators, hmem, s₀, hopen, h⟩ := h
  obtain ⟨l, hopened, hget, hterms⟩ := checkOrOpen_opened hopen
  have hl : checked (s.stakingTerms c) who (s.oneToMany c who) (.bond n (some collator)) =
      .ok l := by
    simp only [checked, bind_eq_ok, okOr_eq_ok, ensure_eq_ok, exists_const]
    exact ⟨collator, rfl, minsMaxs, hmins, hmin, validators, hvalidators, hmem, hopened⟩
  split at h
  · rename_i hc
    rw [bind_eq_ok] at h
    obtain ⟨_, -, h⟩ := h
    rw [bind_eq_ok] at h
    obtain ⟨_, -, h⟩ := h
    exact leaves_of_native hl hget hc (fun _ _ hl' => hl') h
  · rename_i hc
    simp only [bind_eq_ok, okOr_eq_ok] at h
    obtain ⟨_, -, _, haccount, h⟩ := h
    exact leaves_of_remote hl hterms hget hc (remote_of_remoteAccount haccount) h

theorem dueRequest_eq {now : TimeUnit} {leaving : Bool}
    {due : ℕ} (h : dueRequest now l collator = .ok (leaving, due)) :
    (leaving = true ↔ l.status ≠ .active) ∧
      due = StakingOperation.amount l (.liquidize (some collator)) := by
  unfold dueRequest at h
  cases hstatus : l.status with
  | leaving time =>
    simp only [hstatus, bind_eq_ok, pure_eq_ok, Prod.mk.injEq] at h
    obtain ⟨-, -, rfl, rfl⟩ := h
    simp [StakingOperation.amount, hstatus]
  | active =>
    simp only [hstatus, bind_eq_ok, okOr_eq_ok, pure_eq_ok, Prod.mk.injEq] at h
    obtain ⟨-, -, brief, hbrief, -, -, rfl, rfl⟩ := h
    simp [StakingOperation.amount, hstatus, hbrief]

theorem liquidize_leaves (h : liquidize s who validator c wf = .ok (q, s')) :
    Leaves s c who (.liquidize validator) q s' := by
  simp only [liquidize, bind_eq_ok, okOr_eq_ok] at h
  obtain ⟨collator, rfl, now, hnow, l, hledger, ⟨leaving, due⟩, hdue, h⟩ := h
  have hget := oneToMany_eq_some.mpr (oneToManyLedger_ok hledger)
  obtain ⟨hleaving, hamount⟩ := dueRequest_eq hdue
  have hl : checked (s.stakingTerms c) who (s.oneToMany c who) (.liquidize (some collator)) =
      .ok l := by
    simp only [checked, hget, bind_eq_ok, okOr_eq_ok, pure_eq_ok]
    exact ⟨collator, rfl, now, hnow, l, rfl, _, hdue, rfl⟩
  split at h
  · rename_i hc
    rw [bind_eq_ok] at h
    obtain ⟨_, -, h⟩ := h
    rw [bind_eq_ok] at h
    obtain ⟨_, -, h⟩ := h
    rw [bind_eq_ok] at h
    obtain ⟨minsMaxs, hmins, h⟩ := h
    split at h
    · rename_i htrue
      refine leaves_of_native hl hget hc (fun L l' hl' => ?_) h
      rw [unlockingTime_eq (Or.inl hc)] at hl'
      simp only [changeAtOnce, bind_eq_ok, okOr_eq_ok, if_neg (hleaving.mp htrue)]
      exact ⟨collator, rfl, minsMaxs, hmins, hl'⟩
    · rename_i hfalse
      refine leaves_of_native hl hget hc (fun L l' hl' => ?_) h
      rw [unlockingTime_eq (Or.inl hc)] at hl'
      have hactive : l.status = .active := by
        by_contra hne
        exact hfalse (hleaving.mpr hne)
      simp only [changeAtOnce, bind_eq_ok, okOr_eq_ok, if_pos hactive]
      exact ⟨collator, rfl, minsMaxs, hmins, hl'⟩
  · rename_i hc
    rw [bind_eq_ok] at h
    obtain ⟨_, -, h⟩ := h
    rw [bind_eq_ok] at h
    obtain ⟨_, haccount, h⟩ := h
    have hupdate : (if leaving = true then ParachainStakingLedgerUpdateOperation.executeLeave
        else .executeRequest) =
          StakingOperation.updateOperation l (.liquidize (some collator)) := by
      simp only [StakingOperation.updateOperation]
      cases leaving with
      | true => rw [if_pos rfl, if_neg (hleaving.mp rfl)]
      | false =>
        have hactive : l.status = .active := by
          by_contra hne
          exact Bool.false_ne_true (hleaving.mpr hne)
        rw [if_neg Bool.false_ne_true, if_pos hactive]
    rw [hupdate, hamount] at h
    exact leaves_of_remote hl rfl hget hc (remote_of_remoteAccount haccount) h

theorem execute_leaves
    (h : execute s who c wf operation = .ok (q, s')) : Leaves s c who operation q s' := by
  cases operation with
  | bond amount validator => exact bond_leaves h
  | bondExtra amount validator => exact bondExtra_leaves h
  | unbond amount validator => exact unbond_leaves h
  | unbondAll => exact unbondAll_leaves h
  | rebond validator => exact rebond_leaves h
  | undelegate targets => exact undelegate_leaves h
  | redelegate => exact redelegate_leaves h
  | liquidize validator => exact liquidize_leaves h

theorem execute_bnc (h : execute s who bnc wf operation = .ok (q, s')) :
    ∃ l', atOnce (s.stakingTerms bnc) who (s.oneToMany bnc who) operation = .ok l' ∧
      s'.oneToMany bnc who = some l' := by
  obtain ⟨l, hl, hbnc, -⟩ := execute_leaves h
  obtain ⟨l', hl', hs'⟩ := hbnc rfl
  refine ⟨l', ?_, hs'⟩
  simp only [atOnce, bind_eq_ok]
  exact ⟨l, hl, hl'⟩

theorem execute_remote (hc : c ≠ bnc)
    (h : execute s who c wf operation = .ok (q, s')) : ∃ entry timeout,
      s'.delegatorLedgerXcmUpdateQueue q = some (.parachainStaking entry, timeout) ∧
      ∀ s'', checkDelegatorLedgerQueryResponse s' q (.parachainStaking entry) c = .ok s'' →
        ∃ l', confirmed (s.stakingTerms c) c who (s.oneToMany c who) operation = .ok l' ∧
          s''.oneToMany c who = some l' := by
  obtain ⟨l, hl, -, hremote⟩ := execute_leaves h
  obtain ⟨hs', entry, timeout, hentry, hqueue⟩ := hremote hc
  refine ⟨entry, timeout, hqueue, fun s'' hconfirm => ?_⟩
  have hwho : entry.delegatorId = who := by
    simp only [ledgerEntry, bind_eq_ok, pure_eq_ok] at hentry
    obtain ⟨u, -, rfl⟩ := hentry
    rfl
  simp only [checkDelegatorLedgerQueryResponse, updateLedgerQueryResponseStorage, bind_eq_ok,
    ensure_eq_ok, exists_const, pure_eq_ok, hwho] at hconfirm
  obtain ⟨-, _, ⟨s₀, hmutate, rfl⟩, s₁, hoccupied, rfl⟩ := hconfirm
  obtain ⟨l₁, l', hget, hl', rfl⟩ := mutateOneToMany_ok hmutate
  obtain ⟨occ, rfl⟩ := updateAllOccupied_ok hoccupied
  have hsame : l₁ = l := Option.some.inj ((oneToMany_eq_some.mpr hget).symm.trans hs')
  subst hsame
  refine ⟨l', ?_, ?_⟩
  · simp only [confirmed, bind_eq_ok]
    exact ⟨l₁, hl, entry, hentry, hl'⟩
  · have hset := oneToMany_setLedger s' c c who who (some (.parachainStaking l'))
    rw [if_pos ⟨rfl, rfl⟩] at hset
    exact hset

/-- A call for BNC changes the ledger as the path at once does; for another chain it sends a message
whose response changes the ledger as the confirmed path does, from the one the call has found. -/
theorem calls_take_paths (h : execute s who c wf operation = .ok (q, s')) :
    (c = bnc → ∃ l', atOnce (s.stakingTerms c) who (s.oneToMany c who) operation = .ok l' ∧
      s'.oneToMany c who = some l') ∧
    (c ≠ bnc → ∃ entry timeout,
      s'.delegatorLedgerXcmUpdateQueue q = some (.parachainStaking entry, timeout) ∧
      ∀ s'', checkDelegatorLedgerQueryResponse s' q (.parachainStaking entry) c = .ok s'' →
        ∃ l', confirmed (s.stakingTerms c) c who (s.oneToMany c who) operation = .ok l' ∧
          s''.oneToMany c who = some l') := by
  refine ⟨?_, fun hc => execute_remote hc h⟩
  rintro rfl
  exact execute_bnc h

/-- A delegator of Manta bonds. -/
theorem calls_take_paths_manta : ∃ q s',
    execute Slp.Sample.start Slp.Sample.delegator manta none (.bond 100 (some Slp.Sample.collator))
      = .ok (q, s') ∧ ∃ entry timeout,
        s'.delegatorLedgerXcmUpdateQueue q = some (.parachainStaking entry, timeout) := by
  obtain ⟨⟨q, s'⟩, h⟩ : ∃ r, execute Slp.Sample.start Slp.Sample.delegator manta none
      (.bond 100 (some Slp.Sample.collator)) = .ok r := ⟨_, rfl⟩
  obtain ⟨entry, timeout, hqueue, -⟩ := (calls_take_paths h).2 (by decide)
  exact ⟨q, s', h, entry, timeout, hqueue⟩

end ParachainStakingAgent

end Bifrost.Slp
