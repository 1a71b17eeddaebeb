import Bifrost.Lib.Machine
import Bifrost.Lib.Result
import Bifrost.Lib.Table
import Bifrost.Primitives.Arithmetic
import Bifrost.Primitives.Integers
import Bifrost.Primitives.MultiCurrency

/-!
# The vesting pallet

Schedules unlock linearly. What is locked is counted from a common block `VestingStartAt`, to which
the starting block of a schedule is added; before it is set everything is locked. The end of a
schedule is computed from its starting block alone. The lock of an account is brought up to date
by the calls, not by time; a cliff is to keep it until a block has passed.
-/

namespace Bifrost.Vesting

open Result
set_option autoImplicit false

structure VestingInfo where
  locked : ℕ
  perBlock : ℕ
  startingBlock : ℕ
  locked_le : locked ≤ u128Max
  startingBlock_le : startingBlock ≤ u32Max

namespace VestingInfo

def perBlockMin (v : VestingInfo) : ℕ := max v.perBlock 1

def isValid (v : VestingInfo) : Bool := v.locked ≠ 0 ∧ v.perBlock ≠ 0

def lockedAt (v : VestingInfo) (n : ℕ) : Option ℕ → ℕ
  | some st =>
    if st < n then
      match U128.checkedMul (n - st) v.perBlockMin with
      | some toUnlock => v.locked - toUnlock
      | none => 0
    else v.locked
  | none => v.locked

def duration (v : VestingInfo) : ℕ :=
  if v.locked ≤ v.perBlockMin then 1 else U128.divCeil v.locked v.perBlockMin

def endingBlock (v : VestingInfo) : ℕ := U128.saturatingAdd v.startingBlock v.duration

end VestingInfo

inductive Error where
  | notVesting
  | atMaxVestingSchedules
  | amountLow
  | scheduleIndexOutOfBounds
  | invalidScheduleParams
  | samePerBlock
  | vestingStartAtNotSet
  | wrongLockedAmount
  | wrongCliffVesting
deriving DecidableEq

inductive Fault where
  | pallet (e : Error)
  | token (e : TokenError)
  | badOrigin
deriving DecidableEq

/-- The currency, and the lock with the id of the pallet; an amount of zero is laid by no one. -/
structure Currency (AccountId : Type) [DecidableEq AccountId] where
  Ledger : Type
  lock : Ledger → AccountId → ℕ
  transfer : Ledger → AccountId → AccountId → ℕ → Except TokenError Ledger
  setLock : Ledger → AccountId → ℕ → Ledger
  removeLock : Ledger → AccountId → Ledger
  lock_transfer : ∀ {L L' a b n}, transfer L a b n = .ok L' → lock L' = lock L
  lock_setLock : ∀ L x n, n ≠ 0 → lock (setLock L x n) = Function.update (lock L) x n
  lock_removeLock : ∀ L x, lock (removeLock L x) = Function.update (lock L) x 0

structure Config (AccountId : Type) [DecidableEq AccountId] where
  currency : Currency AccountId
  minVestedTransfer : ℕ
  maxVestingSchedules : ℕ

structure State {AccountId : Type} [DecidableEq AccountId] (cfg : Config AccountId) where
  vestingStartAt : Option ℕ
  cliff : Table AccountId ℕ
  vesting : Table AccountId (List VestingInfo)
  ledger : cfg.currency.Ledger
  now : ℕ
  now_le : now ≤ u32Max

inductive VestingAction where
  | passive
  | remove (index : ℕ)
  | merge (index1 index2 : ℕ)

namespace VestingAction

def shouldRemove : VestingAction → ℕ → Bool
  | passive, _ => false
  | remove index1, index => index1 = index
  | merge index1 index2, index => index1 = index ∨ index2 = index

def pickSchedules (action : VestingAction) (l : List VestingInfo) : List VestingInfo :=
  (l.zipIdx.filter fun e => !action.shouldRemove e.2).map Prod.fst

end VestingAction

inductive Origin (AccountId : Type) where
  | signed (who : AccountId)
  | root

variable {AccountId : Type} [DecidableEq AccountId] {cfg : Config AccountId}

namespace State

variable (s : State cfg)

def startOf (v : VestingInfo) : Option ℕ :=
  s.vestingStartAt.map fun st => U32.saturatingAdd st v.startingBlock

def lockedNow (v : VestingInfo) : ℕ := v.lockedAt s.now (s.startOf v)

def checkCliff (who : AccountId) : Except Fault (State cfg) :=
  match s.cliff.get who with
  | some cliffBlock => do
    ensure (cliffBlock < s.now) (.pallet .wrongCliffVesting)
    pure { s with cliff := s.cliff.write who none }
  | none => pure s

def mergeVestingInfo (schedule1 schedule2 : VestingInfo) : Option VestingInfo :=
  if schedule1.endingBlock ≤ s.now then
    if schedule2.endingBlock ≤ s.now then none else some schedule2
  else if schedule2.endingBlock ≤ s.now then some schedule1
  else
    let locked := U128.saturatingAdd (s.lockedNow schedule1) (s.lockedNow schedule2)
    let endingBlock := max schedule1.endingBlock schedule2.endingBlock
    let startingBlock := max (max s.now schedule1.startingBlock) schedule2.startingBlock
    let duration := max (endingBlock - startingBlock) 1
    some {
      locked, startingBlock
      perBlock := max (locked / duration) 1
      locked_le := Nat.min_le_right _ _
      startingBlock_le :=
        Nat.max_le.mpr ⟨Nat.max_le.mpr ⟨s.now_le, schedule1.startingBlock_le⟩,
          schedule2.startingBlock_le⟩ }

def reportScheduleUpdates (l : List VestingInfo) (action : VestingAction) : List VestingInfo × ℕ :=
  let kept := (action.pickSchedules l).filter fun v => s.lockedNow v ≠ 0
  (kept, kept.foldl (fun total v => U128.saturatingAdd total (s.lockedNow v)) 0)

def execAction (l : List VestingInfo) (action : VestingAction) :
    Except Fault (List VestingInfo × ℕ) :=
  match action with
  | .merge index1 index2 => do
    let schedule1 ← okOr l[index1]? (.pallet .scheduleIndexOutOfBounds)
    let schedule2 ← okOr l[index2]? (.pallet .scheduleIndexOutOfBounds)
    let (kept, lockedNow) := s.reportScheduleUpdates l action
    match s.mergeVestingInfo schedule1 schedule2 with
    | some merged => pure (kept ++ [merged], U128.saturatingAdd lockedNow (s.lockedNow merged))
    | none => pure (kept, lockedNow)
  | _ => pure (s.reportScheduleUpdates l action)

def writeVesting (who : AccountId) (l : List VestingInfo) : Except Fault (State cfg) := do
  ensure (l.length ≤ cfg.maxVestingSchedules) (.pallet .atMaxVestingSchedules)
  pure { s with vesting := s.vesting.write who (if l = [] then none else some l) }

def writeLock (who : AccountId) (totalLockedNow : ℕ) : State cfg :=
  { s with
    ledger :=
      if totalLockedNow = 0 then cfg.currency.removeLock s.ledger who
      else cfg.currency.setLock s.ledger who totalLockedNow }

def update (who : AccountId) (l : List VestingInfo) (action : VestingAction) :
    Except Fault (State cfg) := do
  let (schedules, lockedNow) ← s.execAction l action
  let s ← s.writeVesting who schedules
  pure (s.writeLock who lockedNow)

def doVest (who : AccountId) : Except Fault (State cfg) := do
  let schedules ← okOr (s.vesting.get who) (.pallet .notVesting)
  s.update who schedules .passive

def canAddVestingSchedule (who : AccountId) (schedule : VestingInfo) : Except Fault PUnit := do
  ensure schedule.isValid (.pallet .invalidScheduleParams)
  ensure (((s.vesting.get who).getD []).length < cfg.maxVestingSchedules)
    (.pallet .atMaxVestingSchedules)

def addVestingSchedule (who : AccountId) (schedule : VestingInfo) : Except Fault (State cfg) :=
  if schedule.locked = 0 then pure s
  else do
    ensure schedule.isValid (.pallet .invalidScheduleParams)
    let schedules := (s.vesting.get who).getD []
    ensure (schedules.length < cfg.maxVestingSchedules) (.pallet .atMaxVestingSchedules)
    s.update who (schedules ++ [schedule]) .passive

/-- The schedule that is stored has the corrected amount per block. -/
def doVestedTransfer (source target : AccountId) (schedule : VestingInfo) :
    Except Fault (State cfg) := do
  ensure (cfg.minVestedTransfer ≤ schedule.locked) (.pallet .amountLow)
  ensure schedule.isValid (.pallet .invalidScheduleParams)
  let stored := { schedule with perBlock := schedule.perBlockMin }
  s.canAddVestingSchedule target stored
  let ledger ← mapErr (cfg.currency.transfer s.ledger source target schedule.locked) .token
  { s with ledger }.addVestingSchedule target stored

/-! The calls. -/

def vest (who : AccountId) : Except Fault (State cfg) := do
  let s ← s.checkCliff who
  s.doVest who

def setVestingPerBlock (target : AccountId) (index perBlock : ℕ) : Except Fault (State cfg) := do
  let s ← s.doVest target
  let schedules ← okOr (s.vesting.get target) (.pallet .notVesting)
  let schedule ← okOr schedules[index]? (.pallet .scheduleIndexOutOfBounds)
  ensure (schedule.perBlockMin ≠ perBlock) (.pallet .samePerBlock)
  let absoluteStart ← okOr s.vestingStartAt (.pallet .vestingStartAtNotSet)
  let oldStartAt := U32.saturatingAdd absoluteStart schedule.startingBlock
  let remainedVesting := schedule.lockedAt s.now (some oldStartAt)
  if h : remainedVesting ≤ schedule.locked then
    let newStartOffset := if oldStartAt < s.now then s.now - absoluteStart else schedule.startingBlock
    let new : VestingInfo := {
      locked := remainedVesting
      perBlock
      startingBlock := newStartOffset
      locked_le := h.trans schedule.locked_le
      startingBlock_le := by
        have hnow := s.now_le
        have hstart := schedule.startingBlock_le
        simp only [newStartOffset]
        split
        · omega
        · exact hstart }
    let s := { s with vesting := s.vesting.write target (some (schedules.set index new)) }
    s.doVest target
  else .error (.pallet .wrongLockedAmount)

def mergeSchedules (who : AccountId) (schedule1Index schedule2Index : ℕ) :
    Except Fault (State cfg) :=
  if schedule1Index = schedule2Index then pure s
  else do
    let schedules ← okOr (s.vesting.get who) (.pallet .notVesting)
    s.update who schedules (.merge schedule1Index schedule2Index)

end State

/-- What changes around the pallet; its locks are its own. -/
structure World (cfg : Config AccountId) where
  ledger : cfg.currency.Ledger → cfg.currency.Ledger
  keeps_lock : ∀ L, cfg.currency.lock (ledger L) = cfg.currency.lock L
  now : ℕ
  now_le : now ≤ u32Max

inductive Call (cfg : Config AccountId) where
  | vest
  | vestOther (target : AccountId)
  | vestedTransfer (target : AccountId) (schedule : VestingInfo)
  | forceVestedTransfer (source target : AccountId) (schedule : VestingInfo)
  | mergeSchedules (schedule1Index schedule2Index : ℕ)
  | initVestingStartAt (vestingStartAt : ℕ)
  | setVestingPerBlock (target : AccountId) (index perBlock : ℕ)
  | forceSetCliff (target : AccountId) (cliffBlock : ℕ)
  | outside (world : World cfg)

/-- A call by an origin; a call that fails changes nothing. -/
def step (s : State cfg) : Origin AccountId × Call cfg → Except Fault (State cfg)
  | (.signed who, .vest) => s.vest who
  | (.signed _, .vestOther target) => s.vest target
  | (.signed who, .vestedTransfer target schedule) => s.doVestedTransfer who target schedule
  | (.root, .forceVestedTransfer source target schedule) =>
    s.doVestedTransfer source target schedule
  | (.signed who, .mergeSchedules schedule1Index schedule2Index) =>
    s.mergeSchedules who schedule1Index schedule2Index
  | (.root, .initVestingStartAt vestingStartAt) =>
    .ok { s with vestingStartAt := some vestingStartAt }
  | (.root, .setVestingPerBlock target index perBlock) => s.setVestingPerBlock target index perBlock
  | (.root, .forceSetCliff target cliffBlock) =>
    .ok { s with cliff := s.cliff.write target (some cliffBlock) }
  | (_, .outside world) =>
    .ok { s with ledger := world.ledger s.ledger, now := world.now, now_le := world.now_le }
  | _ => .error .badOrigin

end Bifrost.Vesting
