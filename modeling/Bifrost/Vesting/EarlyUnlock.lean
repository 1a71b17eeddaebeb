import Bifrost.Vesting.Schedules

/-!
# No early unlock

A merge keeps what is locked as long as a schedule that has ended by its own end locks nothing any
more, which counts the end from block zero and what is locked from the common start. The cliff is
asked for by the calls that vest alone: a merge, a transfer and a change of the amount per block
bring the lock up to date as well, whatever the block.
-/

namespace Bifrost.Vesting

open Result
set_option autoImplicit false

variable {AccountId : Type} [DecidableEq AccountId] {cfg : Config AccountId} {s s' : State cfg}
  {who : AccountId} {l kept : List VestingInfo} {total index1 index2 : ℕ} {v1 v2 : VestingInfo}

/-! What is promised. -/

namespace State

variable (s : State cfg)

def lock (who : AccountId) : ℕ := cfg.currency.lock s.ledger who

def totalOf (l : List VestingInfo) : ℕ := (l.map s.lockedNow).sum

def totalLocked (who : AccountId) : ℕ := s.totalOf ((s.vesting.get who).getD [])

/-- The cliff block has not passed. -/
def BeforeCliff (who : AccountId) : Prop := ∃ cliffBlock, s.cliff.get who = some cliffBlock ∧
  s.now ≤ cliffBlock

/-- What is merged ends no earlier than either of the two. -/
def MergedEndsLast (who : AccountId) (index1 index2 : ℕ) : Prop :=
  ∀ schedules v1 v2 merged n, s.vesting.get who = some schedules → schedules[index1]? = some v1 →
    schedules[index2]? = some v2 → s.mergeVestingInfo v1 v2 = some merged → s.now ≤ n →
    n ≤ u32Max → s.lockedOf n merged = 0 → s.lockedOf n v1 = 0 ∧ s.lockedOf n v2 = 0

end State

def LocksKept (s s' : State cfg) : Prop := ∀ who, s.BeforeCliff who → s.lock who ≤ s'.lock who

def NotEarly (s : State cfg) : Origin AccountId × Call cfg → State cfg → Prop
  | (.signed who, .mergeSchedules index1 index2), s' =>
    s'.totalLocked who = s.totalLocked who ∧ (index1 ≠ index2 → s.MergedEndsLast who index1 index2) ∧
      LocksKept s s'
  | _, s' => LocksKept s s'

/-! When it is kept. -/

namespace State

variable (s : State cfg)

/-- A schedule that has ended by its own end locks nothing, and the sum of two that still run is an
amount. -/
def MergesWhole (v1 v2 : VestingInfo) : Prop :=
  (v1.endingBlock ≤ s.now → s.lockedNow v1 = 0) ∧ (v2.endingBlock ≤ s.now → s.lockedNow v2 = 0) ∧
    (s.now < v1.endingBlock → s.now < v2.endingBlock →
      s.lockedNow v1 + s.lockedNow v2 ≤ u128Max)

/-- Nothing has been unlocked since the lock was laid, if the cliff is still ahead. -/
def NothingUnlocked (who : AccountId) (total : ℕ) : Prop :=
  s.BeforeCliff who → s.lock who ≤ min total u128Max

end State

def UnlocksNothing (s : State cfg) : Origin AccountId × Call cfg → Prop
  | (.signed who, .mergeSchedules index1 index2) =>
    index1 = index2 ∨
      (∀ schedules v1 v2, s.vesting.get who = some schedules → schedules[index1]? = some v1 →
        schedules[index2]? = some v2 → s.MergesWhole v1 v2) ∧
      s.NothingUnlocked who (s.totalLocked who)
  | (_, .vestedTransfer target schedule) | (_, .forceVestedTransfer _ target schedule) =>
    s.NothingUnlocked target (s.totalLocked target + s.lockedNow schedule)
  | (_, .setVestingPerBlock target _ _) => s.NothingUnlocked target (s.totalLocked target)
  | _ => True

/-! What an update writes. -/

theorem foldl_saturatingAdd (f : VestingInfo → ℕ) (l : List VestingInfo) (a : ℕ)
    (ha : a ≤ u128Max) :
    l.foldl (fun total v => U128.saturatingAdd total (f v)) a =
      min (a + (l.map f).sum) u128Max := by
  induction l generalizing a with
  | nil => exact (Nat.min_eq_left ha).symm
  | cons v l ih =>
    simp only [List.foldl_cons, List.map_cons, List.sum_cons]
    rw [ih (U128.saturatingAdd a (f v)) (Nat.min_le_right _ _)]
    simp only [U128.saturatingAdd]
    omega

theorem totalOf_filter (s : State cfg) (l : List VestingInfo) :
    s.totalOf (l.filter fun v => s.lockedNow v ≠ 0) = s.totalOf l := by
  induction l with
  | nil => rfl
  | cons v l ih =>
    by_cases hv : s.lockedNow v = 0
    · rw [List.filter_cons_of_neg (by simpa using hv), ih]
      simp [State.totalOf, hv]
    · rw [List.filter_cons_of_pos (by simpa using hv)]
      simp only [State.totalOf, List.map_cons, List.sum_cons] at ih ⊢
      rw [ih]

theorem totalOf_append (s : State cfg) (l l' : List VestingInfo) :
    s.totalOf (l ++ l') = s.totalOf l + s.totalOf l' := by
  simp [State.totalOf]

theorem totalOf_singleton (s : State cfg) (v : VestingInfo) : s.totalOf [v] = s.lockedNow v := by
  simp [State.totalOf]

theorem pickSchedules_passive (l : List VestingInfo) :
    VestingAction.pickSchedules .passive l = l := by
  simp [VestingAction.pickSchedules, VestingAction.shouldRemove]

theorem totalOf_pickSchedules_merge (s : State cfg) (hne : index1 ≠ index2)
    (h1 : l[index1]? = some v1) (h2 : l[index2]? = some v2) :
    s.totalOf (VestingAction.pickSchedules (.merge index1 index2) l) + s.lockedNow v2 +
      s.lockedNow v1 = s.totalOf l := by
  have hsum := Sums.sum_filter_zipIdx_two hne h1 h2 s.lockedNow
  simp only [decide_not] at hsum
  exact hsum

theorem reportScheduleUpdates_snd (s : State cfg) (l : List VestingInfo) (action : VestingAction) :
    (s.reportScheduleUpdates l action).2 = min (s.totalOf (action.pickSchedules l)) u128Max := by
  have hfold := foldl_saturatingAdd s.lockedNow
    ((action.pickSchedules l).filter fun v => s.lockedNow v ≠ 0) 0 (Nat.zero_le _)
  rw [Nat.zero_add] at hfold
  have hfilter := totalOf_filter s (action.pickSchedules l)
  unfold State.totalOf at hfilter ⊢
  rw [← hfilter]
  exact hfold

theorem totalOf_reportScheduleUpdates (s : State cfg) (l : List VestingInfo)
    (action : VestingAction) :
    s.totalOf (s.reportScheduleUpdates l action).1 = s.totalOf (action.pickSchedules l) :=
  totalOf_filter s _

/-- An update writes the schedules and the lock of one account. -/
structure Updated (s : State cfg) (who : AccountId) (schedules : List VestingInfo) (total : ℕ)
    (s' : State cfg) : Prop where
  vestingStartAt : s'.vestingStartAt = s.vestingStartAt
  now : s'.now = s.now
  cliff : s'.cliff = s.cliff
  vesting : (s'.vesting.get who).getD [] = schedules
  lock : s'.lock = Function.update s.lock who total

theorem writeLock_updated (s : State cfg) (who : AccountId) (total : ℕ) :
    (s.writeLock who total).lock = Function.update s.lock who total := by
  funext x
  unfold State.writeLock State.lock
  simp only
  split
  · rename_i hzero
    rw [cfg.currency.lock_removeLock, hzero]
  · rename_i hpos
    rw [cfg.currency.lock_setLock _ _ _ hpos]

theorem update_updated {action : VestingAction} (h : s.update who l action = .ok s') :
    ∃ schedules total, s.execAction l action = .ok (schedules, total) ∧
      Updated s who schedules total s' := by
  simp only [State.update, State.writeVesting, bind_eq_ok, ensure_eq_ok, exists_const, pure_eq_ok]
    at h
  obtain ⟨⟨schedules, total⟩, hexec, s1, ⟨-, rfl⟩, rfl⟩ := h
  refine ⟨schedules, total, hexec, rfl, rfl, rfl, ?_, writeLock_updated _ who total⟩
  simp only [State.writeLock, Table.get_write_self]
  split
  · rename_i hnil
    rw [hnil]
    rfl
  · rfl

namespace Updated

theorem lock_self (h : Updated s who l total s') : s'.lock who = total := by
  rw [h.lock, Function.update_self]

theorem lock_other {x : AccountId} (h : Updated s who l total s') (hx : x ≠ who) :
    s'.lock x = s.lock x := by
  rw [h.lock, Function.update_of_ne hx]

theorem lockedNow (h : Updated s who l total s') : s'.lockedNow = s.lockedNow := by
  funext v
  simp only [State.lockedNow, State.startOf, h.now, h.vestingStartAt]

theorem totalOf (h : Updated s who l total s') : s'.totalOf = s.totalOf := by
  funext l
  simp only [State.totalOf, h.lockedNow]

theorem totalLocked (h : Updated s who l total s') : s'.totalLocked who = s.totalOf l := by
  rw [State.totalLocked, h.vesting, h.totalOf]

theorem trans {l' : List VestingInfo} {total' : ℕ} {vesting : Table AccountId (List VestingInfo)}
    {s1 : State cfg} (h : Updated s who l total s1)
    (h' : Updated { s1 with vesting } who l' total' s') : Updated s who l' total' s' where
  vestingStartAt := h'.vestingStartAt.trans h.vestingStartAt
  now := h'.now.trans h.now
  cliff := h'.cliff.trans h.cliff
  vesting := h'.vesting
  lock := by
    have hlock : State.lock { s1 with vesting } = s1.lock := rfl
    rw [h'.lock, hlock, h.lock, Function.update_idem]

theorem locksKept_iff (h : Updated s who l total s') :
    LocksKept s s' ↔ (s.BeforeCliff who → s.lock who ≤ total) := by
  constructor
  · intro hkept hcliff
    have hle := hkept who hcliff
    rw [h.lock_self] at hle
    exact hle
  · intro hkept x hcliff
    rcases eq_or_ne x who with rfl | hx
    · rw [h.lock_self]
      exact hkept hcliff
    · rw [h.lock_other hx]

end Updated

theorem update_passive (h : s.update who l .passive = .ok s') :
    ∃ kept, Updated s who kept (min (s.totalOf l) u128Max) s' ∧ s.totalOf kept = s.totalOf l ∧
      kept = l.filter fun v => s.lockedNow v ≠ 0 := by
  obtain ⟨kept, total, hexec, hupdated⟩ := update_updated h
  simp only [State.execAction, pure_eq_ok] at hexec
  have htotal := reportScheduleUpdates_snd s l .passive
  have hkept := totalOf_reportScheduleUpdates s l .passive
  rw [hexec, pickSchedules_passive] at htotal hkept
  simp only at htotal hkept
  subst htotal
  refine ⟨kept, hupdated, hkept, ?_⟩
  have hfst := congrArg Prod.fst hexec
  simp only [State.reportScheduleUpdates, pickSchedules_passive] at hfst
  exact hfst.symm

theorem doVest_updated (h : s.doVest who = .ok s') :
    ∃ l kept, s.vesting.get who = some l ∧ Updated s who kept (min (s.totalOf l) u128Max) s' ∧
      s.totalOf kept = s.totalOf l ∧ kept = l.filter fun v => s.lockedNow v ≠ 0 := by
  simp only [State.doVest, bind_eq_ok, okOr_eq_ok] at h
  obtain ⟨l, hl, hupdate⟩ := h
  obtain ⟨kept, hspec⟩ := update_passive hupdate
  exact ⟨l, kept, hl, hspec⟩

/-! The calls. -/

theorem vest_locksKept (h : s.vest who = .ok s') : LocksKept s s' := by
  simp only [State.vest, bind_eq_ok] at h
  obtain ⟨s1, hcheck, hvest⟩ := h
  obtain ⟨l, kept, -, hupdated, -⟩ := doVest_updated hvest
  have hpast : s1.lock = s.lock ∧ ¬s.BeforeCliff who := by
    unfold State.checkCliff at hcheck
    split at hcheck
    · rename_i cliffBlock hget
      simp only [bind_eq_ok, ensure_eq_ok, exists_const, pure_eq_ok] at hcheck
      obtain ⟨hpassed, rfl⟩ := hcheck
      refine ⟨rfl, ?_⟩
      rintro ⟨block, hblock, hnow⟩
      rw [hget] at hblock
      cases hblock
      omega
    · rename_i hget
      cases hcheck
      refine ⟨rfl, ?_⟩
      rintro ⟨block, hblock, -⟩
      rw [hget] at hblock
      cases hblock
  intro x hcliff
  have hx : x ≠ who := by
    rintro rfl
    exact hpast.2 hcliff
  rw [hupdated.lock_other hx, hpast.1]

theorem lockedNow_corrected (s : State cfg) (schedule : VestingInfo) :
    s.lockedNow { schedule with perBlock := schedule.perBlockMin } = s.lockedNow schedule := by
  have hmin : VestingInfo.perBlockMin { schedule with perBlock := schedule.perBlockMin } =
      schedule.perBlockMin := Nat.max_eq_left schedule.perBlockMin_pos
  unfold State.lockedNow State.startOf
  cases s.vestingStartAt with
  | none => rfl
  | some st => simp only [Option.map_some, VestingInfo.lockedAt_some, hmin]

theorem doVestedTransfer_locksKept_iff {source target : AccountId} {schedule : VestingInfo}
    (h : s.doVestedTransfer source target schedule = .ok s') :
    LocksKept s s' ↔ s.NothingUnlocked target (s.totalLocked target + s.lockedNow schedule) := by
  simp only [State.doVestedTransfer, State.canAddVestingSchedule, bind_eq_ok, ensure_eq_ok,
    exists_const, mapErr_eq_ok] at h
  obtain ⟨-, hvalid, -, ledger, htransfer, hadd⟩ := h
  have hlock := cfg.currency.lock_transfer htransfer
  have hlocked : schedule.locked ≠ 0 := by
    simp only [VestingInfo.isValid, decide_eq_true_eq] at hvalid
    exact hvalid.1
  simp only [State.addVestingSchedule, if_neg hlocked, bind_eq_ok, ensure_eq_ok, exists_const]
    at hadd
  obtain ⟨kept, hupdated, -⟩ := update_passive hadd.2.2
  have hsame : LocksKept s s' ↔ LocksKept { s with ledger } s' := by
    unfold LocksKept State.lock
    rw [hlock]
    rfl
  have hbefore : State.lock { s with ledger } target = s.lock target := congrFun hlock target
  have htotal : State.totalOf { s with ledger } (((s.vesting.get target).getD []) ++
      [{ schedule with perBlock := schedule.perBlockMin }]) =
      s.totalLocked target + s.lockedNow schedule := by
    rw [totalOf_append, totalOf_singleton, lockedNow_corrected]
    rfl
  rw [hsame, hupdated.locksKept_iff, hbefore, htotal]
  rfl

theorem lockedNow_of_remained {v new : VestingInfo} {st : ℕ} (hst : s.vestingStartAt = some st)
    (hlocked : new.locked = s.lockedNow v)
    (hstart : new.startingBlock =
      if U32.saturatingAdd st v.startingBlock < s.now then s.now - st else v.startingBlock) :
    s.lockedNow new = s.lockedNow v := by
  have hnow := s.now_le
  rw [← hlocked]
  simp only [State.lockedNow, State.startOf, hst, Option.map_some]
  apply new.lockedAt_of_not_started
  rw [hstart]
  split
  · simp only [U32.saturatingAdd] at *
    omega
  · omega

theorem totalOf_set (s : State cfg) {index : ℕ} {v new : VestingInfo} (hget : l[index]? = some v)
    (hnew : s.lockedNow new = s.lockedNow v) : s.totalOf (l.set index new) = s.totalOf l := by
  obtain ⟨hindex, rfl⟩ := List.getElem?_eq_some_iff.mp hget
  have hmap : (l.set index new).map s.lockedNow = l.map s.lockedNow := by
    rw [List.map_set, hnew, ← List.map_set, List.set_getElem_self]
  simp only [State.totalOf, hmap]

theorem setVestingPerBlock_updated {target : AccountId} {index perBlock : ℕ}
    (h : s.setVestingPerBlock target index perBlock = .ok s') :
    ∃ kept, Updated s target kept (min (s.totalLocked target) u128Max) s' := by
  simp only [State.setVestingPerBlock, bind_eq_ok, okOr_eq_ok, ensure_eq_ok, exists_const] at h
  obtain ⟨s1, hfirst, schedules, hschedules, schedule, hschedule, -, st, hst, h⟩ := h
  obtain ⟨l, kept, hl, hupdated, htotal, -⟩ := doVest_updated hfirst
  have hkept : schedules = kept := by
    have hvesting := hupdated.vesting
    rw [hschedules] at hvesting
    exact hvesting
  split at h
  · obtain ⟨l', kept', hl', hupdated', -⟩ := doVest_updated h
    simp only [Table.get_write_self, Option.some.injEq] at hl'
    have hsecond : State.totalOf { s1 with
        vesting := s1.vesting.write target (some l') } l' = s1.totalOf l' := rfl
    have hsum : s1.totalOf l' = s.totalLocked target := by
      rw [← hl', totalOf_set s1 hschedule, hkept, hupdated.totalOf, htotal, State.totalLocked, hl]
      · rfl
      · apply lockedNow_of_remained hst
        · simp only [State.lockedNow, State.startOf, hst, Option.map_some]
        · rfl
    rw [hl', hsecond, hsum] at hupdated'
    exact ⟨kept', hupdated.trans hupdated'⟩
  · cases h

def mergedTotal (s : State cfg) (v1 v2 : VestingInfo) : ℕ :=
  (s.mergeVestingInfo v1 v2).elim 0 s.lockedNow

theorem mergedTotal_eq_iff (s : State cfg) (v1 v2 : VestingInfo) :
    mergedTotal s v1 v2 = s.lockedNow v1 + s.lockedNow v2 ↔ s.MergesWhole v1 v2 := by
  unfold mergedTotal State.MergesWhole
  rcases Nat.lt_or_ge s.now v1.endingBlock with h1 | h1 <;>
    rcases Nat.lt_or_ge s.now v2.endingBlock with h2 | h2
  · simp only [State.mergeVestingInfo, if_neg (Nat.not_le.mpr h1), if_neg (Nat.not_le.mpr h2),
      Option.elim_some]
    rw [State.lockedNow_eq_locked (by simp only; omega)]
    simp only [U128.saturatingAdd]
    omega
  · simp only [State.mergeVestingInfo, if_neg (Nat.not_le.mpr h1), if_pos h2, Option.elim_some]
    omega
  · simp only [State.mergeVestingInfo, if_pos h1, if_neg (Nat.not_le.mpr h2), Option.elim_some]
    omega
  · simp only [State.mergeVestingInfo, if_pos h1, if_pos h2, Option.elim_none]
    omega

theorem mergedEndsLast_of_mergesWhole (hget : s.vesting.get who = some l)
    (h1 : l[index1]? = some v1) (h2 : l[index2]? = some v2) (h : s.MergesWhole v1 v2) :
    s.MergedEndsLast who index1 index2 := by
  obtain ⟨hended1, hended2, hsum⟩ := h
  intro schedules w1 w2 merged n hschedules hw1 hw2 hmerged hnow hn hzero
  obtain rfl := Option.some.inj (hget.symm.trans hschedules)
  obtain rfl := Option.some.inj (h1.symm.trans hw1)
  obtain rfl := Option.some.inj (h2.symm.trans hw2)
  have hfalls1 := State.lockedOf_le_lockedNow (v := v1) hnow
  have hfalls2 := State.lockedOf_le_lockedNow (v := v2) hnow
  rcases Nat.lt_or_ge s.now v1.endingBlock with hrun1 | hend1 <;>
    rcases Nat.lt_or_ge s.now v2.endingBlock with hrun2 | hend2
  · obtain ⟨merged', hmerged', hspec⟩ :=
      State.mergeVestingInfo_of_running hrun1 hrun2 (hsum hrun1 hrun2)
    obtain rfl := Option.some.inj (hmerged'.symm.trans hmerged)
    exact hspec.ends hnow hn hzero
  · simp only [State.mergeVestingInfo, if_neg (Nat.not_le.mpr hrun1), if_pos hend2,
      Option.some.injEq] at hmerged
    subst hmerged
    have hnone := hended2 hend2
    omega
  · simp only [State.mergeVestingInfo, if_pos hend1, if_neg (Nat.not_le.mpr hrun2),
      Option.some.injEq] at hmerged
    subst hmerged
    have hnone := hended1 hend1
    omega
  · simp only [State.mergeVestingInfo, if_pos hend1, if_pos hend2, reduceCtorEq] at hmerged

theorem mergeSchedules_updated (hne : index1 ≠ index2)
    (h : s.mergeSchedules who index1 index2 = .ok s') :
    ∃ l v1 v2 kept, s.vesting.get who = some l ∧ l[index1]? = some v1 ∧ l[index2]? = some v2 ∧
      Updated s who kept (min (s.totalOf kept) u128Max) s' ∧
      s.totalOf kept + (s.lockedNow v1 + s.lockedNow v2) = s.totalOf l + mergedTotal s v1 v2 := by
  simp only [State.mergeSchedules, if_neg hne, bind_eq_ok, okOr_eq_ok] at h
  obtain ⟨l, hl, hupdate⟩ := h
  obtain ⟨schedules, total, hexec, hupdated⟩ := update_updated hupdate
  simp only [State.execAction, bind_eq_ok, okOr_eq_ok] at hexec
  obtain ⟨v1, h1, v2, h2, hexec⟩ := hexec
  have htotal := reportScheduleUpdates_snd s l (.merge index1 index2)
  have hkept := totalOf_reportScheduleUpdates s l (.merge index1 index2)
  have hpick := totalOf_pickSchedules_merge s hne h1 h2
  rw [← hkept] at htotal hpick
  refine ⟨l, v1, v2, schedules, hl, h1, h2, ?_⟩
  unfold mergedTotal
  split at hexec
  · rename_i merged hmerged
    simp only [pure_eq_ok, Prod.mk.injEq] at hexec
    obtain ⟨rfl, rfl⟩ := hexec
    rw [totalOf_append, totalOf_singleton]
    rw [htotal] at hupdated
    have hwhole : U128.saturatingAdd
        (min (s.totalOf (s.reportScheduleUpdates l (.merge index1 index2)).1) u128Max)
        (s.lockedNow merged) = min (s.totalOf (s.reportScheduleUpdates l
          (.merge index1 index2)).1 + s.lockedNow merged) u128Max := by
      simp only [U128.saturatingAdd]
      omega
    rw [hwhole] at hupdated
    refine ⟨hupdated, ?_⟩
    rw [hmerged, Option.elim_some]
    omega
  · rename_i hmerged
    simp only [pure_eq_ok, Prod.mk.injEq] at hexec
    obtain ⟨rfl, rfl⟩ := hexec
    rw [htotal] at hupdated
    refine ⟨hupdated, ?_⟩
    rw [hmerged, Option.elim_none]
    omega

theorem mergeSchedules_notEarly_iff (h : s.mergeSchedules who index1 index2 = .ok s') :
    NotEarly s (.signed who, .mergeSchedules index1 index2) s' ↔
      UnlocksNothing s (.signed who, .mergeSchedules index1 index2) := by
  simp only [NotEarly, UnlocksNothing]
  rcases eq_or_ne index1 index2 with rfl | hne
  · simp only [State.mergeSchedules, if_true, pure_eq_ok] at h
    subst h
    exact iff_of_true ⟨rfl, fun hne => absurd rfl hne, fun _ _ => Nat.le_refl _⟩ (.inl rfl)
  · obtain ⟨l, v1, v2, kept, hl, h1, h2, hupdated, hbalance⟩ := mergeSchedules_updated hne h
    have hbefore : s.totalLocked who = s.totalOf l := by
      rw [State.totalLocked, hl]
      rfl
    have hwhole : s'.totalLocked who = s.totalLocked who ↔ s.MergesWhole v1 v2 := by
      rw [hupdated.totalLocked, hbefore, ← mergedTotal_eq_iff]
      omega
    rw [hwhole, hupdated.locksKept_iff]
    constructor
    · rintro ⟨hmerges, -, hlock⟩
      refine .inr ⟨?_, ?_⟩
      · intro schedules w1 w2 hschedules hw1 hw2
        obtain rfl := Option.some.inj (hl.symm.trans hschedules)
        obtain rfl := Option.some.inj (h1.symm.trans hw1)
        obtain rfl := Option.some.inj (h2.symm.trans hw2)
        exact hmerges
      · have hsame := hwhole.mpr hmerges
        rw [hupdated.totalLocked] at hsame
        rw [hsame] at hlock
        exact hlock
    · rintro (rfl | ⟨hmerges, hlock⟩)
      · exact absurd rfl hne
      · have hmerges := hmerges l v1 v2 hl h1 h2
        refine ⟨hmerges, fun _ => mergedEndsLast_of_mergesWhole hl h1 h2 hmerges, ?_⟩
        have hsame := hwhole.mpr hmerges
        rw [hupdated.totalLocked] at hsame
        rw [hsame]
        exact hlock

/-- No call unlocks early just where a merge drops nothing and, with the cliff ahead, nothing has
been unlocked since the lock was laid. -/
theorem not_early_iff {o : Origin AccountId} {c : Call cfg} (h : step s (o, c) = .ok s') :
    NotEarly s (o, c) s' ↔ UnlocksNothing s (o, c) := by
  have same {x : State cfg} (hlock : x.lock = s.lock) : LocksKept s x := by
    intro who _
    rw [hlock]
  cases o <;> cases c <;> simp only [step, reduceCtorEq] at h
  case signed.vest who => exact iff_of_true (vest_locksKept h) trivial
  case signed.vestOther who target => exact iff_of_true (vest_locksKept h) trivial
  case signed.vestedTransfer who target schedule => exact doVestedTransfer_locksKept_iff h
  case signed.mergeSchedules who index1 index2 => exact mergeSchedules_notEarly_iff h
  case signed.outside who world =>
    cases h
    exact iff_of_true (same (world.keeps_lock s.ledger)) trivial
  case root.forceVestedTransfer source target schedule => exact doVestedTransfer_locksKept_iff h
  case root.initVestingStartAt vestingStartAt =>
    cases h
    exact iff_of_true (same rfl) trivial
  case root.setVestingPerBlock target index perBlock =>
    obtain ⟨kept, hupdated⟩ := setVestingPerBlock_updated h
    exact hupdated.locksKept_iff
  case root.forceSetCliff target cliffBlock =>
    cases h
    exact iff_of_true (same rfl) trivial
  case root.outside world =>
    cases h
    exact iff_of_true (same (world.keeps_lock s.ledger)) trivial

namespace Sample

def currency : Currency ℕ where
  Ledger := (ℕ → ℕ) × (ℕ → ℕ)
  lock L := L.2
  transfer L source target n :=
    if L.1 source < n then .error .balanceTooLow
    else
      let debited := Function.update L.1 source (L.1 source - n)
      .ok (Function.update debited target (debited target + n), L.2)
  setLock L who n := (L.1, Function.update L.2 who n)
  removeLock L who := (L.1, Function.update L.2 who 0)
  lock_transfer := by
    intro L L' a b n h
    split at h
    · cases h
    · cases h
      rfl
  lock_setLock _ _ _ _ := rfl
  lock_removeLock _ _ := rfl

def config : Config ℕ where
  currency := currency
  minVestedTransfer := 1
  maxVestingSchedules := 28

def schedule (locked perBlock : ℕ) (h : locked ≤ u128Max := by decide) : VestingInfo where
  locked := locked
  perBlock := perBlock
  startingBlock := 0
  locked_le := h
  startingBlock_le := Nat.zero_le _

/-- Account 1 vests behind a cliff of block 20, with what its schedules lock at first. -/
def state (vestingStartAt : Option ℕ) (schedules : List VestingInfo) (now : ℕ)
    (h : now ≤ u32Max := by decide) : State config where
  vestingStartAt
  cliff := Table.ofList [(1, 20)]
  vesting := Table.ofList [(1, schedules)]
  ledger := (fun _ => 1000, Function.update (fun _ => 0) 1 (schedules.map VestingInfo.locked).sum)
  now
  now_le := h

end Sample

theorem not_early_sample :
    ∃ s', step (Sample.state (some 8) [Sample.schedule 90 10, Sample.schedule 60 10] 5)
        (.signed 1, .mergeSchedules 0 1) = .ok s' ∧
      (NotEarly (Sample.state (some 8) [Sample.schedule 90 10, Sample.schedule 60 10] 5)
          (.signed 1, .mergeSchedules 0 1) s' ↔
        UnlocksNothing (Sample.state (some 8) [Sample.schedule 90 10, Sample.schedule 60 10] 5)
          (.signed 1, .mergeSchedules 0 1)) :=
  ⟨_, rfl, not_early_iff rfl⟩

/-- Before the common start is set everything is locked, and two schedules that have ended by their
own ends are dropped with all of it; and a small transfer to an account before its cliff unlocks
what has vested. -/
theorem merge_and_transfer_unlock :
    (∃ s', step (Sample.state none [Sample.schedule 100 100, Sample.schedule 100 100] 10)
        (.signed 1, .mergeSchedules 0 1) = .ok s' ∧
      ¬NotEarly (Sample.state none [Sample.schedule 100 100, Sample.schedule 100 100] 10)
        (.signed 1, .mergeSchedules 0 1) s') ∧
    ∃ s', step (Sample.state (some 0) [Sample.schedule 100 10] 5)
        (.signed 2, .vestedTransfer 1 (Sample.schedule 10 1)) = .ok s' ∧
      ¬NotEarly (Sample.state (some 0) [Sample.schedule 100 10] 5)
        (.signed 2, .vestedTransfer 1 (Sample.schedule 10 1)) s' := by
  refine ⟨⟨_, rfl, ?_⟩, _, rfl, ?_⟩
  · rintro ⟨htotal, -⟩
    exact absurd htotal (by decide)
  · intro hkept
    exact absurd (hkept 1 ⟨20, rfl, by decide⟩) (by decide)

end Bifrost.Vesting
