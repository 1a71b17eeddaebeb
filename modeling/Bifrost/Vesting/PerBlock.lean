import Bifrost.Vesting.EarlyUnlock

/-!
# Another amount per block

The call drops the schedules that have ended before it takes the one at its index, so that a
schedule that has ended at or before that index moves the change to another one. A merge takes its
indices before. An amount of zero is read as one.
-/

namespace Bifrost.Vesting

open Result
set_option autoImplicit false

/-! Positions in a list of which some entries are dropped. -/

section Positions

variable {α : Type} {p : α → Bool}

theorem getElem?_filter {l : List α} {i : ℕ} {a : α} (h : l[i]? = some a) (ha : p a = true) :
    (l.filter p)[(l.take i).countP p]? = some a := by
  induction l generalizing i with
  | nil => simp at h
  | cons b l ih =>
    cases i with
    | zero =>
      simp only [List.getElem?_cons_zero, Option.some.injEq] at h
      subst h
      simp [ha]
    | succ i =>
      rw [List.getElem?_cons_succ] at h
      by_cases hb : p b = true
      · simp [hb, ih h]
      · simp [hb, ih h]

theorem filter_set {l : List α} {i : ℕ} {a b : α} (h : l[i]? = some a) (ha : p a = true)
    (hb : p b = true) : (l.set i b).filter p = (l.filter p).set ((l.take i).countP p) b := by
  induction l generalizing i with
  | nil => simp at h
  | cons c l ih =>
    cases i with
    | zero =>
      simp only [List.getElem?_cons_zero, Option.some.injEq] at h
      subst h
      simp [ha, hb]
    | succ i =>
      rw [List.getElem?_cons_succ] at h
      by_cases hc : p c = true
      · simp [hc, ih h]
      · simp [hc, ih h]

theorem countP_take_eq_iff {l : List α} {i : ℕ} (hi : i ≤ l.length) :
    (l.take i).countP p = i ↔ ∀ a ∈ l.take i, p a = true := by
  have hlength : (l.take i).length = i := List.length_take_of_le hi
  rw [← List.countP_eq_length, hlength]

end Positions

variable {AccountId : Type} [DecidableEq AccountId] {cfg : Config AccountId} {s s' : State cfg}
  {target : AccountId} {l kept : List VestingInfo} {index perBlock : ℕ} {v new : VestingInfo}

/-! What is promised, and when it is kept. -/

namespace State

variable (s : State cfg)

/-- The schedule still locks something. -/
def runs (v : VestingInfo) : Bool := s.lockedNow v ≠ 0

def running (l : List VestingInfo) : List VestingInfo := l.filter s.runs

/-- No schedule up to the index has ended. -/
def IndexStays (target : AccountId) (index : ℕ) : Prop :=
  ∀ l, s.vesting.get target = some l → ∀ v ∈ l.take (index + 1), s.lockedNow v ≠ 0

end State

/-- The schedule that was at the index locks what it locked and falls by the new amount per block,
not before its start; every other one is as it was, or has ended. -/
def Repaced (s : State cfg) (target : AccountId) (index perBlock : ℕ) (s' : State cfg) : Prop :=
  ∃ l v new start, s.vesting.get target = some l ∧ l[index]? = some v ∧
    s.startOf v = some start ∧ s'.vesting.get target = some (s.running (l.set index new)) ∧
    new ∈ s.running (l.set index new) ∧ s'.lockedNow new = s.lockedNow v ∧
    (∀ n, s.now ≤ n →
      s'.lockedOf n new = s.lockedNow v - perBlock * (n - max s.now start)) ∧
    (∀ w, s'.lockedNow w = s.lockedNow w) ∧
    ∀ other, other ≠ target → s'.vesting.get other = s.vesting.get other

/-! What the call does. -/

theorem doVest_vesting (h : s.doVest target = .ok s') : ∃ l, s.vesting.get target = some l ∧
    s'.vesting = s.vesting.write target (if s.running l = [] then none else some (s.running l)) ∧
    s'.vestingStartAt = s.vestingStartAt ∧ s'.now = s.now := by
  simp only [State.doVest, State.update, State.execAction, State.reportScheduleUpdates,
    pickSchedules_passive, State.writeVesting, bind_eq_ok, okOr_eq_ok, ensure_eq_ok, pure_eq_ok,
    exists_const, Prod.exists, Prod.mk.injEq] at h
  obtain ⟨l, hl, schedules, total, ⟨rfl, -⟩, s1, ⟨-, rfl⟩, rfl⟩ := h
  exact ⟨l, hl, rfl, rfl, rfl⟩

theorem runs_iff : s.runs v = true ↔ s.lockedNow v ≠ 0 := decide_eq_true_iff

theorem mem_running : v ∈ s.running l ↔ v ∈ l ∧ s.lockedNow v ≠ 0 := by
  rw [State.running, List.mem_filter, runs_iff]

theorem lockedNow_congr (hstart : s'.vestingStartAt = s.vestingStartAt) (hnow : s'.now = s.now) :
    s'.lockedNow = s.lockedNow := by
  funext v
  simp only [State.lockedNow, State.startOf, hstart, hnow]

theorem running_congr (hstart : s'.vestingStartAt = s.vestingStartAt) (hnow : s'.now = s.now) :
    s'.running = s.running := by
  funext l
  have hruns : s'.runs = s.runs := by
    funext v
    simp only [State.runs, lockedNow_congr hstart hnow]
  rw [State.running, hruns, State.running]

theorem saturatingAdd_rebased {now : ℕ} (hnow : now ≤ u32Max) (st offset : ℕ) :
    U32.saturatingAdd st (if U32.saturatingAdd st offset < now then now - st else offset) =
      max now (U32.saturatingAdd st offset) := by
  unfold U32.saturatingAdd
  by_cases hstarted : min (st + offset) u32Max < now
  · rw [if_pos hstarted]
    omega
  · rw [if_neg hstarted]
    omega

/-- What the call puts in the place of a schedule: it starts now, or when the schedule does. -/
structure Replaces (s : State cfg) (perBlock : ℕ) (v new : VestingInfo) : Prop where
  locked : new.locked = s.lockedNow v
  perBlock_eq : new.perBlock = perBlock
  differs : v.perBlockMin ≠ perBlock
  startOf : ∃ start, s.startOf v = some start ∧ s.startOf new = some (max s.now start)

namespace Replaces

theorem lockedNow (h : Replaces s perBlock v new) : s.lockedNow new = s.lockedNow v := by
  obtain ⟨start, -, hnew⟩ := h.startOf
  rw [State.lockedNow, hnew, new.lockedAt_of_not_started (Nat.le_max_left _ _), h.locked]

theorem lockedOf (h : Replaces s perBlock v new) : ∃ start, s.startOf v = some start ∧
    ∀ n, s.lockedOf n new = s.lockedNow v - new.perBlockMin * (n - max s.now start) := by
  obtain ⟨start, hstart, hnew⟩ := h.startOf
  refine ⟨start, hstart, fun n => ?_⟩
  rw [State.lockedOf, hnew, VestingInfo.lockedAt_some, h.locked, Nat.mul_comm]

end Replaces

theorem setVestingPerBlock_ok (h : s.setVestingPerBlock target index perBlock = .ok s') :
    ∃ l v new, s.vesting.get target = some l ∧ (s.running l)[index]? = some v ∧
      Replaces s perBlock v new ∧
      s'.vesting.get target = some ((s.running l).set index new) ∧
      (∀ other, other ≠ target → s'.vesting.get other = s.vesting.get other) ∧
      s'.vestingStartAt = s.vestingStartAt ∧ s'.now = s.now := by
  simp only [State.setVestingPerBlock, bind_eq_ok, okOr_eq_ok, ensure_eq_ok, exists_const] at h
  obtain ⟨s1, hfirst, schedules, hschedules, schedule, hschedule, hdiffers, st, hst, h⟩ := h
  obtain ⟨l, hl, hvesting, hstart, hnow⟩ := doVest_vesting hfirst
  have hkept : schedules = s.running l := by
    rw [hvesting, Table.get_write_self] at hschedules
    split at hschedules
    · contradiction
    · exact (Option.some.inj hschedules).symm
  subst hkept
  rw [hstart] at hst
  have hstartOf : s.startOf schedule = some (U32.saturatingAdd st schedule.startingBlock) := by
    rw [State.startOf, hst]
    rfl
  have hremained : schedule.lockedAt s1.now
      (some (U32.saturatingAdd st schedule.startingBlock)) = s.lockedNow schedule := by
    rw [hnow, State.lockedNow, hstartOf]
  split at h
  · rename_i hle
    obtain ⟨l', hl', hvesting', hstart', hnow'⟩ := doVest_vesting h
    rw [Table.get_write_self, Option.some.injEq] at hl'
    generalize hnew : (VestingInfo.mk _ perBlock _ _ _) = new at hl' hvesting'
    have hreplaces : Replaces s perBlock schedule new := by
      subst hnew
      refine ⟨hremained, rfl, hdiffers, _, hstartOf, ?_⟩
      rw [State.startOf, hst, Option.map_some, ← hnow]
      exact congrArg some (saturatingAdd_rebased s1.now_le st schedule.startingBlock)
    have hmem : schedule ∈ s.running l := List.mem_of_getElem? hschedule
    have hstays : s.running ((s.running l).set index new) = (s.running l).set index new := by
      apply List.filter_eq_self.mpr
      intro w hw
      rw [runs_iff]
      rcases List.mem_or_eq_of_mem_set hw with hold | rfl
      · exact (mem_running.mp hold).2
      · rw [hreplaces.lockedNow]
        exact (mem_running.mp hmem).2
    have hsame (vesting : Table AccountId (List VestingInfo)) :
        State.running { s1 with vesting } = s.running := running_congr hstart hnow
    have hnonempty : (s.running l).set index new ≠ [] := by
      intro hnil
      rw [List.set_eq_nil_iff] at hnil
      rw [hnil] at hmem
      exact List.not_mem_nil hmem
    rw [hsame, ← hl', hstays, if_neg hnonempty] at hvesting'
    refine ⟨l, schedule, new, hl, hschedule, hreplaces, ?_, fun other hother => ?_,
      hstart'.trans hstart, hnow'.trans hnow⟩
    · rw [hvesting', Table.get_write_self]
    · rw [hvesting', Table.get_write_ne _ _ hother, Table.get_write_ne _ _ hother, hvesting,
        Table.get_write_ne _ _ hother]
  · cases h

theorem isSome_of_startOf {start : ℕ} (h : s.startOf v = some start) :
    s.vestingStartAt.isSome = true := by
  obtain ⟨st, hst, -⟩ := Option.map_eq_some_iff.mp h
  rw [hst]
  rfl

theorem State.unlocked_in_the_end (hstart : s.vestingStartAt.isSome = true) (v : VestingInfo) :
    ∃ n, s.now ≤ n ∧ s.lockedOf n v = 0 := by
  obtain ⟨st, hst⟩ := Option.isSome_iff_exists.mp hstart
  refine ⟨s.now + U32.saturatingAdd st v.startingBlock + v.locked, by omega, ?_⟩
  rw [State.lockedOf, State.startOf, hst, Option.map_some, VestingInfo.lockedAt_eq_zero]
  have hblocks : v.locked ≤ s.now + U32.saturatingAdd st v.startingBlock + v.locked -
      U32.saturatingAdd st v.startingBlock := by omega
  exact (Nat.le_mul_of_pos_right _ v.perBlockMin_pos).trans
    (Nat.mul_le_mul_right _ hblocks)

/-- The call keeps what it promises just where no schedule up to the index has ended and the new
amount is not zero. -/
theorem repaced_iff (h : step s (.root, .setVestingPerBlock target index perBlock) = .ok s') :
    Repaced s target index perBlock s' ↔ s.IndexStays target index ∧ perBlock ≠ 0 := by
  obtain ⟨l, chosen, replaced, hl, hchosen, hreplaces, hvesting, hothers, hstart, hnow⟩ :=
    setVestingPerBlock_ok h
  have hlocked : s'.lockedNow = s.lockedNow := lockedNow_congr hstart hnow
  have hlockedOf : s'.lockedOf = s.lockedOf := by
    funext n v
    simp only [State.lockedOf, State.startOf, hstart]
  have hchosen' := (mem_running.mp (List.mem_of_getElem? hchosen)).2
  have hindex : index < l.length := by
    obtain ⟨hlt, -⟩ := List.getElem?_eq_some_iff.mp hchosen
    exact hlt.trans_le (List.length_filter_le _ _)
  constructor
  · rintro ⟨l', v, new, start, hl', hv, hstartOf, hvesting', hmem, hnew, hfalls, -⟩
    obtain rfl := Option.some.inj (hl.symm.trans hl')
    have hnew' := (mem_running.mp hmem).2
    rw [hlocked] at hnew
    -- What locks something unlocks in the end, which an amount of zero does not do.
    have hperBlock : perBlock ≠ 0 := by
      rintro rfl
      obtain ⟨n, hn, hzero⟩ := s.unlocked_in_the_end (isSome_of_startOf hstartOf) new
      have hstands := hfalls n hn
      rw [hlockedOf, hzero, ← hnew, Nat.zero_mul, Nat.sub_zero] at hstands
      exact hnew' hstands.symm
    refine ⟨?_, hperBlock⟩
    have hruns : s.runs v = true := runs_iff.mpr (hnew ▸ hnew')
    have hset := filter_set hv hruns (runs_iff.mpr hnew')
    -- The one that was put in is not the one that was taken out, so its place is the index.
    have hposition : (l.take index).countP s.runs = index := by
      by_contra hmoved
      have hlists : (s.running l).set index replaced =
          (s.running l).set ((l.take index).countP s.runs) new :=
        (Option.some.inj (hvesting.symm.trans hvesting')).trans hset
      have hentry := congrArg (fun l => l[index]?) hlists
      obtain ⟨hlt, -⟩ := List.getElem?_eq_some_iff.mp hchosen
      simp only [List.getElem?_set_self hlt, List.getElem?_set_ne hmoved, hchosen,
        Option.some.injEq] at hentry
      have hsame := hreplaces.perBlock_eq
      have hdiffers := hreplaces.differs
      rw [hentry] at hsame
      rw [VestingInfo.perBlockMin, hsame] at hdiffers
      omega
    have hbefore := (countP_take_eq_iff hindex.le).mp hposition
    intro l' hl' w hw
    obtain rfl := Option.some.inj (hl.symm.trans hl')
    rw [List.take_add_one, hv, Option.toList_some, List.mem_append, List.mem_singleton] at hw
    rcases hw with hw | rfl
    · exact runs_iff.mp (hbefore w hw)
    · exact runs_iff.mp hruns
  · rintro ⟨hstays, hperBlock⟩
    have hall := hstays l hl
    have hbefore : ∀ w ∈ l.take index, s.runs w = true := fun w hw =>
      runs_iff.mpr (hall w ((List.take_subset_take_left l (Nat.le_succ index)) hw))
    have hposition := (countP_take_eq_iff hindex.le).mpr hbefore
    have hv : l[index]? = some l[index] := List.getElem?_eq_getElem hindex
    have hruns : s.runs l[index] = true := by
      apply runs_iff.mpr
      apply hall
      rw [List.take_add_one, hv]
      exact List.mem_append_right _ (List.mem_singleton_self _)
    have hplace := getElem?_filter hv hruns
    rw [hposition] at hplace
    obtain rfl := Option.some.inj (hplace.symm.trans hchosen)
    have hreplaced : s.runs replaced = true := by
      rw [runs_iff, hreplaces.lockedNow]
      exact hchosen'
    have hset := filter_set hv hruns hreplaced
    rw [hposition] at hset
    obtain ⟨start, hstartOf, hfalls⟩ := hreplaces.lockedOf
    refine ⟨l, l[index], replaced, start, hl, hv, hstartOf, ?_, ?_, ?_, fun n _ => ?_, ?_, hothers⟩
    · rw [hvesting]
      exact congrArg some hset.symm
    · rw [mem_running]
      exact ⟨List.mem_set hindex replaced, runs_iff.mp hreplaced⟩
    · rw [hlocked, hreplaces.lockedNow]
    · rw [hlockedOf, hfalls n, VestingInfo.perBlockMin, hreplaces.perBlock_eq,
        Nat.max_eq_left (Nat.pos_of_ne_zero hperBlock)]
    · intro w
      rw [hlocked]

namespace Sample

/-- The second of two schedules that started at block 8 is slowed down at block 12. -/
def slowed : State config :=
  state (some 8) [schedule 100 10, schedule 60 10] 12

/-- The first of two schedules has ended at block 12. -/
def ended : State config :=
  state (some 0) [schedule 90 10, schedule 200 10] 12

end Sample

theorem repaced_sample : ∃ s',
    step Sample.slowed (.root, .setVestingPerBlock 1 1 3) = .ok s' ∧
      (Repaced Sample.slowed 1 1 3 s' ↔ Sample.slowed.IndexStays 1 1 ∧ 3 ≠ 0) :=
  ⟨_, rfl, repaced_iff rfl⟩

/-- The change comes to the second schedule, which locks 80, and not to the one at the index. -/
theorem ended_schedule_moves_change : ∃ s',
    step Sample.ended (.root, .setVestingPerBlock 1 0 20) = .ok s' ∧
      ((s'.vesting.get 1).getD []).map VestingInfo.perBlock = [20] ∧
      ¬Repaced Sample.ended 1 0 20 s' := by
  refine ⟨_, rfl, rfl, ?_⟩
  rintro ⟨l, v, new, start, hl, hv, -, -, hmem, hnew, -⟩
  have hl' : [Sample.schedule 90 10, Sample.schedule 200 10] = l := Option.some.inj hl
  subst hl'
  have hv' : Sample.schedule 90 10 = v := Option.some.inj hv
  subst hv'
  exact (mem_running.mp hmem).2 hnew

end Bifrost.Vesting
