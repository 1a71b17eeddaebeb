import Bifrost.Lib.Sums
import Bifrost.Vesting.Pallet

/-!
# What schedules lock

The amount a schedule locks only falls. Two schedules that are merged while both still run by their
own ends give one that ends no earlier than either; one that has ended by its own end is dropped,
whatever it still locks.
-/

namespace Bifrost.Vesting

set_option autoImplicit false

variable {AccountId : Type} [DecidableEq AccountId] {cfg : Config AccountId}

namespace VestingInfo

variable (v : VestingInfo) {m n st : ℕ} {start : Option ℕ}

theorem perBlockMin_pos : 0 < v.perBlockMin := Nat.lt_of_lt_of_le Nat.one_pos (Nat.le_max_right _ _)

@[simp] theorem lockedAt_none (n : ℕ) : v.lockedAt n none = v.locked := rfl

theorem lockedAt_some (n st : ℕ) :
    v.lockedAt n (some st) = v.locked - (n - st) * v.perBlockMin := by
  have hlocked := v.locked_le
  simp only [lockedAt]
  split
  · split
    · rename_i toUnlock hunlock
      rw [(U128.checkedMul_eq_some.mp hunlock).1]
    · rename_i hover
      simp only [U128.checkedMul, ite_eq_right_iff, reduceCtorEq, imp_false] at hover
      omega
  · rename_i hstart
    rw [Nat.sub_eq_zero_of_le (Nat.le_of_not_lt hstart)]
    simp

theorem lockedAt_of_not_started (h : n ≤ st) : v.lockedAt n (some st) = v.locked := by
  rw [lockedAt_some, Nat.sub_eq_zero_of_le h]
  simp

theorem lockedAt_anti (h : m ≤ n) : v.lockedAt n start ≤ v.lockedAt m start := by
  cases start with
  | none => exact Nat.le_refl _
  | some st =>
    rw [lockedAt_some, lockedAt_some]
    have hvested : (m - st) * v.perBlockMin ≤ (n - st) * v.perBlockMin :=
      Nat.mul_le_mul_right _ (Nat.sub_le_sub_right h st)
    omega

theorem lockedAt_eq_zero : v.lockedAt n (some st) = 0 ↔ v.locked ≤ (n - st) * v.perBlockMin := by
  rw [lockedAt_some]
  omega

theorem duration_le_iff (h : 0 < n) : v.duration ≤ n ↔ v.locked ≤ n * v.perBlockMin := by
  unfold duration
  split
  · rename_i hone
    have hmul : 1 * v.perBlockMin ≤ n * v.perBlockMin := Nat.mul_le_mul_right _ h
    omega
  · exact U128.divCeil_le_iff v.perBlockMin_pos

theorem duration_pos : 0 < v.duration := by
  unfold duration
  split
  · exact Nat.one_pos
  · rename_i hlong
    by_contra hzero
    have hceil := (U128.divCeil_le_iff (a := v.locked) (n := 0) v.perBlockMin_pos).mp (by omega)
    omega

theorem duration_le_add_lockedAt (k : ℕ) :
    v.duration ≤ k + max (v.locked - k * v.perBlockMin) 1 := by
  rw [v.duration_le_iff (by omega), Nat.add_mul]
  have hrest : max (v.locked - k * v.perBlockMin) 1 * 1 ≤
      max (v.locked - k * v.perBlockMin) 1 * v.perBlockMin :=
    Nat.mul_le_mul_left _ v.perBlockMin_pos
  omega

end VestingInfo

namespace State

variable {s : State cfg} {v v1 v2 merged : VestingInfo} {n : ℕ}

def lockedOf (s : State cfg) (n : ℕ) (v : VestingInfo) : ℕ := v.lockedAt n (s.startOf v)

theorem lockedOf_le_lockedNow (h : s.now ≤ n) : s.lockedOf n v ≤ s.lockedNow v :=
  v.lockedAt_anti h

theorem lockedNow_eq_locked (h : s.now ≤ v.startingBlock) : s.lockedNow v = v.locked := by
  unfold lockedNow startOf
  cases s.vestingStartAt with
  | none => rfl
  | some st =>
    have hnow := s.now_le
    apply v.lockedAt_of_not_started
    simp only [U32.saturatingAdd]
    omega

/-- What the schedule of two that both still run is, where the sum does not overflow. -/
structure Merged (s : State cfg) (v1 v2 merged : VestingInfo) : Prop where
  locked : merged.locked = s.lockedNow v1 + s.lockedNow v2
  startingBlock : merged.startingBlock = max (max s.now v1.startingBlock) v2.startingBlock
  perBlock : merged.perBlock =
    max (merged.locked / max (max v1.endingBlock v2.endingBlock - merged.startingBlock) 1) 1

theorem mergeVestingInfo_of_running (h1 : s.now < v1.endingBlock) (h2 : s.now < v2.endingBlock)
    (hsum : s.lockedNow v1 + s.lockedNow v2 ≤ u128Max) :
    ∃ merged, s.mergeVestingInfo v1 v2 = some merged ∧ s.Merged v1 v2 merged := by
  simp only [mergeVestingInfo, if_neg (Nat.not_le.mpr h1), if_neg (Nat.not_le.mpr h2)]
  exact ⟨_, rfl, Nat.min_eq_left hsum, rfl, rfl⟩

/-- A schedule that runs from a block no earlier than now locks enough for its blocks. -/
theorem endingBlock_le_add_lockedNow (v : VestingInfo) (start : ℕ) (hnow : s.now ≤ start)
    (hstart : v.startingBlock ≤ start) :
    v.endingBlock ≤ start + max (s.lockedNow v) 1 := by
  have hend : v.endingBlock ≤ v.startingBlock + v.duration := Nat.min_le_left _ _
  have hfull := v.duration_le_add_lockedAt 0
  simp only [Nat.zero_mul, Nat.sub_zero, Nat.zero_add] at hfull
  unfold lockedNow startOf
  cases s.vestingStartAt with
  | none =>
    simp only [Option.map_none, VestingInfo.lockedAt_none]
    omega
  | some st =>
    simp only [Option.map_some, VestingInfo.lockedAt_some]
    have hrest := v.duration_le_add_lockedAt (s.now - U32.saturatingAdd st v.startingBlock)
    have hoffset : s.now - U32.saturatingAdd st v.startingBlock ≤ s.now - v.startingBlock := by
      have hle := v.startingBlock_le
      simp only [U32.saturatingAdd]
      omega
    rcases Nat.le_total s.now v.startingBlock with hbefore | hafter <;> omega

theorem lockedOf_eq_zero {st : ℕ} (hst : s.vestingStartAt = some st) (hn : n ≤ u32Max)
    (hsaturates : st + v.startingBlock ≤ u32Max) (hend : st + v.endingBlock ≤ n) :
    s.lockedOf n v = 0 := by
  have hpos := v.duration_pos
  have hexact : v.endingBlock = v.startingBlock + v.duration := by
    simp only [VestingInfo.endingBlock, U128.saturatingAdd, u128Max, u32Max] at *
    omega
  have hstart : U32.saturatingAdd st v.startingBlock = st + v.startingBlock :=
    Nat.min_eq_left hsaturates
  simp only [lockedOf, startOf, hst, Option.map_some, hstart]
  rw [VestingInfo.lockedAt_eq_zero, ← VestingInfo.duration_le_iff v (by omega)]
  omega

theorem Merged.ends (h : s.Merged v1 v2 merged) (hnow : s.now ≤ n) (hn : n ≤ u32Max)
    (hzero : s.lockedOf n merged = 0) : s.lockedOf n v1 = 0 ∧ s.lockedOf n v2 = 0 := by
  have hl1 := s.lockedOf_le_lockedNow (v := v1) hnow
  have hl2 := s.lockedOf_le_lockedNow (v := v2) hnow
  rcases Nat.eq_zero_or_pos merged.locked with hnone | hsome
  · have hsum := h.locked
    omega
  · have hstart := h.startingBlock
    have hend1 := s.endingBlock_le_add_lockedNow v1 merged.startingBlock (by omega) (by omega)
    have hend2 := s.endingBlock_le_add_lockedNow v2 merged.startingBlock (by omega) (by omega)
    have hsum := h.locked
    -- The amount covers the blocks, so that the amount per block is a true share of it.
    have hcovers : max (max v1.endingBlock v2.endingBlock - merged.startingBlock) 1 ≤
        merged.locked := by
      omega
    have hshare : max (max v1.endingBlock v2.endingBlock - merged.startingBlock) 1 *
        merged.perBlockMin ≤ merged.locked := by
      have hpos := Nat.div_pos hcovers (by omega)
      rw [VestingInfo.perBlockMin, h.perBlock, Nat.max_assoc, Nat.max_self, Nat.max_eq_left hpos]
      exact Nat.mul_div_le _ _
    cases hst : s.vestingStartAt with
    | none =>
      simp only [lockedOf, startOf, hst, Option.map_none, VestingInfo.lockedAt_none] at hzero
      omega
    | some st =>
      have hunlocked := hzero
      simp only [lockedOf, startOf, hst, Option.map_some, VestingInfo.lockedAt_eq_zero]
        at hunlocked
      have hblocks := Nat.le_of_mul_le_mul_right (hshare.trans hunlocked) merged.perBlockMin_pos
      simp only [U32.saturatingAdd] at hblocks
      constructor
      · apply s.lockedOf_eq_zero hst hn <;> omega
      · apply s.lockedOf_eq_zero hst hn <;> omega

end State

end Bifrost.Vesting
