import Bifrost.Lib.Sums
import Mathlib.Algebra.Order.Ring.Int
import Mathlib.Tactic.Ring

/-!
# Lines that fall to zero

A line falls with its slope and is zero from its end on. The sum of a family of lines is known
from its value and its slope at one time and from the slopes that end later on, as long as the
steps from one time to the next leave out no end.
-/

namespace Bifrost

set_option autoImplicit false

universe u

structure DecayingLine where
  slope : ℤ
  finish : ℕ

namespace DecayingLine

variable {l l' : DecayingLine} {t t' : ℕ}

def slopeAt (l : DecayingLine) (t : ℕ) : ℤ := if t < l.finish then l.slope else 0

def biasAt (l : DecayingLine) (t : ℕ) : ℤ := l.slopeAt t * (l.finish - t)

def endingAt (l : DecayingLine) (t : ℕ) : ℤ := if l.finish = t then l.slope else 0

theorem slopeAt_of_lt (h : t < l.finish) : l.slopeAt t = l.slope := if_pos h

theorem slopeAt_of_le (h : l.finish ≤ t) : l.slopeAt t = 0 := if_neg (Nat.not_lt.mpr h)

theorem biasAt_of_le (h : l.finish ≤ t) : l.biasAt t = 0 := by
  unfold biasAt
  rw [slopeAt_of_le h, zero_mul]

theorem slopeAt_nonneg (h : 0 ≤ l.slope) (t : ℕ) : 0 ≤ l.slopeAt t := by
  unfold slopeAt
  split
  · exact h
  · exact le_refl _

theorem biasAt_nonneg (h : 0 ≤ l.slope) (t : ℕ) : 0 ≤ l.biasAt t := by
  rcases Nat.lt_or_ge t l.finish with ht | ht
  · unfold biasAt
    apply mul_nonneg (slopeAt_nonneg h t)
    omega
  · rw [biasAt_of_le ht]

theorem biasAt_later (hle : t ≤ t') (hgap : t < l.finish → t' ≤ l.finish) :
    l.biasAt t' = l.biasAt t - l.slopeAt t * (t' - t) := by
  rcases Nat.lt_or_ge t l.finish with ht | ht
  · rcases Nat.lt_or_eq_of_le (hgap ht) with ht' | ht'
    · unfold biasAt
      rw [slopeAt_of_lt ht, slopeAt_of_lt ht']
      ring
    · rw [biasAt_of_le ht'.ge]
      unfold biasAt
      rw [ht']
      ring
  · rw [biasAt_of_le (ht.trans hle), biasAt_of_le ht, slopeAt_of_le ht]
    ring

theorem slopeAt_later (hlt : t < t') (hgap : t < l.finish → t' ≤ l.finish) :
    l.slopeAt t' = l.slopeAt t - l.endingAt t' := by
  unfold endingAt
  rcases Nat.lt_or_ge t l.finish with ht | ht
  · rw [slopeAt_of_lt ht]
    rcases Nat.lt_or_eq_of_le (hgap ht) with ht' | ht'
    · rw [slopeAt_of_lt ht', if_neg (Nat.ne_of_gt ht')]
      ring
    · rw [slopeAt_of_le ht'.ge, if_pos ht'.symm]
      ring
  · rw [slopeAt_of_le ht, slopeAt_of_le (ht.trans hlt.le), if_neg (by omega)]
    ring

theorem slopeAt_within (hle : t ≤ t') (hgap : t < l.finish → t' < l.finish) :
    l.slopeAt t' = l.slopeAt t := by
  rcases Nat.lt_or_ge t l.finish with ht | ht
  · rw [slopeAt_of_lt ht, slopeAt_of_lt (hgap ht)]
  · rw [slopeAt_of_le ht, slopeAt_of_le (ht.trans hle)]

theorem slopeAt_slopeAt (slope : ℤ) (finish t : ℕ) :
    slopeAt ⟨slopeAt ⟨slope, finish⟩ t, finish⟩ t = slopeAt ⟨slope, finish⟩ t := by
  unfold slopeAt
  dsimp only
  split <;> rfl

theorem biasAt_slopeAt (slope : ℤ) (finish t : ℕ) :
    biasAt ⟨slopeAt ⟨slope, finish⟩ t, finish⟩ t = biasAt ⟨slope, finish⟩ t := by
  unfold biasAt
  rw [slopeAt_slopeAt]

end DecayingLine

/-! Families of lines. -/

namespace DecayingLines

variable {ι : Type u} {members : List ι} {lines lines' : ι → DecayingLine} {i : ι} {t t' : ℕ}

def biasAt (members : List ι) (lines : ι → DecayingLine) (t : ℕ) : ℤ :=
  (members.map fun i => (lines i).biasAt t).sum

def slopeAt (members : List ι) (lines : ι → DecayingLine) (t : ℕ) : ℤ :=
  (members.map fun i => (lines i).slopeAt t).sum

def endingAt (members : List ι) (lines : ι → DecayingLine) (t : ℕ) : ℤ :=
  (members.map fun i => (lines i).endingAt t).sum

theorem sum_map_nonneg {f : ι → ℤ} (h : ∀ i, 0 ≤ f i) : 0 ≤ (members.map f).sum := by
  apply List.sum_nonneg
  intro x hx
  obtain ⟨i, -, rfl⟩ := List.mem_map.mp hx
  exact h i

theorem biasAt_nonneg (h : ∀ i, 0 ≤ (lines i).slope) : 0 ≤ biasAt members lines t :=
  sum_map_nonneg fun i => (lines i).biasAt_nonneg (h i) t

theorem slopeAt_nonneg (h : ∀ i, 0 ≤ (lines i).slope) : 0 ≤ slopeAt members lines t :=
  sum_map_nonneg fun i => (lines i).slopeAt_nonneg (h i) t

theorem biasAt_later (hle : t ≤ t') (hgap : ∀ i, t < (lines i).finish → t' ≤ (lines i).finish) :
    biasAt members lines t' =
      biasAt members lines t - slopeAt members lines t * (t' - t) := by
  unfold biasAt slopeAt
  induction members with
  | nil => simp
  | cons i members ih =>
    simp only [List.map_cons, List.sum_cons]
    rw [ih, (lines i).biasAt_later hle (hgap i)]
    ring

theorem slopeAt_later (hlt : t < t') (hgap : ∀ i, t < (lines i).finish → t' ≤ (lines i).finish) :
    slopeAt members lines t' = slopeAt members lines t - endingAt members lines t' := by
  unfold slopeAt endingAt
  induction members with
  | nil => rfl
  | cons i members ih =>
    simp only [List.map_cons, List.sum_cons]
    rw [ih, (lines i).slopeAt_later hlt (hgap i)]
    ring

theorem slopeAt_within (hle : t ≤ t') (hgap : ∀ i, t < (lines i).finish → t' < (lines i).finish) :
    slopeAt members lines t' = slopeAt members lines t := by
  unfold slopeAt
  congr 1
  apply List.map_congr_left
  intro i _
  exact (lines i).slopeAt_within hle (hgap i)

theorem sum_exchange {f : DecayingLine → ℤ} (hnodup : members.Nodup) (hi : i ∈ members)
    (hoff : ∀ j, j ≠ i → lines' j = lines j) :
    (members.map fun j => f (lines' j)).sum =
      (members.map fun j => f (lines j)).sum - f (lines i) + f (lines' i) := by
  have hsum := Sums.sum_add_of_mem (f := fun j => f (lines' j)) (g := fun j => f (lines j)) hnodup hi
    (fun j hj => by rw [hoff j hj])
  omega

end DecayingLines

end Bifrost
