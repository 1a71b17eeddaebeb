import Mathlib.Algebra.Group.Nat.Defs
import Mathlib.Data.Nat.Basic

/-!
# Time units

The staking time units of the primitives crate. Units of different kinds do not add up,
and the order of the crate puts every unit before every unit of another kind.
-/

namespace Bifrost

set_option autoImplicit false

def u32Max : ℕ := 2 ^ 32 - 1

def U32.saturatingAdd (a b : ℕ) : ℕ := min (a + b) u32Max

inductive TimeUnit where
  | era (n : ℕ)
  | slashingSpan (n : ℕ)
  | round (n : ℕ)
  | kblock (n : ℕ)
  | hour (n : ℕ)
deriving DecidableEq, Repr

namespace TimeUnit

instance : Inhabited TimeUnit := ⟨era 0⟩

def addOne : TimeUnit → TimeUnit
  | era a => era (U32.saturatingAdd a 1)
  | slashingSpan a => slashingSpan (U32.saturatingAdd a 1)
  | round a => round (U32.saturatingAdd a 1)
  | kblock a => kblock (U32.saturatingAdd a 1)
  | hour a => hour (U32.saturatingAdd a 1)

def saturatingAdd : TimeUnit → TimeUnit → Option TimeUnit
  | era a, era b => some (era (U32.saturatingAdd a b))
  | slashingSpan a, slashingSpan b => some (slashingSpan (U32.saturatingAdd a b))
  | round a, round b => some (round (U32.saturatingAdd a b))
  | kblock a, kblock b => some (kblock (U32.saturatingAdd a b))
  | hour a, hour b => some (hour (U32.saturatingAdd a b))
  | _, _ => none

def cmp : TimeUnit → TimeUnit → Ordering
  | era a, era b => compare a b
  | slashingSpan a, slashingSpan b => compare a b
  | round a, round b => compare a b
  | kblock a, kblock b => compare a b
  | hour a, hour b => compare a b
  | _, _ => .lt

def gt (a b : TimeUnit) : Bool := a.cmp b = .gt

/-- `b` is of the kind of `a` and not before it. -/
def AtOrAfter (a b : TimeUnit) : Prop := a.cmp b = .lt ∧ b.cmp a = .gt ∨ a = b

instance (a b : TimeUnit) : Decidable (AtOrAfter a b) := inferInstanceAs (Decidable (_ ∨ _))

theorem AtOrAfter.addOne {a b : TimeUnit} (h : AtOrAfter a b) (hne : a ≠ b) :
    AtOrAfter a.addOne b := by
  obtain ⟨hlt, hgt⟩ := h.resolve_right hne
  have hnext : ∀ m n : ℕ, m < n →
      (compare (U32.saturatingAdd m 1) n = .lt ∧ compare n (U32.saturatingAdd m 1) = .gt) ∨
        U32.saturatingAdd m 1 = n := by
    intro m n hmn
    have hle : U32.saturatingAdd m 1 ≤ n := Nat.le_trans (Nat.min_le_left _ _) hmn
    rcases Nat.lt_or_eq_of_le hle with h | h
    · exact Or.inl ⟨Nat.compare_eq_lt.mpr h, Nat.compare_eq_gt.mpr h⟩
    · exact Or.inr h
  unfold AtOrAfter
  cases a <;> cases b <;> simp only [cmp, reduceCtorEq] at hlt hgt
  all_goals
    rename_i m n
    have hmn : m < n := Nat.compare_eq_lt.mp hlt
    rcases hnext m n hmn with h | h
    · exact Or.inl h
    · exact Or.inr (by simp only [TimeUnit.addOne, h])

end TimeUnit

end Bifrost
