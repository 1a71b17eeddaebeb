import Bifrost.Primitives.TimeUnit
import Mathlib.Data.Int.DivMod
import Mathlib.Tactic.NormNum

/-!
# `i128` and `u32`

The checked operations of signed 128-bit numbers and of block numbers, with the bound they carry.
-/

namespace Bifrost

set_option autoImplicit false

namespace I128

def InRange (n : ℤ) : Prop := -2 ^ 127 ≤ n ∧ n < 2 ^ 127

instance (n : ℤ) : Decidable (InRange n) := inferInstanceAs (Decidable (_ ∧ _))

def checked (n : ℤ) : Option ℤ := if InRange n then some n else none

def checkedAdd (a b : ℤ) : Option ℤ := checked (a + b)

def checkedSub (a b : ℤ) : Option ℤ := checked (a - b)

def checkedMul (a b : ℤ) : Option ℤ := checked (a * b)

/-- `a + b` in a release build, which has no overflow checks. -/
def wrappingAdd (a b : ℤ) : ℤ := (a + b).bmod (2 ^ 128)

/-- `unique_saturated_into` of an unsigned number. -/
def saturatedOfNat (n : ℕ) : ℤ := min (n : ℤ) (2 ^ 127 - 1)

@[simp] theorem checked_eq_some {n c : ℤ} : checked n = some c ↔ n = c ∧ InRange c := by
  unfold checked
  split
  · rw [Option.some_inj]
    exact ⟨fun h => ⟨h, h ▸ by assumption⟩, fun h => h.1⟩
  · simp only [reduceCtorEq, false_iff]
    rintro ⟨rfl, h⟩
    contradiction

theorem saturatedOfNat_nonneg (n : ℕ) : 0 ≤ saturatedOfNat n := by
  unfold saturatedOfNat
  omega

end I128

namespace U32

def checkedAdd (a b : ℕ) : Option ℕ := if a + b ≤ u32Max then some (a + b) else none

def checkedMul (a b : ℕ) : Option ℕ := if a * b ≤ u32Max then some (a * b) else none

/-- `a + b` in a release build, which has no overflow checks. -/
def wrappingAdd (a b : ℕ) : ℕ := (a + b) % 2 ^ 32

@[simp] theorem checkedAdd_eq_some {a b c : ℕ} :
    checkedAdd a b = some c ↔ a + b = c ∧ c ≤ u32Max := by
  unfold checkedAdd
  split
  · rw [Option.some_inj]
    exact ⟨fun h => ⟨h, h ▸ by assumption⟩, fun h => h.1⟩
  · simp only [reduceCtorEq, false_iff]
    rintro ⟨rfl, h⟩
    contradiction

@[simp] theorem checkedMul_eq_some {a b c : ℕ} :
    checkedMul a b = some c ↔ a * b = c ∧ c ≤ u32Max := by
  unfold checkedMul
  split
  · rw [Option.some_inj]
    exact ⟨fun h => ⟨h, h ▸ by assumption⟩, fun h => h.1⟩
  · simp only [reduceCtorEq, false_iff]
    rintro ⟨rfl, h⟩
    contradiction

end U32

end Bifrost
