import Bifrost.Primitives.Arithmetic

/-!
# `Permill`, `Perbill` and `Percent`

A part of one as `sp_arithmetic` has it. A product rounds to the nearest number and a half goes
down; a product with the reciprocal rounds a half up and saturates.
-/

namespace Bifrost

set_option autoImplicit false

namespace PerThing

/-- `overflow_prune_mul` with `Rounding::NearestPrefDown`. -/
def mulNearest (accuracy parts n : ℕ) : ℕ :=
  n * parts / accuracy + if accuracy / 2 < n * parts % accuracy then 1 else 0

/-- `saturating_reciprocal_mul` with `Rounding::NearestPrefUp`; a division by zero panics. -/
def saturatingReciprocalMul (accuracy parts n : ℕ) : Option ℕ :=
  if parts = 0 then none
  else some (min u128Max (n * accuracy / parts +
    if parts / 2 + parts % 2 ≤ n * accuracy % parts then 1 else 0))

/-- `from_rational`: rounded down, with operands reduced to the range of the parts first. -/
def fromRational (accuracy p q : ℕ) : ℕ :=
  if q = 0 ∨ q < p then accuracy
  else
    let factor := max (U128.divCeil q accuracy) 1
    p / factor * accuracy / (q / factor)

theorem accuracy_mul_mulNearest_le {accuracy : ℕ} (h : 0 < accuracy) (parts n : ℕ) :
    accuracy * mulNearest accuracy parts n ≤ n * parts + accuracy / 2 := by
  unfold mulNearest
  have hdiv := Nat.div_add_mod (n * parts) accuracy
  have hlt := Nat.mod_lt (n * parts) h
  rw [Nat.mul_add]
  split
  · rw [Nat.mul_one]
    omega
  · omega

theorem mulNearest_le_of_le {accuracy parts n bound : ℕ} (h : 0 < accuracy)
    (hle : n * parts ≤ bound * accuracy) : mulNearest accuracy parts n ≤ bound := by
  unfold mulNearest
  have hdiv := Nat.div_add_mod (n * parts) accuracy
  have hquot : n * parts / accuracy ≤ bound :=
    Nat.div_le_of_le_mul (by rwa [Nat.mul_comm accuracy])
  rcases Nat.lt_or_ge (n * parts / accuracy) bound with hlt | hge
  · split
    · omega
    · omega
  · -- the quotient is the bound, so that nothing remains
    have heq : n * parts / accuracy = bound := Nat.le_antisymm hquot hge
    rw [heq, Nat.mul_comm accuracy] at hdiv
    have hzero : n * parts % accuracy = 0 := by omega
    rw [heq, hzero, if_neg (by omega)]
    exact Nat.le_refl _

theorem parts_mul_saturatingReciprocalMul_le {accuracy parts n out : ℕ}
    (h : saturatingReciprocalMul accuracy parts n = some out) :
    parts * out ≤ n * accuracy + parts / 2 := by
  unfold saturatingReciprocalMul at h
  split at h
  · cases h
  · rename_i hparts
    rw [Option.some.injEq] at h
    have hdiv := Nat.div_add_mod (n * accuracy) parts
    have hlt := Nat.mod_lt (n * accuracy) (Nat.pos_of_ne_zero hparts)
    have hout : out ≤ n * accuracy / parts +
        if parts / 2 + parts % 2 ≤ n * accuracy % parts then 1 else 0 := by
      rw [← h]
      exact Nat.min_le_right _ _
    refine (Nat.mul_le_mul_left parts hout).trans ?_
    rw [Nat.mul_add]
    split
    · rw [Nat.mul_one]
      omega
    · omega

end PerThing

namespace Permill

def mul (p : Permill) (n : ℕ) : ℕ := PerThing.mulNearest accuracy p.parts n

theorem mul_le (p : Permill) (n : ℕ) : p.mul n ≤ n :=
  PerThing.mulNearest_le_of_le (by decide) (Nat.mul_le_mul_left n p.le_one)

def checkedAdd (p q : Permill) : Option Permill :=
  if h : p.parts + q.parts ≤ 1000000 then some ⟨p.parts + q.parts, h⟩ else none

theorem fromRationalDown_le_one (p q : ℕ) (h : ¬(q = 0 ∨ q < p)) : accuracy * p / q ≤ 1000000 := by
  apply Nat.div_le_of_le_mul
  rw [Nat.mul_comm q]
  exact Nat.mul_le_mul_left 1000000 (by omega)

/-- `from_rational_with_rounding` with `Rounding::Down`; it fails above one and for `q = 0`. -/
def fromRationalDown (p q : ℕ) : Option Permill :=
  if h : q = 0 ∨ q < p then none
  else some ⟨accuracy * p / q, fromRationalDown_le_one p q h⟩

theorem checkedAdd_eq_some {p q r : Permill} :
    p.checkedAdd q = some r ↔ p.parts + q.parts = r.parts := by
  unfold checkedAdd
  split
  · obtain ⟨parts, hle⟩ := r
    simp
  · simp only [reduceCtorEq, false_iff]
    have hle := r.le_one
    omega

end Permill

structure Perbill where
  parts : ℕ
  le_one : parts ≤ 1000000000
deriving DecidableEq

namespace Perbill

def accuracy : ℕ := 1000000000

def one : Perbill := ⟨1000000000, by decide⟩

def zero : Perbill := ⟨0, by decide⟩

def saturatingAdd (p q : Perbill) : Perbill :=
  ⟨min (p.parts + q.parts) 1000000000, by omega⟩

def mulFloor (p : Perbill) (n : ℕ) : ℕ := n * p.parts / accuracy

def mul (p : Perbill) (n : ℕ) : ℕ := PerThing.mulNearest accuracy p.parts n

def saturatingReciprocalMul (p : Perbill) (n : ℕ) : Option ℕ :=
  PerThing.saturatingReciprocalMul accuracy p.parts n

end Perbill

structure Percent where
  parts : ℕ
  le_one : parts ≤ 100
deriving DecidableEq

namespace Percent

def accuracy : ℕ := 100

def zero : Percent := ⟨0, by decide⟩

def fromPercent (x : ℕ) : Percent := ⟨min x 100, Nat.min_le_right x 100⟩

def mul (p : Percent) (n : ℕ) : ℕ := PerThing.mulNearest accuracy p.parts n

def mulFloor (p : Percent) (n : ℕ) : ℕ := n * p.parts / accuracy

def checkedAdd (p q : Percent) : Option Percent :=
  if h : p.parts + q.parts ≤ 100 then some ⟨p.parts + q.parts, h⟩ else none

def saturatingReciprocalMul (p : Percent) (n : ℕ) : Option ℕ :=
  PerThing.saturatingReciprocalMul accuracy p.parts n

/-- The parts of `Percent::from_rational(p, q)`. -/
def rational (p q : ℕ) : ℕ := PerThing.fromRational accuracy p q

end Percent

end Bifrost
