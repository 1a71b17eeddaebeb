import Mathlib.Tactic.NormNum

/-!
# `u128`, `Permill` and `FixedU128`

Balances are natural numbers; the checked and saturating operations carry the `u128`
bound. `Permill` holds its bound as a field. Every conversion rounds down unless its
name says otherwise, as in `sp_arithmetic`.
-/

namespace Bifrost

set_option autoImplicit false

def u128Max : ℕ := 2 ^ 128 - 1

namespace U128

def checkedAdd (a b : ℕ) : Option ℕ := if a + b ≤ u128Max then some (a + b) else none

def checkedSub (a b : ℕ) : Option ℕ := if b ≤ a then some (a - b) else none

def checkedMul (a b : ℕ) : Option ℕ := if a * b ≤ u128Max then some (a * b) else none

def checkedDiv (a b : ℕ) : Option ℕ := if b = 0 then none else some (a / b)

def saturatingAdd (a b : ℕ) : ℕ := min (a + b) u128Max

def saturatingMul (a b : ℕ) : ℕ := min (a * b) u128Max

/-- `a + b` in a release build, which has no overflow checks. -/
def wrappingAdd (a b : ℕ) : ℕ := (a + b) % 2 ^ 128

/-- `a - b` in a release build, for operands in range. -/
def wrappingSub (a b : ℕ) : ℕ := (a + 2 ^ 128 - b) % 2 ^ 128

def divCeil (a b : ℕ) : ℕ := a / b + if a % b = 0 then 0 else 1

/-- `multiply_by_rational_with_rounding(a, b, c, Rounding::Down)`. -/
def mulDiv (a b c : ℕ) : Option ℕ :=
  if c = 0 then none else if a * b / c ≤ u128Max then some (a * b / c) else none

@[simp] theorem checkedAdd_eq_some {a b c : ℕ} :
    checkedAdd a b = some c ↔ a + b = c ∧ c ≤ u128Max := by
  unfold checkedAdd
  split
  · rw [Option.some_inj]
    exact ⟨fun h => ⟨h, h ▸ by assumption⟩, fun h => h.1⟩
  · simp only [reduceCtorEq, false_iff]
    rintro ⟨rfl, h⟩
    contradiction

@[simp] theorem checkedSub_eq_some {a b c : ℕ} :
    checkedSub a b = some c ↔ b ≤ a ∧ a - b = c := by
  unfold checkedSub
  split <;> simp [*]

@[simp] theorem checkedMul_eq_some {a b c : ℕ} :
    checkedMul a b = some c ↔ a * b = c ∧ c ≤ u128Max := by
  unfold checkedMul
  split
  · rw [Option.some_inj]
    exact ⟨fun h => ⟨h, h ▸ by assumption⟩, fun h => h.1⟩
  · simp only [reduceCtorEq, false_iff]
    rintro ⟨rfl, h⟩
    contradiction

@[simp] theorem checkedDiv_eq_some {a b c : ℕ} :
    checkedDiv a b = some c ↔ 0 < b ∧ a / b = c := by
  unfold checkedDiv
  split
  · simp_all
  · simp only [Option.some_inj, Nat.pos_iff_ne_zero]
    exact ⟨fun h => ⟨by assumption, h⟩, fun h => h.2⟩

@[simp] theorem mulDiv_eq_some {a b c d : ℕ} :
    mulDiv a b c = some d ↔ 0 < c ∧ a * b / c = d ∧ d ≤ u128Max := by
  unfold mulDiv
  split
  · simp_all
  · split
    · rw [Option.some_inj]
      exact ⟨fun h => ⟨by omega, h, h ▸ by assumption⟩, fun h => h.2.1⟩
    · simp only [reduceCtorEq, false_iff]
      rintro ⟨_, rfl, h⟩
      contradiction

theorem wrappingSub_add_iff {a b : ℕ} (ha : a ≤ u128Max) : wrappingSub a b + b = a ↔ b ≤ a := by
  unfold wrappingSub u128Max at *
  rcases Nat.lt_or_ge a b with hlt | hle
  · constructor
    · intro h
      rcases Nat.lt_or_ge (a + 2 ^ 128) b with hfar | hnear
      · omega
      · rw [Nat.mod_eq_of_lt (by omega)] at h
        omega
    · omega
  · have hmod : (a + 2 ^ 128 - b) % 2 ^ 128 = a - b := by
      rw [show a + 2 ^ 128 - b = (a - b) + 2 ^ 128 by omega, Nat.add_mod_right]
      exact Nat.mod_eq_of_lt (by omega)
    omega

theorem divCeil_le_iff {a b n : ℕ} (hb : 0 < b) : divCeil a b ≤ n ↔ a ≤ n * b := by
  have hdiv : b * (a / b) + a % b = a := Nat.div_add_mod a b
  have hmod : a % b < b := Nat.mod_lt a hb
  unfold divCeil
  split
  · rename_i hzero
    rw [add_zero, Nat.mul_comm n b]
    constructor
    · intro h
      have hmul : b * (a / b) ≤ b * n := Nat.mul_le_mul_left b h
      omega
    · intro h
      apply Nat.le_of_mul_le_mul_left _ hb
      omega
  · rename_i hpos
    rw [Nat.mul_comm n b]
    constructor
    · intro h
      have hmul : b * (a / b + 1) ≤ b * n := Nat.mul_le_mul_left b h
      rw [Nat.mul_add, Nat.mul_one] at hmul
      omega
    · intro h
      apply Nat.lt_of_mul_lt_mul_left (a := b)
      omega

theorem le_divCeil_mul {a b : ℕ} (hb : 0 < b) : a ≤ divCeil a b * b :=
  (divCeil_le_iff hb).mp (Nat.le_refl _)

theorem divCeil_mul_lt {a b : ℕ} (hb : 0 < b) : divCeil a b * b < a + b := by
  have hdiv : b * (a / b) + a % b = a := Nat.div_add_mod a b
  unfold divCeil
  split
  · rw [add_zero, Nat.mul_comm]
    omega
  · rw [Nat.mul_comm, Nat.mul_add, Nat.mul_one]
    omega

end U128

/-- Parts per million, at most one. -/
structure Permill where
  parts : ℕ
  le_one : parts ≤ 1000000
deriving DecidableEq

namespace Permill

def accuracy : ℕ := 1000000

def zero : Permill := ⟨0, by decide⟩
def one : Permill := ⟨1000000, by decide⟩

def fromPercent (x : ℕ) : Permill := ⟨min x 100 * 10000, by omega⟩

def mulFloor (p : Permill) (n : ℕ) : ℕ := n * p.parts / accuracy

def mulCeil (p : Permill) (n : ℕ) : ℕ := U128.divCeil (n * p.parts) accuracy

def saturatingSub (p q : Permill) : Permill := ⟨p.parts - q.parts, by have := p.le_one; omega⟩

/-- `Permill::from_rational`: both sides are first divided by the factor that brings `q`
into the range of the parts, so the result is an approximation from reduced operands. -/
def fromRational (p q : ℕ) : Permill :=
  if h : q = 0 ∨ q < p then one
  else
    let factor := max (U128.divCeil q accuracy) 1
    ⟨p / factor * accuracy / (q / factor), by
      have hle : p / factor ≤ q / factor := Nat.div_le_div_right (by omega)
      apply Nat.div_le_of_le_mul
      rw [Nat.mul_comm (q / factor)]
      exact (Nat.mul_comm _ _).trans_le (Nat.mul_le_mul_left 1000000 hle)⟩

theorem mulFloor_le (p : Permill) (n : ℕ) : p.mulFloor n ≤ n := by
  unfold mulFloor accuracy
  apply Nat.div_le_of_le_mul
  rw [Nat.mul_comm]
  exact Nat.mul_le_mul_right n p.le_one

theorem mulCeil_mono (p : Permill) {m n : ℕ} (h : m ≤ n) : p.mulCeil m ≤ p.mulCeil n := by
  apply (U128.divCeil_le_iff (by decide)).mpr
  exact (Nat.mul_le_mul_right p.parts h).trans (U128.le_divCeil_mul (by decide))

theorem mulCeil_le_mulCeil {p q : Permill} (h : p.parts ≤ q.parts) (n : ℕ) :
    p.mulCeil n ≤ q.mulCeil n := by
  apply (U128.divCeil_le_iff (by decide)).mpr
  exact (Nat.mul_le_mul_left n h).trans (U128.le_divCeil_mul (by decide))

theorem mulCeil_add_le (p : Permill) (m n : ℕ) : p.mulCeil (m + n) ≤ p.mulCeil m + p.mulCeil n := by
  apply (U128.divCeil_le_iff (by decide)).mpr
  have hm : m * p.parts ≤ p.mulCeil m * accuracy := U128.le_divCeil_mul (by decide)
  have hn : n * p.parts ≤ p.mulCeil n * accuracy := U128.le_divCeil_mul (by decide)
  rw [Nat.add_mul, Nat.add_mul]
  exact Nat.add_le_add hm hn

theorem mulCeil_le (p : Permill) (n : ℕ) : p.mulCeil n ≤ n := by
  apply (U128.divCeil_le_iff (by decide)).mpr
  exact Nat.mul_le_mul_left n p.le_one

end Permill

/-- A fixed-point number with eighteen decimals; `inner` is the number of units. -/
structure FixedU128 where
  inner : ℕ
deriving DecidableEq

namespace FixedU128

def accuracy : ℕ := 1000000000000000000

def zero : FixedU128 := ⟨0⟩
def one : FixedU128 := ⟨accuracy⟩

def saturatingFromInteger (n : ℕ) : FixedU128 := ⟨U128.saturatingMul n accuracy⟩

def ofPermill (p : Permill) : FixedU128 := ⟨p.parts * (accuracy / Permill.accuracy)⟩

def checkedAdd (a b : FixedU128) : Option FixedU128 := (U128.checkedAdd a.inner b.inner).map mk

def checkedSub (a b : FixedU128) : Option FixedU128 := (U128.checkedSub a.inner b.inner).map mk

def checkedMul (a b : FixedU128) : Option FixedU128 :=
  (U128.mulDiv a.inner b.inner accuracy).map mk

def checkedDiv (a b : FixedU128) : Option FixedU128 :=
  (U128.mulDiv a.inner accuracy b.inner).map mk

def checkedMulInt (a : FixedU128) (n : ℕ) : Option ℕ := U128.mulDiv a.inner n accuracy

def checkedFromRational (n d : ℕ) : Option FixedU128 := (U128.mulDiv n accuracy d).map mk

def reciprocal (a : FixedU128) : Option FixedU128 := one.checkedDiv a

def saturatingMul (a b : FixedU128) : FixedU128 :=
  (a.checkedMul b).getD ⟨u128Max⟩

/-- `saturating_pow`: square and multiply over the bits of the exponent. -/
def saturatingPow (a : FixedU128) (exp : ℕ) : FixedU128 :=
  ((List.range (Nat.log2 exp + 1)).foldl
    (fun (acc : FixedU128 × FixedU128) i =>
      (if exp.testBit i then acc.1.saturatingMul acc.2 else acc.1, acc.2.saturatingMul acc.2))
    (one, a)).1

end FixedU128

end Bifrost
