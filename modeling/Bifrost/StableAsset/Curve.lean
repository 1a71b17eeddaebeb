import Bifrost.Primitives.Arithmetic
import Mathlib.Data.List.Basic

/-!
# The curve of a stable-asset pool

`get_a`, `get_d` and `get_y`. The last two work on `U512` and stop with `None` where it
overflows. Each ends in a Newton iteration of at most 255 steps, left when a step moves the
value by one at most; a result that does not fit `u128` is `None` too.
-/

namespace Bifrost.StableAsset

set_option autoImplicit false

def u512Max : ℕ := 2 ^ 512 - 1

namespace U512

def checkedAdd (a b : ℕ) : Option ℕ := if a + b ≤ u512Max then some (a + b) else none

def checkedSub (a b : ℕ) : Option ℕ := if b ≤ a then some (a - b) else none

def checkedMul (a b : ℕ) : Option ℕ := if a * b ≤ u512Max then some (a * b) else none

def checkedDiv (a b : ℕ) : Option ℕ := if b = 0 then none else some (a / b)

def toU128 (a : ℕ) : Option ℕ := if a ≤ u128Max then some a else none

@[simp] theorem checkedAdd_eq_some {a b c : ℕ} :
    checkedAdd a b = some c ↔ a + b ≤ u512Max ∧ a + b = c := by
  unfold checkedAdd
  split <;> simp [*]

@[simp] theorem checkedSub_eq_some {a b c : ℕ} :
    checkedSub a b = some c ↔ b ≤ a ∧ a - b = c := by
  unfold checkedSub
  split <;> simp [*]

@[simp] theorem checkedMul_eq_some {a b c : ℕ} :
    checkedMul a b = some c ↔ a * b ≤ u512Max ∧ a * b = c := by
  unfold checkedMul
  split <;> simp [*]

@[simp] theorem checkedDiv_eq_some {a b c : ℕ} :
    checkedDiv a b = some c ↔ b ≠ 0 ∧ a / b = c := by
  unfold checkedDiv
  split <;> simp [*]

@[simp] theorem toU128_eq_some {a b : ℕ} : toU128 a = some b ↔ a ≤ u128Max ∧ a = b := by
  unfold toU128
  split <;> simp [*]

end U512

/-- `get_a` at a block: the value moves from `a0` to `a1` along a line. -/
def getA (currentBlock a0 t0 a1 t1 : ℕ) : Option ℕ :=
  if currentBlock < t1 then do
    let timeDiff ← U128.checkedSub currentBlock t0
    let timeDiffDiv ← U128.checkedSub t1 t0
    if a0 < a1 then
      let diff ← U128.checkedSub a1 a0
      let amount ← U128.mulDiv diff timeDiff timeDiffDiv
      U128.checkedAdd a0 amount
    else
      let diff ← U128.checkedSub a0 a1
      let amount ← U128.mulDiv diff timeDiff timeDiffDiv
      U128.checkedSub a0 amount
  else some a1

def numberOfIterationsToConverge : ℕ := 255

/-- The loop of both solvers, over what one pass computes. -/
def converge (next : ℕ → Option ℕ) : ℕ → ℕ → Option ℕ
  | 0, x => some x
  | fuel + 1, x => do
    let x' ← next x
    if x' ≤ x + 1 ∧ x ≤ x' + 1 then some x' else converge next fuel x'

/-! `get_d` -/

/-- The sum of the balances, and `a` times the number of assets to its own power. -/
def sumAndAnn (balances : List ℕ) (a : ℕ) : Option (ℕ × ℕ) :=
  balances.foldlM (fun (sum, ann) balance => do
    let sum ← U512.checkedAdd sum balance
    let ann ← U512.checkedMul ann balances.length
    pure (sum, ann)) (0, a)

/-- `p_d`: `d` to the power of one more than the number of assets, over the product of the
balances and of the number of assets each time, divided as it is multiplied. -/
def prodD (balances : List ℕ) (d : ℕ) : Option ℕ :=
  balances.foldlM (fun p balance => do
    let divOp ← U512.checkedMul balance balances.length
    let p ← U512.checkedMul p d
    U512.checkedDiv p divOp) d

def nextD (aPrecision : ℕ) (balances : List ℕ) (sum ann d : ℕ) : Option ℕ := do
  let p ← prodD balances d
  let t1 ← U512.checkedMul p balances.length
  let t2 ← U512.checkedMul (balances.length + 1) p
  let excess ← U512.checkedSub ann aPrecision
  let t3 ← U512.checkedMul excess d
  let t3 ← U512.checkedDiv t3 aPrecision
  let t3 ← U512.checkedAdd t3 t2
  let numerator ← U512.checkedMul ann sum
  let numerator ← U512.checkedDiv numerator aPrecision
  let numerator ← U512.checkedAdd numerator t1
  let numerator ← U512.checkedMul numerator d
  U512.checkedDiv numerator t3

def getD (aPrecision : ℕ) (balances : List ℕ) (a : ℕ) : Option ℕ := do
  let (sum, ann) ← sumAndAnn balances a
  if sum = 0 then some 0
  else
    let d ← converge (nextD aPrecision balances sum ann) numberOfIterationsToConverge sum
    U512.toU128 d

/-! `get_y` -/

/-- What the first loop of `get_y` leaves of `c`, the sum and `ann`; the balance at
`tokenIndex` only counts in `ann`. -/
def othersOf (balances : List ℕ) (tokenIndex targetD amplitude : ℕ) : Option (ℕ × ℕ × ℕ) :=
  balances.zipIdx.foldlM (fun (c, sum, ann) (balance, i) => do
    let ann ← U512.checkedMul ann balances.length
    if i = tokenIndex then pure (c, sum, ann)
    else
      let sum ← U512.checkedAdd sum balance
      let divOp ← U512.checkedMul balance balances.length
      let c ← U512.checkedMul c targetD
      let c ← U512.checkedDiv c divOp
      pure (c, sum, ann)) (targetD, 0, amplitude)

/-- The coefficients of the quadratic equation, `c` and `b`. -/
def coefficients (aPrecision : ℕ) (balances : List ℕ) (tokenIndex targetD amplitude : ℕ) :
    Option (ℕ × ℕ) := do
  let (c, sum, ann) ← othersOf balances tokenIndex targetD amplitude
  let c ← U512.checkedMul c targetD
  let c ← U512.checkedMul c aPrecision
  let divOp ← U512.checkedMul ann balances.length
  let c ← U512.checkedDiv c divOp
  let scaledD ← U512.checkedMul targetD aPrecision
  let quotient ← U512.checkedDiv scaledD ann
  let b ← U512.checkedAdd sum quotient
  pure (c, b)

def nextY (c b targetD y : ℕ) : Option ℕ := do
  let square ← U512.checkedMul y y
  let numerator ← U512.checkedAdd square c
  let double ← U512.checkedMul y 2
  let slope ← U512.checkedAdd double b
  let slope ← U512.checkedSub slope targetD
  U512.checkedDiv numerator slope

def getY (aPrecision : ℕ) (balances : List ℕ) (tokenIndex targetD amplitude : ℕ) :
    Option ℕ := do
  let (c, b) ← coefficients aPrecision balances tokenIndex targetD amplitude
  let y ← converge (nextY c b targetD) numberOfIterationsToConverge targetD
  U512.toU128 y

end Bifrost.StableAsset
