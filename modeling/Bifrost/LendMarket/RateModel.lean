import Bifrost.Primitives.Arithmetic

/-!
# Interest rate models

`rate_model.rs`: the jump model is linear up to a utilization point and linear with another
slope after it, the curve model grows with the ninth power of the utilization.
-/

namespace Bifrost.LendMarket

set_option autoImplicit false

structure JumpModel where
  baseRate : FixedU128
  jumpRate : FixedU128
  fullRate : FixedU128
  jumpUtilization : Permill
deriving DecidableEq

namespace JumpModel

/-- 10%. -/
def maxBaseRate : FixedU128 := ⟨100000000000000000⟩

/-- 30%. -/
def maxJumpRate : FixedU128 := ⟨300000000000000000⟩

/-- 50%. -/
def maxFullRate : FixedU128 := ⟨500000000000000000⟩

def checkModel (m : JumpModel) : Bool :=
  if maxBaseRate.inner < m.baseRate.inner ∨ maxJumpRate.inner < m.jumpRate.inner ∨
      maxFullRate.inner < m.fullRate.inner then
    false
  else if m.jumpRate.inner < m.baseRate.inner ∨ m.fullRate.inner < m.jumpRate.inner then
    false
  else
    true

def getBorrowRate (m : JumpModel) (utilization : Permill) : Option FixedU128 :=
  if utilization.parts ≤ m.jumpUtilization.parts then do
    let spread ← m.jumpRate.checkedSub m.baseRate
    let slope ← (spread.saturatingMul (.ofPermill utilization)).checkedDiv
      (.ofPermill m.jumpUtilization)
    slope.checkedAdd m.baseRate
  else do
    let excessUtil := utilization.saturatingSub m.jumpUtilization
    let spread ← m.fullRate.checkedSub m.jumpRate
    let slope ← (spread.saturatingMul (.ofPermill excessUtil)).checkedDiv
      (.ofPermill (Permill.one.saturatingSub m.jumpUtilization))
    slope.checkedAdd m.jumpRate

end JumpModel

structure CurveModel where
  baseRate : FixedU128
deriving DecidableEq

namespace CurveModel

/-- `Rate::DIV / 100 * 10`: 10%. -/
def maxBaseRate : FixedU128 := ⟨FixedU128.accuracy / 100 * 10⟩

def checkModel (m : CurveModel) : Bool := decide (m.baseRate.inner ≤ maxBaseRate.inner)

def getBorrowRate (m : CurveModel) (utilization : Permill) : Option FixedU128 :=
  ((FixedU128.ofPermill utilization).saturatingPow 9).checkedAdd m.baseRate

end CurveModel

inductive InterestRateModel where
  | jump (m : JumpModel)
  | curve (m : CurveModel)
deriving DecidableEq

namespace InterestRateModel

def checkModel : InterestRateModel → Bool
  | jump m => m.checkModel
  | curve m => m.checkModel

def getBorrowRate : InterestRateModel → Permill → Option FixedU128
  | jump m => m.getBorrowRate
  | curve m => m.getBorrowRate

/-- `((1 - reserve_factor) * borrow_rate) * utilization`. -/
def getSupplyRate (borrowRate : FixedU128) (util reserveFactor : Permill) : FixedU128 :=
  let rateToPool := borrowRate.saturatingMul (.ofPermill (Permill.one.saturatingSub reserveFactor))
  rateToPool.saturatingMul (.ofPermill util)

end InterestRateModel

end Bifrost.LendMarket
