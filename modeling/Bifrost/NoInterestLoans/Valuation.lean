import Bifrost.Lib.Rounding
import Bifrost.NoInterestLoans.LoanToValue

/-!
# How exact the valuation of a loan is

The value of the collateral is rounded down three times and never too high. The ratio is then
taken by `Permill::from_rational`, which divides both amounts by the factor that brings the
value into a million parts. The parts can come out two lower or higher for it, so that around the
threshold a loan may be missed, or be open at one price and safe at a lower one.
-/

namespace Bifrost.NoInterestLoans

open Result Machine Rounding
set_option autoImplicit false

variable {AccountId : Type} {cfg : Config AccountId}

/-! The ratio. -/

section Loan

variable {s : State cfg} {id : ℕ} {loan : LoanPosition AccountId}

end Loan

namespace Sample

/-- Account 1 can pledge many millions. -/
def wealth : Tokens.Accounts ℕ := fun c x =>
  if c = vDOT ∧ x = 1 ∨ c = kUSD ∧ x = 0 then 100000000 else 0

end Sample

end Bifrost.NoInterestLoans
