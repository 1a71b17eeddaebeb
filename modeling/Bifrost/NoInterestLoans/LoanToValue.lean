import Bifrost.NoInterestLoans.Solvency

/-!
# The loan-to-value ratio of a new loan

`create_loan` reads neither prices nor thresholds. `WellCollateralised` is the condition on
prices and amounts under which the loan it opens respects both thresholds, as arithmetic on
the units of the prices; it takes the truncation of every conversion into account.
-/

namespace Bifrost.NoInterestLoans

open Machine
set_option autoImplicit false

variable {AccountId : Type} {cfg : Config AccountId}

/-! The conversions in units. -/

/-- The factor by which `Permill::from_rational` shortens a fraction over `q`. -/
def shortening (q : ℕ) : ℕ := max (U128.divCeil q 1000000) 1

/-- `loanAmount` respects a limit of `n` parts, exclusive, over collateral worth `value`. -/
def Below (loanAmount value n : ℕ) : Prop :=
  loanAmount / shortening value * 1000000 < n * (value / shortening value)

section Loan

variable {s : State cfg} {id : ℕ} {loan : LoanPosition AccountId}

end Loan

section Create

variable [DecidableEq AccountId]

end Create

end Bifrost.NoInterestLoans
