import Bifrost.Lib.Machine
import Bifrost.Lib.Result
import Bifrost.Lib.Table
import Bifrost.Primitives.Arithmetic
import Bifrost.Primitives.MultiCurrency

/-!
# The no-interest-loans pallet

Storage, helpers and calls of `pallets/no-interest-loans`. A call returns the new storage
or the reason it failed; a failed call is rolled back by the dispatcher. `payments` is the
sequence of transfers asked of `MultiCurrency`, each with the loan it was made for; the
transfers that accounts make among themselves are part of it and belong to no loan.
-/

namespace Bifrost.NoInterestLoans

open Result
set_option autoImplicit false

inductive LoanStatus where
  | active
  | repaid
  | liquidated
deriving DecidableEq, Repr

structure LoanPosition (AccountId : Type) where
  borrower : AccountId
  collateralVtoken : CurrencyId
  collateralAmount : ℕ
  loanCurrency : CurrencyId
  loanAmount : ℕ
  createdAt : ℕ
  status : LoanStatus
deriving DecidableEq

inductive Error where
  | loanNotFound
  | notLoanOwner
  | loanNotActive
  | insufficientCollateral
  | priceNotAvailable
  | ltvTooHigh
  | arithmeticOverflow
  | tooManyLoans
  | invalidCollateralCurrency
  | noRewardsToClaim
  | loanNotLiquidatable
deriving DecidableEq, Repr

/-- Why a call did not complete: an error of the pallet, an error of `MultiCurrency`, or a
panic, which aborts the extrinsic. -/
inductive Fault where
  | pallet (e : Error)
  | token (e : TokenError)
  | panic
deriving DecidableEq, Repr

inductive Event (AccountId : Type) where
  | loanCreated (loanId : ℕ) (borrower : AccountId) (collateralCurrency : CurrencyId)
      (collateralAmount : ℕ) (loanCurrency : CurrencyId) (loanAmount : ℕ)
  | loanRepaid (loanId : ℕ) (borrower : AccountId)
  | loanLiquidated (loanId : ℕ) (borrower liquidator : AccountId)
      (collateralLiquidated debtCovered : ℕ)
  | cycleRewardsDistributed (cycleRewards totalAssetValue nActiveLoans : ℕ)
  | rewardsClaimed (loanId totalRewards platformShare userShare : ℕ)
deriving DecidableEq

inductive Purpose where
  | collateralIn
  | loanOut
  | repayment
  | borrowerReward
  | treasuryReward
  | collateralOut
  | external
deriving DecidableEq, Repr

structure Payment (AccountId : Type) where
  purpose : Purpose
  loanId : Option ℕ
  currency : CurrencyId
  source : AccountId
  dest : AccountId
  amount : ℕ
deriving DecidableEq

/-- The runtime's choices: `accountId` is `PalletId(*b"hlallend").into_account_truncating()`
and `maxLoanId` the largest value of the `LoanId` type. -/
structure Config (AccountId : Type) where
  currency : MultiCurrency AccountId
  accountId : AccountId
  treasuryAccount : AccountId
  maxLTV : Permill
  liquidationThreshold : Permill
  stakingRewardFee : Permill
  maxLoanId : ℕ

/-- The constants of the runtime, which has `LoanId = u64`. -/
def Config.runtime {AccountId : Type} (currency : MultiCurrency AccountId)
    (accountId treasuryAccount : AccountId) : Config AccountId where
  currency := currency
  accountId := accountId
  treasuryAccount := treasuryAccount
  maxLTV := .fromPercent 50
  liquidationThreshold := .fromPercent 75
  stakingRewardFee := .fromPercent 10
  maxLoanId := 2 ^ 64 - 1

variable {AccountId : Type}

structure State (cfg : Config AccountId) where
  loans : Table ℕ (LoanPosition AccountId)
  userLoans : AccountId → Option (List ℕ)
  nextLoanId : ℕ
  loanRewards : Table ℕ ℕ
  ledger : cfg.currency.Ledger
  prices : CurrencyId → Option FixedU128
  blockNumber : ℕ
  payments : List (Payment AccountId)
  events : List (Event AccountId)

def maxUserLoans : ℕ := 100

section Helpers

variable {cfg : Config AccountId}

def State.depositEvent (s : State cfg) (e : Event AccountId) : State cfg :=
  { s with events := s.events ++ [e] }

def State.rewardsOf (s : State cfg) (loanId : ℕ) : ℕ := (s.loanRewards.get loanId).getD 0

def State.pay (s : State cfg) (p : Payment AccountId) : Except Fault (State cfg) := do
  let ledger ← mapErr (cfg.currency.transfer s.ledger p.currency p.source p.dest p.amount)
    Fault.token
  pure { s with ledger := ledger, payments := s.payments ++ [p] }

def isValidVtokenCollateral : CurrencyId → Bool
  | .vToken _ | .vToken2 _ | .vsToken _ | .vsToken2 _ => true
  | _ => false

def State.getCollateralValue (s : State cfg) (collateralCurrency : CurrencyId)
    (collateralAmount : ℕ) (loanCurrency : CurrencyId) : Except Fault ℕ := do
  let collateralPrice ← okOr (s.prices collateralCurrency) (.pallet .priceNotAvailable)
  let loanPrice ← okOr (s.prices loanCurrency) (.pallet .priceNotAvailable)
  let collateralValueUsd ← okOr (collateralPrice.checkedMulInt collateralAmount)
    (.pallet .arithmeticOverflow)
  okOr (loanPrice.reciprocal.bind fun reciprocal => reciprocal.checkedMulInt collateralValueUsd)
    (.pallet .arithmeticOverflow)

def State.calculateLtv (s : State cfg) (loanId : ℕ) : Except Fault Permill := do
  let loan ← okOr (s.loans.get loanId) (.pallet .loanNotFound)
  let collateralValue ← s.getCollateralValue loan.collateralVtoken loan.collateralAmount
    loan.loanCurrency
  pure (Permill.fromRational loan.loanAmount collateralValue)

def State.isLiquidatable (s : State cfg) (loanId : ℕ) : Except Fault Bool := do
  let loan ← okOr (s.loans.get loanId) (.pallet .loanNotFound)
  if loan.status ≠ .active then pure false
  else
    let currentLtv ← s.calculateLtv loanId
    pure (decide (cfg.liquidationThreshold.parts ≤ currentLtv.parts))

def State.claimLoanRewards (s : State cfg) (loanId : ℕ) : Except Fault (State cfg) := do
  let loan ← okOr (s.loans.get loanId) (.pallet .loanNotFound)
  ensure (loan.status = .active) (.pallet .loanNotActive)
  let rewards := s.rewardsOf loanId
  if rewards = 0 then pure s
  else
    let platformShare := cfg.stakingRewardFee.mulFloor rewards
    let loaneeRewards := rewards - platformShare
    let s ← s.pay ⟨.borrowerReward, some loanId, loan.collateralVtoken, cfg.accountId,
      loan.borrower, loaneeRewards⟩
    let s ← s.pay ⟨.treasuryReward, some loanId, loan.collateralVtoken, cfg.accountId,
      cfg.treasuryAccount, platformShare⟩
    let s := s.depositEvent (.rewardsClaimed loanId rewards platformShare loaneeRewards)
    pure { s with loanRewards := s.loanRewards.write loanId (some 0) }

def pushLoan (loans : Option (List ℕ)) (loanId : ℕ) : Except Fault (List ℕ) := do
  let ids := loans.getD []
  ensure (ids.length < maxUserLoans) (.pallet .tooManyLoans)
  pure (ids ++ [loanId])

end Helpers

section Calls

variable [DecidableEq AccountId] (cfg : Config AccountId)

def createLoan (s : State cfg) (who : AccountId) (vtokenId : CurrencyId) (collateralAmount : ℕ)
    (loanCurrency : CurrencyId) (loanAmount : ℕ) : Except Fault (State cfg) := do
  let loanId := s.nextLoanId
  ensure (isValidVtokenCollateral vtokenId) (.pallet .invalidCollateralCurrency)
  let s ← s.pay ⟨.collateralIn, some loanId, vtokenId, who, cfg.accountId, collateralAmount⟩
  let loan : LoanPosition AccountId := ⟨who, vtokenId, collateralAmount, loanCurrency, loanAmount,
    s.blockNumber, .active⟩
  let s := { s with
    loans := s.loans.write loanId (some loan)
    loanRewards := s.loanRewards.write loanId (some 0) }
  let ids ← pushLoan (s.userLoans who) loanId
  let s := { s with userLoans := Function.update s.userLoans who (some ids) }
  ensure (loanId + 1 ≤ cfg.maxLoanId) (.pallet .arithmeticOverflow)
  let s := { s with nextLoanId := loanId + 1 }
  let s ← s.pay ⟨.loanOut, some loanId, loanCurrency, cfg.accountId, who, loanAmount⟩
  pure (s.depositEvent
    (.loanCreated loanId who vtokenId collateralAmount loanCurrency loanAmount))

def settleRepayment (s : State cfg) (who : AccountId) (loanId : ℕ) :
    Except Fault (LoanPosition AccountId × State cfg) := do
  let loan ← okOr (s.loans.get loanId) (.pallet .loanNotFound)
  ensure (loan.borrower = who) (.pallet .notLoanOwner)
  ensure (loan.status = .active) (.pallet .loanNotActive)
  let s ← s.pay ⟨.repayment, some loanId, loan.loanCurrency, who, cfg.accountId,
    loan.loanAmount⟩
  let s ← s.claimLoanRewards loanId
  pure (loan, s)

def settleLiquidation (s : State cfg) (liquidator : AccountId) (loanId : ℕ) :
    Except Fault (LoanPosition AccountId × State cfg) := do
  let loan ← okOr (s.loans.get loanId) (.pallet .loanNotFound)
  ensure (loan.status = .active) (.pallet .loanNotActive)
  let liquidatable ← s.isLiquidatable loanId
  ensure (liquidatable = true) (.pallet .loanNotLiquidatable)
  let s ← s.claimLoanRewards loanId
  let s ← s.pay ⟨.repayment, some loanId, loan.loanCurrency, liquidator, cfg.accountId,
    loan.loanAmount⟩
  pure (loan, s)

def releaseCollateral (s : State cfg) (loan : LoanPosition AccountId) (loanId : ℕ)
    (receiver : AccountId) (status : LoanStatus) : Except Fault (State cfg) := do
  let s ← s.pay ⟨.collateralOut, some loanId, loan.collateralVtoken, cfg.accountId,
    receiver, loan.collateralAmount⟩
  pure { s with loans := s.loans.write loanId (some { loan with status := status }) }

def repayLoan (s : State cfg) (who : AccountId) (loanId : ℕ) : Except Fault (State cfg) := do
  let (loan, s) ← settleRepayment cfg s who loanId
  let s ← releaseCollateral cfg s loan loanId who .repaid
  pure (s.depositEvent (.loanRepaid loanId who))

def liquidateLoan (s : State cfg) (liquidator : AccountId) (loanId : ℕ) :
    Except Fault (State cfg) := do
  let (loan, s) ← settleLiquidation cfg s liquidator loanId
  let s ← releaseCollateral cfg s loan loanId liquidator .liquidated
  pure (s.depositEvent
    (.loanLiquidated loanId loan.borrower liquidator loan.collateralAmount loan.loanAmount))

def activeLoans (s : State cfg) : List (ℕ × LoanPosition AccountId) :=
  s.loans.entries.filter fun e => e.2.status = .active

def assetValue (s : State cfg) (e : ℕ × LoanPosition AccountId) : ℕ :=
  U128.saturatingAdd e.2.collateralAmount (s.rewardsOf e.1)

def loaneeShare (cycleRewards totalAssetValue collateralAmount : ℕ) : ℕ :=
  U128.saturatingMul cycleRewards collateralAmount / totalAssetValue

def creditLoan (cycleRewards totalAssetValue : ℕ) (rewards : Table ℕ ℕ)
    (e : ℕ × LoanPosition AccountId) : Table ℕ ℕ :=
  rewards.write e.1 (some (U128.saturatingAdd ((rewards.get e.1).getD 0)
    (loaneeShare cycleRewards totalAssetValue e.2.collateralAmount)))

/-- The sum of the asset values is a plain `u128` sum: the release profile has no overflow
checks, so it wraps. The division that follows panics on a zero divisor. -/
def distributeCycleRewards (s : State cfg) (cycleRewards : ℕ) : Except Fault (State cfg) := do
  let active := activeLoans cfg s
  if active = [] then pure s
  else
    let totalAssetValue := (active.map (assetValue cfg s)).sum % 2 ^ 128
    ensure (totalAssetValue ≠ 0) .panic
    let s := { s with
      loanRewards := active.foldl (creditLoan cycleRewards totalAssetValue) s.loanRewards }
    pure (s.depositEvent (.cycleRewardsDistributed cycleRewards totalAssetValue active.length))

/-- The calls, and what happens around them: accounts transfer among themselves, the oracle
updates its prices and blocks pass. `distribute_cycle_rewards` ignores its origin. -/
inductive Call (AccountId : Type) where
  | createLoan (who : AccountId) (vtokenId : CurrencyId) (collateralAmount : ℕ)
      (loanCurrency : CurrencyId) (loanAmount : ℕ)
  | repayLoan (who : AccountId) (loanId : ℕ)
  | liquidateLoan (liquidator : AccountId) (loanId : ℕ)
  | distributeCycleRewards (cycleRewards : ℕ)
  | transfer (who dest : AccountId) (currency : CurrencyId) (amount : ℕ)
  | setPrice (currency : CurrencyId) (price : Option FixedU128)
  | nextBlock

def step (s : State cfg) : Call AccountId → Except Fault (State cfg)
  | .createLoan who v ca lc la => createLoan cfg s who v ca lc la
  | .repayLoan who id => repayLoan cfg s who id
  | .liquidateLoan who id => liquidateLoan cfg s who id
  | .distributeCycleRewards r => distributeCycleRewards cfg s r
  | .transfer who dest c n => s.pay ⟨.external, none, c, who, dest, n⟩
  | .setPrice c p => pure { s with prices := Function.update s.prices c p }
  | .nextBlock => pure { s with blockNumber := s.blockNumber + 1 }

def genesis (ledger : cfg.currency.Ledger) (prices : CurrencyId → Option FixedU128)
    (blockNumber : ℕ) : State cfg :=
  ⟨∅, fun _ => none, 0, ∅, ledger, prices, blockNumber, [], []⟩

end Calls

end Bifrost.NoInterestLoans
