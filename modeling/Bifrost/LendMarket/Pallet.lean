import Bifrost.LendMarket.Farming

/-!
# The lend-market pallet

The calls of `lib.rs`, the functions that other pallets reach through `LendMarketTrait` and the
lend-token transfer of `lend_token.rs`. A failed call is rolled back. `UpdateOrigin` and
`ReserveOrigin` are the origins that governance has; their calls take no account.
-/

namespace Bifrost.LendMarket

open Result
set_option autoImplicit false

variable {AccountId : Type} [DecidableEq AccountId] {cfg : Config AccountId}

namespace State

def setDeposits (s : State cfg) (asset : CurrencyId) (who : AccountId) (o : Option Deposits) :
    State cfg :=
  { s with
    accountDeposits := Function.update s.accountDeposits asset
      ((s.accountDeposits asset).write who o) }

def addVouchers (s : State cfg) (asset : CurrencyId) (who : AccountId) (amount : ℕ) :
    Except Fault (State cfg) := do
  let d := s.depositsOf asset who
  let balance ← okOr (U128.checkedAdd d.voucherBalance amount) .overflow
  pure (s.setDeposits asset who (some { d with voucherBalance := balance }))

def removeVouchers (s : State cfg) (asset : CurrencyId) (who : AccountId) (amount : ℕ) :
    Except Fault (State cfg) := do
  let d := s.depositsOf asset who
  let balance ← okOr (U128.checkedSub d.voucherBalance amount) .underflow
  pure (s.setDeposits asset who
    (if balance = 0 then none else some { d with voucherBalance := balance }))

/-- `try_mutate` that takes vouchers; an empty entry stays. -/
def seizeVouchers (s : State cfg) (asset : CurrencyId) (who : AccountId) (amount : ℕ) :
    Except Fault (State cfg) := do
  let d := s.depositsOf asset who
  let balance ← okOr (U128.checkedSub d.voucherBalance amount) .underflow
  pure (s.setDeposits asset who (some { d with voucherBalance := balance }))

def setBorrows (s : State cfg) (asset : CurrencyId) (who : AccountId) (principal : ℕ) :
    State cfg :=
  { s with
    accountBorrows := Function.update s.accountBorrows asset
      (Function.update (s.accountBorrows asset) who ⟨principal, s.borrowIndex asset⟩) }

def updateEarnedStored (s : State cfg) (who : AccountId) (asset : CurrencyId)
    (exchangeRate : FixedU128) : Except Fault (State cfg) := do
  let deposits := s.depositsOf asset who
  let earned := s.accountEarned asset who
  let totalEarnedPriorNew ← okOr (((exchangeRate.checkedSub earned.exchangeRatePrior).bind
    fun r => r.checkedMulInt deposits.voucherBalance).bind
      (U128.checkedAdd · earned.totalEarnedPrior)) .overflow
  pure { s with
    accountEarned := Function.update s.accountEarned asset
      (Function.update (s.accountEarned asset) who ⟨totalEarnedPriorNew, exchangeRate⟩) }

end State

def doMint (s : State cfg) (supplier : AccountId) (asset : CurrencyId) (amount : ℕ) :
    Except Fault (State cfg) := do
  ensure (amount ≠ 0) (.pallet .invalidAmount)
  let _ ← s.ensureActiveMarket asset
  s.ensureUnderSupplyCap asset amount
  let s ← s.accrueInterest asset
  let s ← s.updateRewardSupplyIndex asset
  let s ← s.distributeSupplierReward asset supplier
  let exchangeRate ← s.exchangeRateStored asset
  let s ← s.updateEarnedStored supplier asset exchangeRate
  let voucherAmount ← calcCollateralAmount amount exchangeRate
  ensure (voucherAmount ≠ 0) (.pallet .invalidExchangeRate)
  let s ← s.transfer asset supplier cfg.accountId amount .expendable
  let s ← s.addVouchers asset supplier voucherAmount
  let totalSupply ← okOr (U128.checkedAdd (s.totalSupply asset) voucherAmount) .overflow
  pure { s with totalSupply := Function.update s.totalSupply asset totalSupply }

def doRedeemVoucher (s : State cfg) (who : AccountId) (asset : CurrencyId) (voucherAmount : ℕ) :
    Except Fault (ℕ × State cfg) := do
  s.redeemAllowed asset who voucherAmount
  let s ← s.updateRewardSupplyIndex asset
  let s ← s.distributeSupplierReward asset who
  let exchangeRate ← s.exchangeRateStored asset
  let redeemAmount ← calcUnderlyingAmount voucherAmount exchangeRate
  let s ← s.removeVouchers asset who voucherAmount
  let totalSupply ← okOr (U128.checkedSub (s.totalSupply asset) voucherAmount) .underflow
  let s := { s with totalSupply := Function.update s.totalSupply asset totalSupply }
  let s ← mapErr (s.transfer asset cfg.accountId who redeemAmount .expendable)
    fun _ => .pallet .insufficientCash
  pure (redeemAmount, s)

def doRedeem (s : State cfg) (supplier : AccountId) (asset : CurrencyId) (amount : ℕ) :
    Except Fault (ℕ × State cfg) := do
  let _ ← s.ensureActiveMarket asset
  let s ← s.accrueInterest asset
  let exchangeRate ← s.exchangeRateStored asset
  let s ← s.updateEarnedStored supplier asset exchangeRate
  let voucherAmount ← calcCollateralAmount amount exchangeRate
  doRedeemVoucher s supplier asset voucherAmount

def doRedeemAll (s : State cfg) (who : AccountId) (asset : CurrencyId) :
    Except Fault (ℕ × State cfg) := do
  let _ ← s.ensureActiveMarket asset
  let s ← s.accrueInterest asset
  let exchangeRate ← s.exchangeRateStored asset
  let s ← s.updateEarnedStored who asset exchangeRate
  doRedeemVoucher s who asset (s.depositsOf asset who).voucherBalance

def doBorrow (s : State cfg) (borrower : AccountId) (asset : CurrencyId) (amount : ℕ) :
    Except Fault (State cfg) := do
  let _ ← s.ensureActiveMarket asset
  let s ← s.accrueInterest asset
  s.borrowAllowedForMarketBond asset borrower amount
  s.borrowAllowed asset borrower amount
  let s ← s.updateRewardBorrowIndex asset
  let s ← s.distributeBorrowerReward asset borrower
  let accountBorrows ← s.currentBorrowBalance borrower asset
  let accountBorrowsNew ← okOr (U128.checkedAdd accountBorrows amount) .overflow
  let totalBorrowsNew ← okOr (U128.checkedAdd (s.totalBorrows asset) amount) .overflow
  let s := s.setBorrows asset borrower accountBorrowsNew
  let s := { s with totalBorrows := Function.update s.totalBorrows asset totalBorrowsNew }
  s.transfer asset cfg.accountId borrower amount .expendable

/-- The subtraction from the total saturates: the total and the debts of the accounts accrue
interest in different ways. -/
def doRepayBorrowWithAmount (s : State cfg) (borrower : AccountId) (asset : CurrencyId)
    (accountBorrows repayAmount : ℕ) : Except Fault (State cfg) := do
  ensure (repayAmount ≤ accountBorrows) (.pallet .tooMuchRepay)
  let s ← s.updateRewardBorrowIndex asset
  let s ← s.distributeBorrowerReward asset borrower
  let s ← s.transfer asset borrower cfg.accountId repayAmount .expendable
  let accountBorrowsNew ← okOr (U128.checkedSub accountBorrows repayAmount) .underflow
  let totalBorrowsNew := s.totalBorrows asset - repayAmount
  let s := s.setBorrows asset borrower accountBorrowsNew
  pure { s with totalBorrows := Function.update s.totalBorrows asset totalBorrowsNew }

def doRepayBorrow (s : State cfg) (borrower : AccountId) (asset : CurrencyId) (amount : ℕ) :
    Except Fault (State cfg) := do
  let _ ← s.ensureActiveMarket asset
  let s ← s.accrueInterest asset
  let accountBorrows ← s.currentBorrowBalance borrower asset
  doRepayBorrowWithAmount s borrower asset accountBorrows amount

def repayBorrowAll (s : State cfg) (who : AccountId) (asset : CurrencyId) :
    Except Fault (State cfg) := do
  let _ ← s.ensureActiveMarket asset
  let s ← s.accrueInterest asset
  let accountBorrows ← s.currentBorrowBalance who asset
  doRepayBorrow s who asset accountBorrows

def doCollateralAsset (s : State cfg) (supplier : AccountId) (asset : CurrencyId)
    (enable : Bool) : Except Fault (State cfg) := do
  let _ ← s.ensureActiveMarket asset
  ensure (s.hasDeposits asset supplier) (.pallet .noDeposit)
  let deposits := s.depositsOf asset supplier
  if enable then
    pure (s.setDeposits asset supplier (some { deposits with isCollateral := true }))
  else
    let totalCollateralValue ← s.totalCollateralValue supplier
    let collateralAssetValue ← s.collateralAssetValue supplier asset
    let totalBorrowedValue ← s.totalBorrowedValue supplier
    let needed ← okOr (totalBorrowedValue.checkedAdd collateralAssetValue) .overflow
    ensure (needed.inner ≤ totalCollateralValue.inner) (.pallet .insufficientLiquidity)
    pure (s.setDeposits asset supplier (some { deposits with isCollateral := false }))

def collateralAsset (s : State cfg) (who : AccountId) (asset : CurrencyId) (enable : Bool) :
    Except Fault (State cfg) := do
  let _ ← s.ensureActiveMarket asset
  ensure (s.hasDeposits asset who) (.pallet .noDeposit)
  ensure ((s.depositsOf asset who).isCollateral ≠ enable) (.pallet .duplicateOperation)
  doCollateralAsset s who asset enable

def incentiveReservedAmount (market : Market) (collateralAmount : ℕ) : Except Fault ℕ := do
  let seizedWithoutIncentive ← okOr ((FixedU128.mk collateralAmount).checkedDiv
    market.liquidateIncentive) .underflow
  pure (market.liquidateIncentiveReservedFactor.mulFloor seizedWithoutIncentive.inner)

def repayForBorrower (s : State cfg) (liquidator borrower : AccountId)
    (liquidationAsset : CurrencyId) (repayAmount : ℕ) : Except Fault (State cfg) := do
  let s ← s.updateRewardBorrowIndex liquidationAsset
  let s ← s.distributeBorrowerReward liquidationAsset liquidator
  let s ← s.transfer liquidationAsset liquidator cfg.accountId repayAmount .expendable
  let accountBorrows ← s.currentBorrowBalance borrower liquidationAsset
  let accountBorrowsNew ← okOr (U128.checkedSub accountBorrows repayAmount) .underflow
  let totalBorrowsNew ← okOr (U128.checkedSub (s.totalBorrows liquidationAsset) repayAmount)
    .underflow
  let s := s.setBorrows liquidationAsset borrower accountBorrowsNew
  pure { s with totalBorrows := Function.update s.totalBorrows liquidationAsset totalBorrowsNew }

/-- The second half: vouchers of the borrower go to the liquidator and, in part, to the
incentive account. The difference of the two amounts is a plain subtraction, which wraps. -/
def seizeCollateral (s : State cfg) (liquidator borrower : AccountId)
    (collateralAsset : CurrencyId) (collateralUnderlyingAmount : ℕ) (market : Market) :
    Except Fault (State cfg) := do
  let s ← s.updateRewardSupplyIndex collateralAsset
  let s ← s.distributeSupplierReward collateralAsset liquidator
  let s ← s.distributeSupplierReward collateralAsset borrower
  let s ← s.distributeSupplierReward collateralAsset cfg.incentiveRewardAccountId
  let exchangeRate ← s.exchangeRateStored collateralAsset
  let collateralAmount ← calcCollateralAmount collateralUnderlyingAmount exchangeRate
  let s ← s.seizeVouchers collateralAsset borrower collateralAmount
  let incentiveReservedAmount ← incentiveReservedAmount market collateralAmount
  let s ← s.addVouchers collateralAsset liquidator
    (U128.wrappingSub collateralAmount incentiveReservedAmount)
  s.addVouchers collateralAsset cfg.incentiveRewardAccountId incentiveReservedAmount

def liquidatedUnderlying (s : State cfg) (borrower : AccountId) (liquidationAsset : CurrencyId)
    (repayAmount : ℕ) (collateralAsset : CurrencyId) (market : Market) : Except Fault ℕ := do
  let deposits := s.depositsOf collateralAsset borrower
  ensure deposits.isCollateral (.pallet .depositsAreNotCollateral)
  let exchangeRate ← s.exchangeRateStored collateralAsset
  let borrowerDepositAmount ← okOr (exchangeRate.checkedMulInt deposits.voucherBalance) .overflow
  let collateralValue ← s.getAssetValue collateralAsset borrowerDepositAmount
  let repayValue ← s.getAssetValue liquidationAsset repayAmount
  let liquidateValue ← okOr (repayValue.checkedMul market.liquidateIncentive) .overflow
  ensure (liquidateValue.inner ≤ collateralValue.inner) (.pallet .insufficientCollateral)
  let collateralTokenPrice ← s.getPrice collateralAsset
  let amount ← okOr (liquidateValue.checkedDiv collateralTokenPrice) .underflow
  pure amount.inner

def doLiquidateBorrow (s : State cfg) (liquidator borrower : AccountId)
    (liquidationAsset : CurrencyId) (repayAmount : ℕ) (collateralAsset : CurrencyId) :
    Except Fault (State cfg) := do
  let _ ← s.ensureActiveMarket liquidationAsset
  let _ ← s.ensureActiveMarket collateralAsset
  let market ← s.market liquidationAsset
  ensure (borrower ≠ liquidator) (.pallet .liquidatorIsBorrower)
  s.liquidateBorrowAllowed borrower liquidationAsset repayAmount market
  let collateralUnderlyingAmount ←
    liquidatedUnderlying s borrower liquidationAsset repayAmount collateralAsset market
  let s ← repayForBorrower s liquidator borrower liquidationAsset repayAmount
  seizeCollateral s liquidator borrower collateralAsset collateralUnderlyingAmount market

def liquidateBorrow (s : State cfg) (who borrower : AccountId) (liquidationAsset : CurrencyId)
    (repayAmount : ℕ) (collateralAsset : CurrencyId) : Except Fault (State cfg) := do
  ensure (collateralAsset ∉ s.liquidationFreeCollaterals) (.pallet .collateralReserved)
  let s ← s.accrueInterest liquidationAsset
  let s ← s.accrueInterest collateralAsset
  doLiquidateBorrow s who borrower liquidationAsset repayAmount collateralAsset

/-! Lend tokens. -/

def underlyingId (s : State cfg) (lendTokenId : CurrencyId) : Except Fault CurrencyId :=
  okOr (s.underlyingAssetId lendTokenId) (.pallet .invalidLendTokenId)

/-- `liquidity / collateral_factor / price`, in vouchers at the exchange rate last saved. -/
def reducibleVouchers (s : State cfg) (underlying : CurrencyId) (market : Market)
    (liquidity : FixedU128) : Except Fault ℕ := do
  let price ← s.getPrice underlying
  let supplyValue ← okOr (liquidity.checkedDiv (.ofPermill market.collateralFactor)) .overflow
  let underlyingAmount ← okOr (supplyValue.checkedDiv price) .underflow
  calcCollateralAmount underlyingAmount.inner (s.exchangeRate underlying)

def reducibleAsset (s : State cfg) (lendTokenId : CurrencyId) (who : AccountId) :
    Except Fault ℕ := do
  let underlying ← underlyingId s lendTokenId
  let deposits := s.depositsOf underlying who
  if ¬ deposits.isCollateral then pure deposits.voucherBalance
  else
    let market ← s.ensureActiveMarket underlying
    let collateralValue ← s.collateralAssetValue who underlying
    let l ← s.getAccountLiquidity who
    if collateralValue.inner ≤ l.liquidity.inner then pure deposits.voucherBalance
    else reducibleVouchers s underlying market l.liquidity

/-- `reducible_balance`: nothing where `reducible_asset` fails. -/
def reducibleBalance (s : State cfg) (lendTokenId : CurrencyId) (who : AccountId) : ℕ :=
  (reducibleAsset s lendTokenId who).toOption.getD 0

/-- The reward index and the settlements take the id of the lend token. -/
def doTransferLendTokens (s : State cfg) (lendTokenId : CurrencyId) (source dest : AccountId)
    (amount : ℕ) : Except Fault (State cfg) := do
  let s ← s.updateRewardSupplyIndex lendTokenId
  let s ← s.distributeSupplierReward lendTokenId source
  let s ← s.distributeSupplierReward lendTokenId dest
  let underlying ← underlyingId s lendTokenId
  let s ← s.removeVouchers underlying source amount
  s.addVouchers underlying dest amount

def transferLendToken (s : State cfg) (lendTokenId : CurrencyId) (source dest : AccountId)
    (amount : ℕ) : Except Fault (State cfg) := do
  ensure (amount ≤ reducibleBalance s lendTokenId source) (.pallet .insufficientCollateral)
  doTransferLendTokens s lendTokenId source dest amount

/-! Reserves. -/

def addReserves (s : State cfg) (payer : AccountId) (asset : CurrencyId) (addAmount : ℕ) :
    Except Fault (State cfg) := do
  let _ ← s.ensureActiveMarket asset
  let s ← s.transfer asset payer cfg.accountId addAmount .expendable
  let totalReservesNew ← okOr (U128.checkedAdd (s.totalReserves asset) addAmount) .overflow
  pure { s with totalReserves := Function.update s.totalReserves asset totalReservesNew }

def reduceReserves (s : State cfg) (receiver : AccountId) (asset : CurrencyId)
    (reduceAmount : ℕ) : Except Fault (State cfg) := do
  let _ ← s.ensureActiveMarket asset
  let totalReserves := s.totalReserves asset
  ensure (reduceAmount ≤ totalReserves) (.pallet .insufficientReserves)
  let totalReservesNew ← okOr (U128.checkedSub totalReserves reduceAmount) .underflow
  let s := { s with totalReserves := Function.update s.totalReserves asset totalReservesNew }
  s.transfer asset cfg.accountId receiver reduceAmount .expendable

def reduceIncentiveReserves (s : State cfg) (receiver : AccountId) (asset : CurrencyId)
    (redeemAmount : ℕ) : Except Fault (State cfg) := do
  ensure (redeemAmount ≠ 0) (.pallet .invalidAmount)
  let _ ← s.ensureActiveMarket asset
  let exchangeRate ← s.exchangeRateStored asset
  let voucherAmount ← calcCollateralAmount redeemAmount exchangeRate
  let (redeemAmount, s) ← doRedeemVoucher s cfg.incentiveRewardAccountId asset voucherAmount
  s.transfer asset cfg.incentiveRewardAccountId receiver redeemAmount .expendable

/-! Markets. -/

def ensureLendToken (s : State cfg) (lendTokenId : CurrencyId) : Except Fault Unit := do
  ensure (s.underlyingAssetId lendTokenId = none) (.pallet .invalidLendTokenId)
  ensure (s.markets.get lendTokenId = none) (.pallet .invalidLendTokenId)

def mutateMarket (s : State cfg) (asset : CurrencyId) (f : Market → Market) :
    Except Fault (State cfg) := do
  let market ← s.market asset
  pure { s with markets := s.markets.write asset (some (f market)) }

/-- The checks that `add_market` and `update_market` share. -/
def ensureFactors (collateralFactor liquidationThreshold reserveFactor : Permill) :
    Except Fault Unit := do
  ensure (collateralFactor.parts < Permill.one.parts) (.pallet .invalidFactor)
  ensure (liquidationThreshold.parts < Permill.one.parts ∧
    collateralFactor.parts ≤ liquidationThreshold.parts) (.pallet .invalidFactor)
  ensure (0 < reserveFactor.parts ∧ reserveFactor.parts < Permill.one.parts)
    (.pallet .invalidFactor)

def addMarket (s : State cfg) (asset : CurrencyId) (market : Market) :
    Except Fault (State cfg) := do
  ensure (s.markets.entries.length < maxMarkets) (.pallet .tooManyMarkets)
  ensure (s.markets.get asset = none) (.pallet .marketAlreadyExists)
  ensure (market.state = .pending) (.pallet .newMarketMustHavePendingState)
  ensure market.rateModel.checkModel (.pallet .invalidRateModelParam)
  ensureFactors market.collateralFactor market.liquidationThreshold market.reserveFactor
  ensure (0 < market.liquidateIncentiveReservedFactor.parts ∧
    market.liquidateIncentiveReservedFactor.parts < Permill.one.parts) (.pallet .invalidFactor)
  ensure (0 < market.supplyCap) (.pallet .invalidSupplyCap)
  ensureLendToken s market.lendTokenId
  pure { s with
    markets := s.markets.write asset (some market)
    underlyingAssetId := Function.update s.underlyingAssetId market.lendTokenId (some asset)
    exchangeRate := Function.update s.exchangeRate asset minExchangeRate
    borrowIndex := Function.update s.borrowIndex asset .one }

def activateMarket (s : State cfg) (asset : CurrencyId) : Except Fault (State cfg) :=
  mutateMarket s asset fun market => { market with state := .active }

def updateRateModel (s : State cfg) (asset : CurrencyId) (rateModel : InterestRateModel) :
    Except Fault (State cfg) := do
  ensure rateModel.checkModel (.pallet .invalidRateModelParam)
  mutateMarket s asset fun market => { market with rateModel := rateModel }

structure MarketUpdate where
  collateralFactor : Option Permill
  liquidationThreshold : Option Permill
  reserveFactor : Option Permill
  closeFactor : Option Permill
  liquidateIncentiveReservedFactor : Option Permill
  liquidateIncentive : Option FixedU128
  supplyCap : Option ℕ
  borrowCap : Option ℕ

def MarketUpdate.apply (u : MarketUpdate) (market : Market) : Market :=
  { market with
    collateralFactor := u.collateralFactor.getD market.collateralFactor
    liquidationThreshold := u.liquidationThreshold.getD market.liquidationThreshold
    reserveFactor := u.reserveFactor.getD market.reserveFactor
    closeFactor := u.closeFactor.getD market.closeFactor
    liquidateIncentiveReservedFactor :=
      u.liquidateIncentiveReservedFactor.getD market.liquidateIncentiveReservedFactor
    liquidateIncentive := u.liquidateIncentive.getD market.liquidateIncentive
    supplyCap := u.supplyCap.getD market.supplyCap
    borrowCap := u.borrowCap.getD market.borrowCap }

def updateMarket (s : State cfg) (asset : CurrencyId) (u : MarketUpdate) :
    Except Fault (State cfg) := do
  let market ← s.market asset
  let market := u.apply market
  ensureFactors market.collateralFactor market.liquidationThreshold market.reserveFactor
  ensure (0 < market.supplyCap) (.pallet .invalidSupplyCap)
  mutateMarket s asset u.apply

def forceUpdateMarket (s : State cfg) (asset : CurrencyId) (market : Market) :
    Except Fault (State cfg) := do
  ensure market.rateModel.checkModel (.pallet .invalidRateModelParam)
  ensure ((s.underlyingAssetId market.lendTokenId).all fun underlying => underlying = asset)
    (.pallet .invalidLendTokenId)
  let s := { s with
    underlyingAssetId := Function.update s.underlyingAssetId market.lendTokenId (some asset) }
  mutateMarket s asset fun _ => market

def updateLiquidationFreeCollateral (s : State cfg) (collaterals : List CurrencyId) :
    Except Fault (State cfg) := do
  ensure (collaterals.length ≤ cfg.maxLengthLimit) (.pallet .conversionError)
  pure { s with liquidationFreeCollaterals := collaterals }

def addMarketBond (s : State cfg) (asset : CurrencyId) (marketBond : List CurrencyId) :
    Except Fault (State cfg) := do
  ensure (marketBond.length ≤ cfg.maxLengthLimit) (.pallet .conversionError)
  pure { s with marketBond := Function.update s.marketBond asset (some marketBond) }

/-! Rewards. -/

def addReward (s : State cfg) (who : AccountId) (amount : ℕ) : Except Fault (State cfg) := do
  ensure (amount ≠ 0) (.pallet .invalidAmount)
  s.transfer cfg.rewardAssetId who cfg.rewardAccountId amount .preserve

def withdrawMissingReward (s : State cfg) (targetAccount : AccountId) (amount : ℕ) :
    Except Fault (State cfg) := do
  ensure (amount ≠ 0) (.pallet .invalidAmount)
  s.transfer cfg.rewardAssetId cfg.rewardAccountId targetAccount amount .preserve

def updateSupplySpeed (s : State cfg) (asset : CurrencyId) (speed : ℕ) :
    Except Fault (State cfg) :=
  if speed = s.rewards.supplySpeed asset then pure s
  else do
    let s ← s.updateRewardSupplyIndex asset
    pure { s with rewards := { s.rewards with
      supplySpeed := Function.update s.rewards.supplySpeed asset speed } }

def updateBorrowSpeed (s : State cfg) (asset : CurrencyId) (speed : ℕ) :
    Except Fault (State cfg) :=
  if speed = s.rewards.borrowSpeed asset then pure s
  else do
    let s ← s.updateRewardBorrowIndex asset
    pure { s with rewards := { s.rewards with
      borrowSpeed := Function.update s.rewards.borrowSpeed asset speed } }

def updateMarketRewardSpeed (s : State cfg) (asset : CurrencyId)
    (supplyRewardPerBlock borrowRewardPerBlock : Option ℕ) : Except Fault (State cfg) := do
  let _ ← s.ensureActiveMarket asset
  let supplySpeed := supplyRewardPerBlock.getD (s.rewards.supplySpeed asset)
  let borrowSpeed := borrowRewardPerBlock.getD (s.rewards.borrowSpeed asset)
  let s ← updateSupplySpeed s asset supplySpeed
  updateBorrowSpeed s asset borrowSpeed

def claimReward (s : State cfg) (who : AccountId) : Except Fault (State cfg) := do
  let s ← s.markets.keys.foldlM (fun (s : State cfg) asset => s.collectMarketReward asset who) s
  s.payReward who

def claimRewardForMarket (s : State cfg) (who : AccountId) (asset : CurrencyId) :
    Except Fault (State cfg) := do
  let s ← s.collectMarketReward asset who
  s.payReward who

/-- The calls, the entries of the traits that differ from them (`doRedeem`,
`doCollateralAsset`, and `accrueInterest`, which `get_current_borrow_balance` runs), the
lend-token transfer, and what happens around them: accounts move assets, the oracle changes a
price, time passes. -/
inductive Call (AccountId : Type) where
  | addMarket (asset : CurrencyId) (market : Market)
  | activateMarket (asset : CurrencyId)
  | updateRateModel (asset : CurrencyId) (rateModel : InterestRateModel)
  | updateMarket (asset : CurrencyId) (update : MarketUpdate)
  | forceUpdateMarket (asset : CurrencyId) (market : Market)
  | addReward (who : AccountId) (amount : ℕ)
  | withdrawMissingReward (targetAccount : AccountId) (amount : ℕ)
  | updateMarketRewardSpeed (asset : CurrencyId)
      (supplyRewardPerBlock borrowRewardPerBlock : Option ℕ)
  | claimReward (who : AccountId)
  | claimRewardForMarket (who : AccountId) (asset : CurrencyId)
  | mint (who : AccountId) (asset : CurrencyId) (mintAmount : ℕ)
  | redeem (who : AccountId) (asset : CurrencyId) (redeemAmount : ℕ)
  | redeemAll (who : AccountId) (asset : CurrencyId)
  | borrow (who : AccountId) (asset : CurrencyId) (borrowAmount : ℕ)
  | repayBorrow (who : AccountId) (asset : CurrencyId) (repayAmount : ℕ)
  | repayBorrowAll (who : AccountId) (asset : CurrencyId)
  | collateralAsset (who : AccountId) (asset : CurrencyId) (enable : Bool)
  | liquidateBorrow (who borrower : AccountId) (liquidationAsset : CurrencyId)
      (repayAmount : ℕ) (collateralAsset : CurrencyId)
  | addReserves (payer : AccountId) (asset : CurrencyId) (addAmount : ℕ)
  | reduceReserves (receiver : AccountId) (asset : CurrencyId) (reduceAmount : ℕ)
  | reduceIncentiveReserves (receiver : AccountId) (asset : CurrencyId) (redeemAmount : ℕ)
  | updateLiquidationFreeCollateral (collaterals : List CurrencyId)
  | addMarketBond (asset : CurrencyId) (marketBond : List CurrencyId)
  | doRedeem (supplier : AccountId) (asset : CurrencyId) (amount : ℕ)
  | doCollateralAsset (supplier : AccountId) (asset : CurrencyId) (enable : Bool)
  | accrueInterest (asset : CurrencyId)
  | transferLendToken (lendTokenId : CurrencyId) (source dest : AccountId) (amount : ℕ)
  | moveAssets (asset : CurrencyId) (source dest : AccountId) (amount : ℕ)
  | setPrice (asset : CurrencyId) (price : Option FixedU128)
  | advance (seconds blocks : ℕ)

def step (s : State cfg) : Call AccountId → Except Fault (State cfg)
  | .addMarket asset market => addMarket s asset market
  | .activateMarket asset => activateMarket s asset
  | .updateRateModel asset rateModel => updateRateModel s asset rateModel
  | .updateMarket asset update => updateMarket s asset update
  | .forceUpdateMarket asset market => forceUpdateMarket s asset market
  | .addReward who n => addReward s who n
  | .withdrawMissingReward target n => withdrawMissingReward s target n
  | .updateMarketRewardSpeed asset supply borrow => updateMarketRewardSpeed s asset supply borrow
  | .claimReward who => claimReward s who
  | .claimRewardForMarket who asset => claimRewardForMarket s who asset
  | .mint who asset n => doMint s who asset n
  | .redeem who asset n => do
    ensure (n ≠ 0) (.pallet .invalidAmount)
    let (_, s) ← doRedeem s who asset n
    pure s
  | .redeemAll who asset => do
    let (_, s) ← doRedeemAll s who asset
    pure s
  | .borrow who asset n => doBorrow s who asset n
  | .repayBorrow who asset n => doRepayBorrow s who asset n
  | .repayBorrowAll who asset => repayBorrowAll s who asset
  | .collateralAsset who asset enable => collateralAsset s who asset enable
  | .liquidateBorrow who borrower liquidationAsset n collateralAsset =>
    liquidateBorrow s who borrower liquidationAsset n collateralAsset
  | .addReserves payer asset n => addReserves s payer asset n
  | .reduceReserves receiver asset n => reduceReserves s receiver asset n
  | .reduceIncentiveReserves receiver asset n => reduceIncentiveReserves s receiver asset n
  | .updateLiquidationFreeCollateral collaterals => updateLiquidationFreeCollateral s collaterals
  | .addMarketBond asset marketBond => addMarketBond s asset marketBond
  | .doRedeem supplier asset n => do
    let (_, s) ← doRedeem s supplier asset n
    pure s
  | .doCollateralAsset supplier asset enable => doCollateralAsset s supplier asset enable
  | .accrueInterest asset => s.accrueInterest asset
  | .transferLendToken lendTokenId source dest n => transferLendToken s lendTokenId source dest n
  | .moveAssets asset source dest n => s.transfer asset source dest n .expendable
  | .setPrice asset price => pure { s with prices := Function.update s.prices asset price }
  | .advance seconds blocks =>
    pure { s with now := s.now + seconds, blockNumber := s.blockNumber + blocks }

end Bifrost.LendMarket
