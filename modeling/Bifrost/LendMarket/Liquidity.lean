import Bifrost.LendMarket.Interest

/-!
# Prices, values and liquidity

What an account owes and what its collateral is worth, in `lib.rs`, and the checks that
borrowing and withdrawing go through.
-/

namespace Bifrost.LendMarket

open Result
set_option autoImplicit false

variable {AccountId : Type} {cfg : Config AccountId}

def calcUnderlyingAmount (voucherAmount : ℕ) (exchangeRate : FixedU128) : Except Fault ℕ :=
  okOr (exchangeRate.checkedMulInt voucherAmount) .overflow

def calcCollateralAmount (underlyingAmount : ℕ) (exchangeRate : FixedU128) : Except Fault ℕ :=
  okOr (((FixedU128.mk underlyingAmount).checkedDiv exchangeRate).map FixedU128.inner) .underflow

def sumValues (value : CurrencyId → Except Fault FixedU128) (assets : List CurrencyId) :
    Except Fault FixedU128 :=
  assets.foldlM (fun (total : FixedU128) asset => do
    let v ← value asset
    okOr (total.checkedAdd v) .overflow) .zero

/-- `(a - b, 0)` where `b < a`, else `(0, b - a)`. -/
def surplus (a b : FixedU128) : FixedU128 × FixedU128 :=
  if b.inner < a.inner then (⟨a.inner - b.inner⟩, .zero) else (.zero, ⟨b.inner - a.inner⟩)

/-- The four numbers `get_account_liquidity` returns; `lf` is liquidation free. -/
structure AccountLiquidity where
  liquidity : FixedU128
  shortfall : FixedU128
  lfLiquidity : FixedU128
  lfShortfall : FixedU128
deriving DecidableEq

def AccountLiquidity.of (totalCollateralValue totalBorrowValue lfBasePosition lfBorrowedValue :
    FixedU128) : AccountLiquidity :=
  let (liquidity, shortfall) := surplus totalCollateralValue totalBorrowValue
  let (lfLiquidity, lfShortfall) := surplus lfBasePosition lfBorrowedValue
  ⟨liquidity, shortfall, lfLiquidity, lfShortfall⟩

namespace State

def getPrice (s : State cfg) (asset : CurrencyId) : Except Fault FixedU128 := do
  let price ← okOr (s.prices asset) (.pallet .priceOracleNotReady)
  ensure (price.inner ≠ 0) (.pallet .priceIsZero)
  pure price

def getAssetValue (s : State cfg) (asset : CurrencyId) (amount : ℕ) : Except Fault FixedU128 := do
  let price ← s.getPrice asset
  okOr (price.checkedMul ⟨amount⟩) .overflow

/-- The principal times the growth of the borrow index since the snapshot. -/
def currentBorrowBalance (s : State cfg) (who : AccountId) (asset : CurrencyId) : Except Fault ℕ :=
  let snapshot := s.accountBorrows asset who
  if snapshot.principal = 0 ∨ snapshot.borrowIndex.inner = 0 then pure 0
  else
    okOr (((s.borrowIndex asset).checkedDiv snapshot.borrowIndex).bind
      fun r => r.checkedMulInt snapshot.principal) .overflow

/-- An active market without debt is skipped, its price not being read. -/
def borrowedValue (s : State cfg) (borrower : AccountId) (asset : CurrencyId) :
    Except Fault FixedU128 := do
  let currencyBorrowAmount ← s.currentBorrowBalance borrower asset
  if currencyBorrowAmount = 0 then pure .zero
  else s.getAssetValue asset currencyBorrowAmount

def totalBorrowedValue (s : State cfg) (borrower : AccountId) : Except Fault FixedU128 :=
  sumValues (s.borrowedValue borrower) (s.activeMarkets.map Prod.fst)

def getLfBorrowedValue (s : State cfg) (account : AccountId) : Except Fault FixedU128 := do
  let lfBorrowedAmount ← s.currentBorrowBalance account cfg.liquidationFreeAssetId
  s.getAssetValue cfg.liquidationFreeAssetId lfBorrowedAmount

/-- `factor` of what the collateral vouchers are worth in the underlying asset, rounded up. -/
def effectsAmount (s : State cfg) (factor : Market → Permill) (asset : CurrencyId)
    (voucherBalance : ℕ) : Except Fault ℕ := do
  let exchangeRate ← s.exchangeRateStored asset
  let underlyingAmount ← calcUnderlyingAmount voucherBalance exchangeRate
  let market ← s.market asset
  pure ((factor market).mulCeil underlyingAmount)

def lfMarkets (s : State cfg) : List CurrencyId :=
  (s.activeMarkets.map Prod.fst).filter fun asset => asset ∈ s.liquidationFreeCollaterals

def remainingCollateralValue (s : State cfg) (withdrawAsset : CurrencyId) (voucherBalance
    redeemVoucherAmount : ℕ) : Except Fault FixedU128 := do
  let exchangeRate ← s.exchangeRateStored withdrawAsset
  let currentUnderlying ← calcUnderlyingAmount voucherBalance exchangeRate
  let redeemUnderlying ← calcUnderlyingAmount redeemVoucherAmount exchangeRate
  let remainingUnderlying ← okOr (U128.checkedSub currentUnderlying redeemUnderlying) .underflow
  let market ← s.market withdrawAsset
  s.getAssetValue withdrawAsset (market.collateralFactor.mulCeil remainingUnderlying)

def ensureUnderSupplyCap (s : State cfg) (asset : CurrencyId) (amount : ℕ) :
    Except Fault Unit := do
  let market ← s.market asset
  let currentCash := cfg.assets.balance s.ledger asset cfg.accountId
  let totalCash ← okOr (U128.checkedAdd currentCash amount) .overflow
  ensure (totalCash ≤ market.supplyCap) (.pallet .supplyCapacityExceeded)

def ensureUnderBorrowCap (s : State cfg) (asset : CurrencyId) (amount : ℕ) :
    Except Fault Unit := do
  let market ← s.market asset
  let newTotalBorrows ← okOr (U128.checkedAdd (s.totalBorrows asset) amount) .overflow
  ensure (newTotalBorrows ≤ market.borrowCap) (.pallet .borrowCapacityExceeded)

def ensureEnoughCash (s : State cfg) (asset : CurrencyId) (amount : ℕ) : Except Fault Unit := do
  let reducibleCash ←
    okOr (U128.checkedSub (s.getTotalCash asset) (s.totalReserves asset)) .underflow
  ensure (amount ≤ reducibleCash) (.pallet .insufficientCash)

section Deposits

variable [DecidableEq AccountId]

def depositsOf (s : State cfg) (asset : CurrencyId) (who : AccountId) : Deposits :=
  ((s.accountDeposits asset).get who).getD default

def hasDeposits (s : State cfg) (asset : CurrencyId) (who : AccountId) : Bool :=
  ((s.accountDeposits asset).get who).isSome

def currentCollateralBalance (s : State cfg) (supplier : AccountId) (asset : CurrencyId) :
    Except Fault ℕ :=
  let deposits := s.depositsOf asset supplier
  if ¬ s.hasDeposits asset supplier ∨ ¬ deposits.isCollateral ∨ deposits.voucherBalance = 0 then
    pure 0
  else s.effectsAmount Market.collateralFactor asset deposits.voucherBalance

def collateralAssetValue (s : State cfg) (supplier : AccountId) (asset : CurrencyId) :
    Except Fault FixedU128 := do
  let effectsAmount ← s.currentCollateralBalance supplier asset
  s.getAssetValue asset effectsAmount

/-- Unlike `collateral_asset_value` it does not read the price where there is no collateral. -/
def liquidationThresholdAssetValue (s : State cfg) (borrower : AccountId) (asset : CurrencyId) :
    Except Fault FixedU128 :=
  let deposits := s.depositsOf asset borrower
  if ¬ s.hasDeposits asset borrower ∨ ¬ deposits.isCollateral ∨ deposits.voucherBalance = 0 then
    pure .zero
  else do
    let effectsAmount ←
      s.effectsAmount Market.liquidationThreshold asset deposits.voucherBalance
    s.getAssetValue asset effectsAmount

def totalCollateralValue (s : State cfg) (supplier : AccountId) : Except Fault FixedU128 :=
  sumValues (s.collateralAssetValue supplier) (s.activeMarkets.map Prod.fst)

def totalLiquidationThresholdValue (s : State cfg) (borrower : AccountId) :
    Except Fault FixedU128 :=
  sumValues (s.liquidationThresholdAssetValue borrower) (s.activeMarkets.map Prod.fst)

def getLfBasePosition (s : State cfg) (account : AccountId) : Except Fault FixedU128 :=
  sumValues (s.collateralAssetValue account) s.lfMarkets

def getLfLiquidationBasePosition (s : State cfg) (account : AccountId) : Except Fault FixedU128 :=
  sumValues (s.liquidationThresholdAssetValue account) s.lfMarkets

def getAccountLiquidity (s : State cfg) (account : AccountId) :
    Except Fault AccountLiquidity := do
  let totalBorrowValue ← s.totalBorrowedValue account
  let totalCollateralValue ← s.totalCollateralValue account
  let lfBorrowedValue ← s.getLfBorrowedValue account
  let lfBasePosition ← s.getLfBasePosition account
  pure (.of totalCollateralValue totalBorrowValue lfBasePosition lfBorrowedValue)

def getAccountLiquidationThresholdLiquidity (s : State cfg) (account : AccountId) :
    Except Fault AccountLiquidity := do
  let totalBorrowValue ← s.totalBorrowedValue account
  let totalCollateralValue ← s.totalLiquidationThresholdValue account
  let lfBorrowedValue ← s.getLfBorrowedValue account
  let lfBasePosition ← s.getLfLiquidationBasePosition account
  pure (.of totalCollateralValue totalBorrowValue lfBasePosition lfBorrowedValue)

/-- `lf_enable` is for borrowing the liquidation free asset and for redeeming liquidation free
collateral. -/
def ensureLiquidity (s : State cfg) (account : AccountId) (reduceAmount : FixedU128)
    (lfEnable : Bool) : Except Fault Unit := do
  let l ← s.getAccountLiquidity account
  ensure ((lfEnable ∧ reduceAmount.inner ≤ max l.liquidity.inner l.lfLiquidity.inner) ∨
    (¬ lfEnable ∧
      U128.wrappingAdd l.lfLiquidity.inner reduceAmount.inner ≤ l.liquidity.inner))
    (.pallet .insufficientLiquidity)

def ensureLiquidityForMarketBond (s : State cfg) (borrowAsset : CurrencyId) (account : AccountId)
    (reduceAmount : FixedU128) : Except Fault Unit := do
  let collateralAssets ← okOr (s.marketBond borrowAsset) (.pallet .marketBondDoesNotExist)
  let currencyBorrowAmount ← s.currentBorrowBalance account borrowAsset
  let totalBorrowValue ← s.getAssetValue borrowAsset currencyBorrowAmount
  let totalCollateralValue ← sumValues (s.collateralAssetValue account) collateralAssets
  let totalLiquidity ← okOr (totalCollateralValue.checkedSub totalBorrowValue) .underflow
  ensure (reduceAmount.inner ≤ totalLiquidity.inner) (.pallet .insufficientLiquidity)

/-- The debt in `borrowAsset`, where its bond names `withdrawAsset`, is covered by what remains
of `withdrawAsset` alone. -/
def ensureBondAfterWithdraw (s : State cfg) (withdrawAsset : CurrencyId) (account : AccountId)
    (redeemVoucherAmount : ℕ) (borrowAsset : CurrencyId) : Except Fault Unit :=
  match s.marketBond borrowAsset with
  | none => pure ()
  | some collateralAssets =>
    if withdrawAsset ∉ collateralAssets then pure ()
    else do
      let currencyBorrowAmount ← s.currentBorrowBalance account borrowAsset
      if currencyBorrowAmount = 0 then pure ()
      else
        let borrowValue ← s.getAssetValue borrowAsset currencyBorrowAmount
        let currentDeposits := s.depositsOf withdrawAsset account
        if ¬ currentDeposits.isCollateral then pure ()
        else
          let remaining ← s.remainingCollateralValue withdrawAsset
            currentDeposits.voucherBalance redeemVoucherAmount
          ensure (borrowValue.inner ≤ remaining.inner) (.pallet .insufficientLiquidity)

def ensureLiquidityForWithdrawMarketBond (s : State cfg) (withdrawAsset : CurrencyId)
    (account : AccountId) (redeemVoucherAmount : ℕ) : Except Fault Unit :=
  (s.activeMarkets.map Prod.fst).forM
    (s.ensureBondAfterWithdraw withdrawAsset account redeemVoucherAmount)

def redeemAllowed (s : State cfg) (asset : CurrencyId) (redeemer : AccountId)
    (voucherAmount : ℕ) : Except Fault Unit := do
  let deposit := s.depositsOf asset redeemer
  ensure (voucherAmount ≤ deposit.voucherBalance) (.pallet .insufficientDeposit)
  let exchangeRate ← s.exchangeRateStored asset
  let redeemAmount ← calcUnderlyingAmount voucherAmount exchangeRate
  s.ensureEnoughCash asset redeemAmount
  if ¬ deposit.isCollateral then pure ()
  else
    let market ← s.market asset
    let redeemEffectsValue ← s.getAssetValue asset (market.collateralFactor.mulCeil redeemAmount)
    s.ensureLiquidity redeemer redeemEffectsValue (asset ∈ s.liquidationFreeCollaterals)
    s.ensureLiquidityForWithdrawMarketBond asset redeemer voucherAmount

def borrowAllowed (s : State cfg) (asset : CurrencyId) (borrower : AccountId)
    (borrowAmount : ℕ) : Except Fault Unit := do
  s.ensureUnderBorrowCap asset borrowAmount
  s.ensureEnoughCash asset borrowAmount
  let borrowValue ← s.getAssetValue asset borrowAmount
  s.ensureLiquidity borrower borrowValue (asset = cfg.liquidationFreeAssetId)

def borrowAllowedForMarketBond (s : State cfg) (asset : CurrencyId) (borrower : AccountId)
    (borrowAmount : ℕ) : Except Fault Unit := do
  s.ensureUnderBorrowCap asset borrowAmount
  s.ensureEnoughCash asset borrowAmount
  let borrowValue ← s.getAssetValue asset borrowAmount
  s.ensureLiquidityForMarketBond asset borrower borrowValue

def effectsBorrowsValue (s : State cfg) (borrower : AccountId) (liquidationAsset : CurrencyId)
    (accountBorrowsValue : FixedU128) : Except Fault FixedU128 :=
  if liquidationAsset = cfg.liquidationFreeAssetId then do
    let basePosition ← s.getLfBasePosition borrower
    pure (surplus accountBorrowsValue basePosition).1
  else pure accountBorrowsValue

def liquidateBorrowAllowed (s : State cfg) (borrower : AccountId) (liquidationAsset : CurrencyId)
    (repayAmount : ℕ) (market : Market) : Except Fault Unit := do
  let l ← s.getAccountLiquidationThresholdLiquidity borrower
  ensure (¬ (l.shortfall.inner = 0 ∧ l.lfLiquidity.inner ≤ l.liquidity.inner))
    (.pallet .insufficientShortfall)
  let accountBorrows ← s.currentBorrowBalance borrower liquidationAsset
  let accountBorrowsValue ← s.getAssetValue liquidationAsset accountBorrows
  let repayValue ← s.getAssetValue liquidationAsset repayAmount
  let effectsBorrowsValue ← s.effectsBorrowsValue borrower liquidationAsset accountBorrowsValue
  ensure (repayValue.inner ≤ market.closeFactor.mulCeil effectsBorrowsValue.inner)
    (.pallet .tooMuchRepay)

end Deposits

end State

end Bifrost.LendMarket
