import Bifrost.LendMarket.Types

/-!
# Interest

`interest.rs`, with the readers of `lib.rs` that it and the other parts use.
-/

namespace Bifrost.LendMarket

open Result
set_option autoImplicit false

variable {AccountId : Type} {cfg : Config AccountId}

namespace State

def market (s : State cfg) (asset : CurrencyId) : Except Fault Market :=
  okOr (s.markets.get asset) (.pallet .marketDoesNotExist)

def activeMarkets (s : State cfg) : List (CurrencyId × Market) :=
  s.markets.entries.filter fun e => e.2.state = .active

def ensureActiveMarket (s : State cfg) (asset : CurrencyId) : Except Fault Market :=
  okOr ((s.activeMarkets.find? fun e => e.1 = asset).map Prod.snd) (.pallet .marketNotActivated)

def getTotalCash (s : State cfg) (asset : CurrencyId) : ℕ :=
  cfg.assets.reducibleBalance s.ledger asset cfg.accountId

def transfer (s : State cfg) (asset : CurrencyId) (source dest : AccountId) (amount : ℕ)
    (preservation : Preservation) : Except Fault (State cfg) := do
  let ledger ← mapErr (cfg.assets.transfer s.ledger asset source dest amount preservation)
    Fault.assets
  pure { s with ledger := ledger }

end State

def calcUtilizationRatio (cash borrows reserves : ℕ) : Except Fault Permill :=
  if borrows = 0 then pure .zero
  else do
    let total ← okOr ((U128.checkedAdd cash borrows).bind (U128.checkedSub · reserves)) .overflow
    pure (Permill.fromRational borrows total)

def ensureValidExchangeRate (exchangeRate : FixedU128) : Except Fault Unit :=
  ensure (minExchangeRate.inner ≤ exchangeRate.inner ∧ exchangeRate.inner < maxExchangeRate.inner)
    (.pallet .invalidExchangeRate)

def accruedInterest (borrowRate : FixedU128) (amount deltaTime : ℕ) : Option ℕ := do
  let yearly ← borrowRate.checkedMulInt amount
  let product ← U128.checkedMul yearly deltaTime
  pure (product / secondsPerYear)

def incrementIndex (borrowRate index : FixedU128) (deltaTime : ℕ) : Option FixedU128 := do
  let yearly ← borrowRate.checkedMul index
  let product ← yearly.checkedMul (.saturatingFromInteger deltaTime)
  product.checkedDiv (.saturatingFromInteger secondsPerYear)

/-- The value of a voucher in the underlying asset. -/
def calculateExchangeRate (totalSupply totalCash totalBorrows totalReserves : ℕ) :
    Except Fault FixedU128 :=
  if totalSupply = 0 then pure minExchangeRate
  else do
    let cashPlusBorrowsMinusReserves ←
      okOr ((U128.checkedAdd totalCash totalBorrows).bind (U128.checkedSub · totalReserves))
        .overflow
    let exchangeRate ←
      okOr (FixedU128.checkedFromRational cashPlusBorrowsMinusReserves totalSupply) .underflow
    ensureValidExchangeRate exchangeRate
    pure exchangeRate

structure MarketStatus where
  borrowRate : FixedU128
  supplyRate : FixedU128
  exchangeRate : FixedU128
  util : Permill
  totalBorrows : ℕ
  totalReserves : ℕ
  borrowIndex : FixedU128

namespace State

def exchangeRateStored (s : State cfg) (asset : CurrencyId) : Except Fault FixedU128 :=
  calculateExchangeRate (s.totalSupply asset) (s.getTotalCash asset) (s.totalBorrows asset)
    (s.totalReserves asset)

def addInterest (s : State cfg) (asset : CurrencyId) (market : Market) (borrowRate : FixedU128)
    (deltaTime : ℕ) : Except Fault (ℕ × ℕ × FixedU128) := do
  let interestAccumulated ←
    okOr (accruedInterest borrowRate (s.totalBorrows asset) deltaTime) .overflow
  let totalBorrows ← okOr (U128.checkedAdd interestAccumulated (s.totalBorrows asset)) .overflow
  let totalReserves ← okOr (U128.checkedAdd (market.reserveFactor.mulFloor interestAccumulated)
    (s.totalReserves asset)) .overflow
  let borrowIndex ← okOr ((incrementIndex borrowRate (s.borrowIndex asset) deltaTime).bind
    fun r => r.checkedAdd (s.borrowIndex asset)) .overflow
  pure (totalBorrows, totalReserves, borrowIndex)

def getMarketStatus (s : State cfg) (asset : CurrencyId) : Except Fault MarketStatus := do
  let market ← s.market asset
  let util ← calcUtilizationRatio (s.getTotalCash asset) (s.totalBorrows asset)
    (s.totalReserves asset)
  let borrowRate ← okOr (market.rateModel.getBorrowRate util) .overflow
  let supplyRate := InterestRateModel.getSupplyRate borrowRate util market.reserveFactor
  let last := s.lastAccruedInterestTime asset
  let (totalBorrows, totalReserves, borrowIndex) ←
    if last < s.now then s.addInterest asset market borrowRate (s.now - last)
    else pure (s.totalBorrows asset, s.totalReserves asset, s.borrowIndex asset)
  let exchangeRate ← calculateExchangeRate (s.totalSupply asset) (s.getTotalCash asset)
    totalBorrows totalReserves
  pure ⟨borrowRate, supplyRate, exchangeRate, util, totalBorrows, totalReserves, borrowIndex⟩

def updateLastAccruedInterestTime (s : State cfg) (asset : CurrencyId) (time : ℕ) : State cfg :=
  { s with lastAccruedInterestTime := Function.update s.lastAccruedInterestTime asset time }

/-- The storage after `status` is saved for `asset`. -/
def saveMarketStatus (s : State cfg) (asset : CurrencyId) (status : MarketStatus) : State cfg :=
  { s with
    totalBorrows := Function.update s.totalBorrows asset status.totalBorrows
    totalReserves := Function.update s.totalReserves asset status.totalReserves
    borrowIndex := Function.update s.borrowIndex asset status.borrowIndex
    utilizationRatio := Function.update s.utilizationRatio asset status.util
    borrowRate := Function.update s.borrowRate asset status.borrowRate
    supplyRate := Function.update s.supplyRate asset status.supplyRate
    exchangeRate := Function.update s.exchangeRate asset status.exchangeRate }

def accrueInterest (s : State cfg) (asset : CurrencyId) : Except Fault (State cfg) :=
  let last := s.lastAccruedInterestTime asset
  if last = 0 then pure (s.updateLastAccruedInterestTime asset s.now)
  else if s.now ≤ last then pure s
  else do
    let status ← s.getMarketStatus asset
    pure ((s.updateLastAccruedInterestTime asset s.now).saveMarketStatus asset status)

end State

end Bifrost.LendMarket
