import Bifrost.Lib.Machine
import Bifrost.Lib.Result
import Bifrost.Lib.Table
import Bifrost.LendMarket.RateModel
import Bifrost.Primitives.Fungibles

/-!
# Storage of the lend market

The types of `types.rs`, the choices of the runtime and the storage of `pallets/lend-market`.
A `ValueQuery` map is a function; deposits are kept in a table for each asset, since their
presence is observed and they are added up.
-/

namespace Bifrost.LendMarket

set_option autoImplicit false

inductive MarketState where
  | active
  | pending
  | supervision
deriving DecidableEq, Repr

structure Market where
  collateralFactor : Permill
  liquidationThreshold : Permill
  reserveFactor : Permill
  closeFactor : Permill
  liquidateIncentive : FixedU128
  liquidateIncentiveReservedFactor : Permill
  rateModel : InterestRateModel
  state : MarketState
  supplyCap : ℕ
  borrowCap : ℕ
  lendTokenId : CurrencyId
deriving DecidableEq

structure BorrowSnapshot where
  principal : ℕ
  borrowIndex : FixedU128
deriving DecidableEq

structure Deposits where
  voucherBalance : ℕ
  isCollateral : Bool
deriving DecidableEq

structure EarnedSnapshot where
  totalEarnedPrior : ℕ
  exchangeRatePrior : FixedU128
deriving DecidableEq

structure RewardMarketState where
  index : ℕ
  block : ℕ
deriving DecidableEq

instance : Inhabited BorrowSnapshot := ⟨⟨0, .zero⟩⟩
instance : Inhabited Deposits := ⟨⟨0, false⟩⟩
instance : Inhabited EarnedSnapshot := ⟨⟨0, .zero⟩⟩
instance : Inhabited RewardMarketState := ⟨⟨0, 0⟩⟩

inductive Error where
  | insufficientLiquidity
  | insufficientDeposit
  | tooMuchRepay
  | duplicateOperation
  | noDeposit
  | insufficientCollateral
  | liquidatorIsBorrower
  | depositsAreNotCollateral
  | insufficientShortfall
  | insufficientReserves
  | invalidRateModelParam
  | marketNotActivated
  | priceOracleNotReady
  | priceIsZero
  | invalidLendTokenId
  | marketDoesNotExist
  | marketAlreadyExists
  | newMarketMustHavePendingState
  | supplyCapacityExceeded
  | borrowCapacityExceeded
  | insufficientCash
  | invalidFactor
  | invalidSupplyCap
  | invalidExchangeRate
  | tooManyMarkets
  | invalidAmount
  | collateralReserved
  | marketBondDoesNotExist
  | conversionError
deriving DecidableEq, Repr

inductive Fault where
  | pallet (e : Error)
  | overflow
  | underflow
  | assets (e : FungiblesError)
deriving DecidableEq, Repr

def minExchangeRate : FixedU128 := ⟨20000000000000000⟩
def maxExchangeRate : FixedU128 := ⟨1000000000000000000⟩
def maxMarkets : ℕ := 100
def secondsPerYear : ℕ := 365 * 24 * 60 * 60

/-- The runtime's choices. The three accounts are derived from the pallet id. Nobody puts a
hold on the pallet account, so that all of its balance is reducible, and it is not the account
that receives dust. -/
structure Config (AccountId : Type) where
  assets : Fungibles AccountId
  accountId : AccountId
  rewardAccountId : AccountId
  incentiveRewardAccountId : AccountId
  rewardAssetId : CurrencyId
  liquidationFreeAssetId : CurrencyId
  maxLengthLimit : ℕ
  no_holds : ∀ L c, assets.reducibleBalance L c accountId = assets.balance L c accountId
  not_dust : assets.dustAccount ≠ some accountId

variable {AccountId : Type}

/-- The events by which `farming.rs` reports what it adds to `RewardAccrued`. -/
inductive RewardEvent (AccountId : Type) where
  | distributedSupplierReward (asset : CurrencyId) (supplier : AccountId)
      (rewardDelta index : ℕ)
  | distributedBorrowerReward (asset : CurrencyId) (borrower : AccountId)
      (rewardDelta index : ℕ)

/-- The storage items of `farming.rs`, with its events, the last one first. -/
structure Rewards (AccountId : Type) where
  supplySpeed : CurrencyId → ℕ
  borrowSpeed : CurrencyId → ℕ
  supplyState : CurrencyId → RewardMarketState
  borrowState : CurrencyId → RewardMarketState
  supplierIndex : CurrencyId → AccountId → ℕ
  borrowerIndex : CurrencyId → AccountId → ℕ
  accrued : AccountId → ℕ
  events : List (RewardEvent AccountId)

/-- The storage, with the clock, the block number, the oracle's prices and the asset accounts
the pallet reads. -/
structure State (cfg : Config AccountId) where
  now : ℕ
  blockNumber : ℕ
  prices : CurrencyId → Option FixedU128
  ledger : cfg.assets.Ledger
  lastAccruedInterestTime : CurrencyId → ℕ
  liquidationFreeCollaterals : List CurrencyId
  totalSupply : CurrencyId → ℕ
  totalBorrows : CurrencyId → ℕ
  totalReserves : CurrencyId → ℕ
  accountBorrows : CurrencyId → AccountId → BorrowSnapshot
  accountDeposits : CurrencyId → Table AccountId Deposits
  accountEarned : CurrencyId → AccountId → EarnedSnapshot
  borrowIndex : CurrencyId → FixedU128
  exchangeRate : CurrencyId → FixedU128
  borrowRate : CurrencyId → FixedU128
  supplyRate : CurrencyId → FixedU128
  utilizationRatio : CurrencyId → Permill
  markets : Table CurrencyId Market
  underlyingAssetId : CurrencyId → Option CurrencyId
  marketBond : CurrencyId → Option (List CurrencyId)
  rewards : Rewards AccountId

def genesis (cfg : Config AccountId) (ledger : cfg.assets.Ledger)
    (prices : CurrencyId → Option FixedU128) (now blockNumber : ℕ) : State cfg where
  now := now
  blockNumber := blockNumber
  prices := prices
  ledger := ledger
  lastAccruedInterestTime := fun _ => 0
  liquidationFreeCollaterals := []
  totalSupply := fun _ => 0
  totalBorrows := fun _ => 0
  totalReserves := fun _ => 0
  accountBorrows := fun _ _ => default
  accountDeposits := fun _ => ∅
  accountEarned := fun _ _ => default
  borrowIndex := fun _ => .zero
  exchangeRate := fun _ => .zero
  borrowRate := fun _ => .zero
  supplyRate := fun _ => .zero
  utilizationRatio := fun _ => .zero
  markets := ∅
  underlyingAssetId := fun _ => none
  marketBond := fun _ => none
  rewards := {
    supplySpeed := fun _ => 0
    borrowSpeed := fun _ => 0
    supplyState := fun _ => default
    borrowState := fun _ => default
    supplierIndex := fun _ _ => 0
    borrowerIndex := fun _ _ => 0
    accrued := fun _ => 0
    events := [] }

end Bifrost.LendMarket
