import Bifrost.Farming.Types
import Bifrost.Primitives.Integers
import Bifrost.Primitives.LockableCurrencies

/-!
# Storage of the bb-bnc pallet

The records of `lib.rs`, `incentive.rs` and `traits.rs`, the choices of the runtime and the
storage of `pallets/bb-bnc`. Positions, epochs and block numbers are natural numbers. Only the
system pool has an incentive configuration. What the pallet asks of the farming and the
vtoken-minting pallets is a parameter: both move tokens, neither touches this storage.
-/

namespace Bifrost.BbBnc

set_option autoImplicit false

inductive LockIdentifier where
  | bbLockId
  | markupLockId
deriving DecidableEq

instance : Fintype LockIdentifier where
  elems := {.bbLockId, .markupLockId}
  complete := fun i => by cases i <;> decide

structure BbConfig where
  minMint : ℕ
  minBlock : ℕ
  maxPositionsPerBlock : ℕ
deriving DecidableEq

/-- `end` is a word of Lean's. -/
structure LockedBalance where
  amount : ℕ
  endBlock : ℕ
deriving DecidableEq

def LockedBalance.zero : LockedBalance := ⟨0, 0⟩

@[simp] theorem LockedBalance.zero_amount : LockedBalance.zero.amount = 0 := rfl

@[simp] theorem LockedBalance.zero_endBlock : LockedBalance.zero.endBlock = 0 := rfl

structure Point where
  bias : ℤ
  slope : ℤ
  block : ℕ
  amount : ℕ
deriving DecidableEq

def Point.zero : Point := ⟨0, 0, 0, 0⟩

structure UserMarkupInfo where
  oldMarkupCoefficient : FixedU128
  markupCoefficient : FixedU128
deriving DecidableEq

def UserMarkupInfo.zero : UserMarkupInfo := ⟨.zero, .zero⟩

structure LockedToken where
  amount : ℕ
  markupCoefficient : FixedU128
  refreshBlock : ℕ
deriving DecidableEq

structure MarkupCoefficientInfo where
  markupCoefficient : FixedU128
  hardcap : FixedU128
  updateBlock : ℕ
  rwi : FixedU128
deriving DecidableEq

structure IncentiveConfig (AccountId : Type) where
  rewardRate : Table CurrencyId ℕ
  rewardPerTokenStored : Table CurrencyId ℕ
  rewardsDuration : ℕ
  periodFinish : ℕ
  lastUpdateTime : ℕ
  incentiveController : Option AccountId
  lastReward : List CurrencyId

inductive Error where
  | notEnoughBalance
  | expired
  | belowMinimumMint
  | lockNotExist
  | lockExist
  | argumentsError
  | exceedsMaxPositions
  | noController
deriving DecidableEq, Repr

inductive Fault where
  | pallet (e : Error)
  | overflow
  | underflow
  | token (e : TokenError)
  | farming
  | vtokenMinting
deriving DecidableEq

/-- The runtime's choices. `Outside` is the storage of the other pallets; `refreshGaugePool` is
given the answers of `balance_of`. -/
structure Config (AccountId : Type) [DecidableEq AccountId] where
  currencies : LockableCurrencies AccountId LockIdentifier
  tokenType : CurrencyId
  incentiveAccount : AccountId
  buyBackAccount : AccountId
  week : ℕ
  maxBlock : ℕ
  oneYear : ℕ
  fiveYears : ℕ
  multiplier : ℕ
  voteWeightMultiplier : FixedU128
  maxPositions : ℕ
  markupRefreshLimit : ℕ
  accountOrder : Farming.KeyOrder AccountId
  Outside : Type
  refreshGaugePool : Outside → currencies.Ledger → (AccountId → Option ℕ) → AccountId →
    Option (Outside × currencies.Ledger)
  mintVtoken : Outside → currencies.Ledger → AccountId → ℕ →
    Option (Outside × currencies.Ledger)
  vCurrencyIssuance : Outside → CurrencyId → ℕ
  refreshGaugePool_moves : ∀ {o o' L L' balanceOf who},
    refreshGaugePool o L balanceOf who = some (o', L') → currencies.Moves L L'
  mintVtoken_moves : ∀ {o o' L L' who n},
    mintVtoken o L who n = some (o', L') → currencies.Moves L L'

variable {AccountId : Type} [DecidableEq AccountId]

/-- Tokens notified as rewards and rewards credited to accounts: the source keeps no such
history. -/
structure RewardHistory where
  notified : CurrencyId → ℕ
  credited : CurrencyId → ℕ

/-- The storage, with the block number, the token accounts and the storage of other pallets. -/
structure State (cfg : Config AccountId) where
  blockNumber : ℕ
  ledger : cfg.currencies.Ledger
  outside : cfg.Outside
  supply : ℕ
  bbConfig : BbConfig
  epoch : ℕ
  locked : ℕ → LockedBalance
  userLocked : AccountId → ℕ
  pointHistory : ℕ → Point
  userPointHistory : ℕ → ℕ → Point
  userPointEpoch : ℕ → ℕ
  slopeChanges : ℕ → ℤ
  incentive : IncentiveConfig AccountId
  userRewardPerTokenPaid : AccountId → Table CurrencyId ℕ
  rewards : AccountId → Option (Table CurrencyId ℕ)
  userMarkupInfos : AccountId → Option UserMarkupInfo
  lockedTokens : CurrencyId → Table AccountId LockedToken
  totalLock : CurrencyId → ℕ
  markupCoefficient : CurrencyId → Option MarkupCoefficientInfo
  position : ℕ
  userPositions : AccountId → List ℕ
  expiringPositions : ℕ → List ℕ
  nextExpiringBlock : ℕ
  positionOwner : ℕ → Option AccountId
  history : RewardHistory

/-- Token accounts before this pallet has locked anything. -/
structure Unlocked (cfg : Config AccountId) where
  ledger : cfg.currencies.Ledger
  unlocked : ∀ i c who, cfg.currencies.lock ledger i c who = 0

def genesis (cfg : Config AccountId) (accounts : Unlocked cfg) (outside : cfg.Outside)
    (blockNumber : ℕ) : State cfg where
  blockNumber := blockNumber
  ledger := accounts.ledger
  outside := outside
  supply := 0
  bbConfig := ⟨0, 0, 100⟩
  epoch := 0
  locked := fun _ => .zero
  userLocked := fun _ => 0
  pointHistory := fun _ => .zero
  userPointHistory := fun _ _ => .zero
  userPointEpoch := fun _ => 0
  slopeChanges := fun _ => 0
  incentive := ⟨∅, ∅, 0, 0, 0, none, []⟩
  userRewardPerTokenPaid := fun _ => ∅
  rewards := fun _ => none
  userMarkupInfos := fun _ => none
  lockedTokens := fun _ => ∅
  totalLock := fun _ => 0
  markupCoefficient := fun _ => none
  position := 0
  userPositions := fun _ => []
  expiringPositions := fun _ => []
  nextExpiringBlock := 0
  positionOwner := fun _ => none
  history := ⟨fun _ => 0, fun _ => 0⟩

end Bifrost.BbBnc
