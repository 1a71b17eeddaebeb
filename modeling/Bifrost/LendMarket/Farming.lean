import Bifrost.LendMarket.Liquidity

/-!
# Rewards

`farming.rs`. An index for each market and side counts what one unit earned so far; an
account is settled against it with the balance it has at that moment.
-/

namespace Bifrost.LendMarket

open Result
set_option autoImplicit false

variable {AccountId : Type} {cfg : Config AccountId}

def rewardScale : ℕ := 10 ^ 12

def toU128 (n : ℕ) : Except Fault ℕ := do
  ensure (n ≤ u128Max) .overflow
  pure n

def calculateRewardDeltaIndex (deltaBlock rewardSpeed totalShare : ℕ) : Except Fault ℕ :=
  if totalShare = 0 then pure 0
  else toU128 (deltaBlock * rewardSpeed * rewardScale / totalShare)

def calculateRewardDelta (share rewardDeltaIndex : ℕ) : Except Fault ℕ :=
  toU128 (share * rewardDeltaIndex / rewardScale)

/-- The index after the blocks up to `currentBlock` at `speed` over `totalShare`, which is read
only where the speed is not zero. -/
def RewardMarketState.advance (state : RewardMarketState) (currentBlock speed : ℕ)
    (totalShare : Except Fault ℕ) : Except Fault RewardMarketState :=
  let deltaBlock := currentBlock - state.block
  if deltaBlock = 0 then pure state
  else if speed = 0 then pure { state with block := currentBlock }
  else do
    let totalShare ← totalShare
    let deltaIndex ← calculateRewardDeltaIndex deltaBlock speed totalShare
    let index ← okOr (U128.checkedAdd state.index deltaIndex) .overflow
    pure ⟨index, currentBlock⟩

namespace State

def baseBorrowAmount (s : State cfg) (asset : CurrencyId) (amount : ℕ) : Except Fault ℕ :=
  okOr ((s.borrowIndex asset).reciprocal.bind fun r => r.checkedMulInt amount) .overflow

def updateRewardSupplyIndex (s : State cfg) (asset : CurrencyId) : Except Fault (State cfg) := do
  let state ← (s.rewards.supplyState asset).advance s.blockNumber (s.rewards.supplySpeed asset)
    (pure (s.totalSupply asset))
  pure { s with rewards := { s.rewards with
    supplyState := Function.update s.rewards.supplyState asset state } }

def updateRewardBorrowIndex (s : State cfg) (asset : CurrencyId) : Except Fault (State cfg) := do
  let state ← (s.rewards.borrowState asset).advance s.blockNumber (s.rewards.borrowSpeed asset)
    (s.baseBorrowAmount asset (s.totalBorrows asset))
  pure { s with rewards := { s.rewards with
    borrowState := Function.update s.rewards.borrowState asset state } }

variable [DecidableEq AccountId]

def distributeSupplierReward (s : State cfg) (asset : CurrencyId) (supplier : AccountId) :
    Except Fault (State cfg) := do
  let index := (s.rewards.supplyState asset).index
  let deltaIndex ← okOr (U128.checkedSub index (s.rewards.supplierIndex asset supplier)) .underflow
  let rewardDelta ← calculateRewardDelta (s.depositsOf asset supplier).voucherBalance deltaIndex
  let totalReward ← okOr (U128.checkedAdd (s.rewards.accrued supplier) rewardDelta) .overflow
  pure { s with rewards := { s.rewards with
    supplierIndex := Function.update s.rewards.supplierIndex asset
      (Function.update (s.rewards.supplierIndex asset) supplier index)
    accrued := Function.update s.rewards.accrued supplier totalReward
    events := .distributedSupplierReward asset supplier rewardDelta index :: s.rewards.events } }

def distributeBorrowerReward (s : State cfg) (asset : CurrencyId) (borrower : AccountId) :
    Except Fault (State cfg) := do
  let index := (s.rewards.borrowState asset).index
  let deltaIndex ← okOr (U128.checkedSub index (s.rewards.borrowerIndex asset borrower)) .underflow
  let currentBorrowAmount ← s.currentBorrowBalance borrower asset
  let baseBorrowAmount ← s.baseBorrowAmount asset currentBorrowAmount
  let rewardDelta ← calculateRewardDelta baseBorrowAmount deltaIndex
  let totalReward ← okOr (U128.checkedAdd (s.rewards.accrued borrower) rewardDelta) .overflow
  pure { s with rewards := { s.rewards with
    borrowerIndex := Function.update s.rewards.borrowerIndex asset
      (Function.update (s.rewards.borrowerIndex asset) borrower index)
    accrued := Function.update s.rewards.accrued borrower totalReward
    events := .distributedBorrowerReward asset borrower rewardDelta index :: s.rewards.events } }

def collectMarketReward (s : State cfg) (asset : CurrencyId) (user : AccountId) :
    Except Fault (State cfg) := do
  let s ← s.updateRewardSupplyIndex asset
  let s ← s.distributeSupplierReward asset user
  let s ← s.updateRewardBorrowIndex asset
  s.distributeBorrowerReward asset user

def payReward (s : State cfg) (user : AccountId) : Except Fault (State cfg) :=
  let totalReward := s.rewards.accrued user
  if totalReward = 0 then pure s
  else do
    let s ← s.transfer cfg.rewardAssetId cfg.rewardAccountId user totalReward .preserve
    pure { s with rewards := { s.rewards with
      accrued := Function.update s.rewards.accrued user 0 } }

end State

end Bifrost.LendMarket
