import Bifrost.Lib.Machine
import Bifrost.Lib.Result
import Bifrost.Lib.Table
import Bifrost.Primitives.Currencies
import Bifrost.Primitives.PerThing
import Mathlib.Data.Finset.Basic

/-!
# Storage of the farming pallet

The records of `rewards.rs` and `boost.rs`, the choices of the runtime and the storage of
`pallets/farming`. A share record is kept under its account; the copy of the account in the
record is left out. `GaugePoolInfos` and `GaugeInfos` are left out too: nothing writes them.
-/

namespace Bifrost.Farming

set_option autoImplicit false

inductive PoolState where
  | unCharged
  | charged
  | ongoing
  | dead
  | retired
deriving DecidableEq, Repr

structure ShareInfo where
  share : ℕ
  withdrawnRewards : Table CurrencyId ℕ
  claimLastBlock : ℕ
  withdrawList : List (ℕ × ℕ)

def ShareInfo.new (claimLastBlock : ℕ) : ShareInfo := ⟨0, ∅, claimLastBlock, []⟩

/-- `rewards` has the total reward and the total withdrawn reward of a currency. -/
structure PoolInfo (AccountId : Type) where
  tokensProportion : Table CurrencyId Perbill
  basicToken : CurrencyId × Perbill
  totalShares : ℕ
  basicRewards : Table CurrencyId ℕ
  rewards : Table CurrencyId (ℕ × ℕ)
  state : PoolState
  keeper : AccountId
  rewardIssuer : AccountId
  gauge : Option ℕ
  blockStartup : Option ℕ
  minDepositToStart : ℕ
  afterBlockToStart : ℕ
  withdrawLimitTime : ℕ
  claimLimitTime : ℕ
  withdrawLimitCount : ℕ

structure BoostPoolInfo where
  totalVotes : ℕ
  startRound : ℕ
  endRound : ℕ
  roundLength : ℕ
deriving DecidableEq

structure UserBoostInfo where
  voteAmount : ℕ
  voteList : List (ℕ × Percent)
  lastVote : ℕ
deriving DecidableEq

inductive Error where
  | notNullable
  | poolDoesNotExist
  | invalidPoolState
  | canNotClaim
  | withdrawLimitCountExceeded
  | shareInfoNotExists
  | canNotDeposit
  | whitelistEmpty
  | roundNotOver
  | roundLengthNotSet
  | whitelistLimitExceeded
  | nobodyVoting
  | notInWhitelist
  | percentOverflow
  | invalidRemoveAmount
  | userFarmingPoolOverflow
deriving DecidableEq, Repr

/-- Why a call did not complete. A division by zero panics. -/
inductive Fault where
  | pallet (e : Error)
  | overflow
  | token (e : TokenError)
  | bbBnc
  | divisionByZero
deriving DecidableEq

/-- The order in which a hashed map goes through its keys. -/
structure KeyOrder (κ : Type) where
  arrange : List κ → List κ
  perm : ∀ l, (arrange l).Perm l

/-- The runtime's choices. `keeper` and `rewardIssuer` derive a sub-account from a pool id. -/
structure Config (AccountId : Type) where
  currencies : Currencies AccountId
  totalBalance : currencies.Ledger → CurrencyId → AccountId → ℕ
  keeper : ℕ → AccountId
  rewardIssuer : ℕ → AccountId
  farmingBoost : AccountId
  treasuryAccount : AccountId
  whitelistMaximumLimit : ℕ
  accountOrder : KeyOrder AccountId
  poolOrder : KeyOrder ℕ

variable {AccountId : Type}

structure Boost (AccountId : Type) where
  poolInfo : BoostPoolInfo
  users : Table AccountId UserBoostInfo
  whitelist : Finset ℕ
  nextRoundWhitelist : Finset ℕ
  votingPools : Table ℕ ℕ
  basicRewards : ℕ → CurrencyId → Option ℕ

/-- What an account moved into and out of one pool: a history the source does not keep. -/
structure Principal where
  deposited : ℕ
  paid : ℕ
  tokensIn : CurrencyId → ℕ
  tokensOut : CurrencyId → ℕ

/-- The storage, with the block number and what the pallet reads of other pallets: token
accounts and the answers of `BbBNC::balance_of`. -/
structure State (cfg : Config AccountId) where
  blockNumber : ℕ
  ledger : cfg.currencies.Ledger
  bbBalance : AccountId → Option ℕ
  poolNextId : ℕ
  retireLimit : ℕ
  poolInfos : ℕ → Option (PoolInfo AccountId)
  shares : ℕ → Table AccountId ShareInfo
  userFarmingPool : AccountId → List ℕ
  boost : Boost AccountId
  principal : ℕ → AccountId → Principal

def genesis (cfg : Config AccountId) (ledger : cfg.currencies.Ledger)
    (bbBalance : AccountId → Option ℕ) (blockNumber : ℕ) : State cfg where
  blockNumber := blockNumber
  ledger := ledger
  bbBalance := bbBalance
  poolNextId := 0
  retireLimit := 0
  poolInfos := fun _ => none
  shares := fun _ => ∅
  userFarmingPool := fun _ => []
  boost := {
    poolInfo := ⟨0, 0, 0, 0⟩
    users := ∅
    whitelist := ∅
    nextRoundWhitelist := ∅
    votingPools := ∅
    basicRewards := fun _ _ => none }
  principal := fun _ _ => ⟨0, 0, fun _ => 0, fun _ => 0⟩

def poolIds : ℕ := 2 ^ 32

def gaugeBaseId : ℕ := 10000000

/-- `pid + GAUGE_BASE_ID`, which wraps. -/
def gaugePid (pid : ℕ) : ℕ := (pid + gaugeBaseId) % poolIds

theorem gaugePid_ne (pid : ℕ) : gaugePid pid ≠ pid := by
  unfold gaugePid gaugeBaseId poolIds
  omega

-- Its literals are never to be computed with in a proof.
attribute [irreducible] gaugePid

end Bifrost.Farming
