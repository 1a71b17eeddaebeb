import Bifrost.Primitives.Arithmetic
import Bifrost.Primitives.Currency
import Bifrost.Primitives.TimeUnit
import Bifrost.Lib.Result

/-!
# Types of the slp-v2 pallet

The protocols, their delegators and ledgers, the tasks that are sent, and the status that waits
for their responses. An `H160` is a number.
-/

namespace Bifrost.SlpV2

open Result
set_option autoImplicit false

inductive StakingProtocol where
  | astarDappStaking
  | moonbeamParachainStaking
  | polkadotStaking
  | ethereumStaking
  | generalProxyStaking (currencyId : CurrencyId) (destination : ℕ)
deriving DecidableEq

def astr : CurrencyId := .token2 3
def glmr : CurrencyId := .token2 1
def dot : CurrencyId := .token2 0
def eth : CurrencyId := .token2 15

namespace StakingProtocol

/-- The currency of `info()`, which a general proxy does not have. -/
def currencyId : StakingProtocol → Option CurrencyId
  | astarDappStaking => some astr
  | moonbeamParachainStaking => some glmr
  | polkadotStaking => some dot
  | ethereumStaking => some eth
  | generalProxyStaking _ _ => none

def isGeneralProxy : StakingProtocol → Bool
  | generalProxyStaking _ _ => true
  | _ => false

end StakingProtocol

inductive Delegator (AccountId : Type) where
  | substrate (account : AccountId)
  | ethereum (address : ℕ)
deriving DecidableEq

inductive AstarValidator (AccountId : Type) where
  | evm (contract : ℕ)
  | wasm (account : AccountId)
deriving DecidableEq

inductive Validator (AccountId : Type) where
  | astarDappStaking (validator : AstarValidator AccountId)
  | moonbeamParachainStaking (address : ℕ)
  | polkadotStaking (account : AccountId)
  | ethereumStaking (address : ℕ)
deriving DecidableEq

structure AstarUnlockingRecord where
  amount : ℕ
  unlockTime : TimeUnit
deriving DecidableEq

inductive Error where
  | delegatorIndexOverflow
  | validatorsOverflow
  | unlockRecordOverflow
  | unsupportedStakingProtocol
  | delegatorIndexNotFound
  | configurationNotFound
  | delegatorNotFound
  | ledgerNotFound
  | validatorNotFound
  | xcmFeeNotFound
  | pendingStatusNotFound
  | timeUnitNotFound
  | delegatorAlreadyExists
  | delegatorIndexAlreadyExists
  | validatorAlreadyExists
  | derivativeAccountIdFailed
  | validatingFailed
  | deliveringFailed
  | increaseTokenPoolFailed
  | updateIntervalTooShort
  | updateTokenExchangeRateAmountTooLarge
  | invalidParameter
  | arithmeticOverflow
  | notAuthorized
deriving DecidableEq

structure AstarDappStakingLedger where
  locked : ℕ
  unlocking : List AstarUnlockingRecord
deriving DecidableEq

structure EthereumStakingLedger where
  locked : ℕ
deriving DecidableEq

def addLockAmount (locked amount : ℕ) : Except Error ℕ :=
  okOr (U128.checkedAdd locked amount) .arithmeticOverflow

def subtractLockAmount (locked amount : ℕ) : Except Error ℕ :=
  okOr (U128.checkedSub locked amount) .arithmeticOverflow

inductive Ledger where
  | astarDappStaking (ledger : AstarDappStakingLedger)
  | ethereumStaking (ledger : EthereumStakingLedger)
deriving DecidableEq

namespace AstarDappStakingLedger

/-- The limit of the vector of unlocking chunks. -/
def maxUnlocking : ℕ := 8

def lock (l : AstarDappStakingLedger) (amount : ℕ) : Except Error AstarDappStakingLedger := do
  let locked ← addLockAmount l.locked amount
  pure { l with locked }

/-- The chunks whose time has passed are dropped. -/
def claimUnlocked (l : AstarDappStakingLedger) (current : TimeUnit) : AstarDappStakingLedger :=
  { l with unlocking := l.unlocking.filter fun record => current.cmp record.unlockTime ≠ .gt }

end AstarDappStakingLedger

inductive DappStaking (AccountId : Type) where
  | lock (amount : ℕ)
  | unlock (amount : ℕ)
  | claimUnlocked
  | relockUnlocking
  | stake (validator : AstarValidator AccountId) (amount : ℕ)
  | unstake (validator : AstarValidator AccountId) (amount : ℕ)
  | claimStakerRewards
  | claimBonusReward (validator : AstarValidator AccountId)
deriving DecidableEq

inductive EthereumStaking where
  | stake (amount : ℕ)
  | unstake (amount : ℕ)
deriving DecidableEq

inductive PendingStatus (AccountId : Type) where
  | lock (delegator : Delegator AccountId) (amount : ℕ)
  | unLock (delegator : Delegator AccountId) (amount : ℕ)
  | claimUnlocked (delegator : Delegator AccountId)
deriving DecidableEq

def PendingStatus.delegator {AccountId : Type} : PendingStatus AccountId → Delegator AccountId
  | lock delegator _ | unLock delegator _ | claimUnlocked delegator => delegator

structure XcmFee where
  weight : ℕ
  fee : ℕ
deriving DecidableEq

structure ProtocolConfiguration (AccountId : Type) where
  xcmTaskFee : XcmFee
  protocolFeeRate : Permill
  unlockPeriod : TimeUnit
  operator : AccountId
  maxUpdateTokenExchangeRate : Permill
  updateTimeUnitInterval : ℕ
  updateExchangeRateInterval : ℕ
deriving DecidableEq

/-- What a message makes the derivative account of a delegator do. -/
inductive RemoteCall (AccountId : Type) where
  | dappStaking (task : DappStaking AccountId)
  | limitedReserveTransferAssets (amount : ℕ) (to_ : AccountId)

structure XcmMessage (AccountId : Type) where
  protocol : StakingProtocol
  delegatorIndex : ℕ
  call : RemoteCall AccountId
  taskFee : XcmFee
  /-- The query the execution reports to. -/
  queryId : Option ℕ

end Bifrost.SlpV2
