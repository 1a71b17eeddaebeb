import Bifrost.Lib.Table
import Bifrost.Primitives.Arithmetic
import Bifrost.Primitives.Currency
import Bifrost.Primitives.TimeUnit

/-!
# Types of the slp pallet

Locations, the ledgers of the delegators, the update entries that wait for an XCM response,
and the errors and events of `pallets/slp`.
-/

namespace Bifrost

set_option autoImplicit false

/-- The junctions the pallet takes apart. -/
inductive Junction (AccountId : Type) where
  | parachain (id : ℕ)
  | accountId32 (id : AccountId)
  | accountKey20 (key : ℕ)
  | generalIndex (index : ℕ)
deriving DecidableEq

structure MultiLocation (AccountId : Type) where
  parents : ℕ
  interior : List (Junction AccountId)
deriving DecidableEq

/-- `MultiLocation::default()`. -/
instance {AccountId : Type} : Inhabited (MultiLocation AccountId) := ⟨⟨0, []⟩⟩

instance {AccountId : Type} [DecidableEq AccountId] : LawfulBEq (MultiLocation AccountId) :=
  instLawfulBEq

namespace Slp

def ksm : CurrencyId := .token .KSM
def dot : CurrencyId := .token2 0
def bnc : CurrencyId := .native .BNC
def movr : CurrencyId := .token .MOVR
def glmr : CurrencyId := .token2 1
def manta : CurrencyId := .token2 8
def pha : CurrencyId := .token .PHA
def astr : CurrencyId := .token2 3

inductive XcmOperationType where
  | bond | bondExtra | unbond | rebond | delegate | payout | liquidize | transferBack | transferTo
  | chill | undelegate | convertAsset
deriving DecidableEq

structure UnlockChunk where
  value : ℕ
  unlockTime : TimeUnit
deriving DecidableEq, Repr

structure SubstrateLedger (AccountId : Type) where
  account : MultiLocation AccountId
  total : ℕ
  active : ℕ
  unlocking : List UnlockChunk
deriving DecidableEq

inductive OneToManyDelegatorStatus where
  | active
  | leaving (time : TimeUnit)
deriving DecidableEq, Repr

inductive OneToManyDelegationAction where
  | revoke (amount : ℕ)
  | decrease (amount : ℕ)
deriving DecidableEq, Repr

structure OneToManyScheduledRequest (AccountId : Type) where
  validator : MultiLocation AccountId
  whenExecutable : TimeUnit
  action : OneToManyDelegationAction
deriving DecidableEq

structure OneToManyLedger (AccountId : Type) where
  account : MultiLocation AccountId
  delegations : Table (MultiLocation AccountId) ℕ
  total : ℕ
  lessTotal : ℕ
  requests : List (OneToManyScheduledRequest AccountId)
  requestBriefs : Table (MultiLocation AccountId) (TimeUnit × ℕ)
  status : OneToManyDelegatorStatus

structure PhalaLedger (AccountId : Type) where
  account : MultiLocation AccountId
  activeShares : ℕ
  unlockingShares : ℕ
  unlockingTimeUnit : Option TimeUnit
  bondedPoolId : Option ℕ
  bondedPoolCollectionId : Option ℕ
  bondedIsVault : Option Bool
deriving DecidableEq

inductive Ledger (AccountId : Type) where
  | substrate (ledger : SubstrateLedger AccountId)
  | moonbeam (ledger : OneToManyLedger AccountId)
  | parachainStaking (ledger : OneToManyLedger AccountId)
  | phala (ledger : PhalaLedger AccountId)

inductive SubstrateLedgerUpdateOperation where
  | bond | unlock | rebond | liquidize
deriving DecidableEq, Repr

structure SubstrateLedgerUpdateEntry (AccountId : Type) where
  currencyId : CurrencyId
  delegatorId : MultiLocation AccountId
  updateOperation : SubstrateLedgerUpdateOperation
  amount : ℕ
  unlockTime : Option TimeUnit
deriving DecidableEq

inductive ParachainStakingLedgerUpdateOperation where
  | bond | bondLess | revoke | cancelRequest | leaveDelegator | cancelLeave | executeLeave
  | executeRequest
deriving DecidableEq, Repr

structure ParachainStakingLedgerUpdateEntry (AccountId : Type) where
  currencyId : CurrencyId
  delegatorId : MultiLocation AccountId
  validatorId : Option (MultiLocation AccountId)
  updateOperation : ParachainStakingLedgerUpdateOperation
  amount : ℕ
  unlockTime : Option TimeUnit
deriving DecidableEq

inductive LedgerUpdateEntry (AccountId : Type) where
  | substrate (entry : SubstrateLedgerUpdateEntry AccountId)
  | moonbeam (entry : ParachainStakingLedgerUpdateEntry AccountId)
  | parachainStaking (entry : ParachainStakingLedgerUpdateEntry AccountId)
deriving DecidableEq

/-- `SubstrateValidatorsByDelegatorUpdateEntry`, the only variant of
`ValidatorsByDelegatorUpdateEntry`. -/
structure ValidatorsByDelegatorUpdateEntry (AccountId : Type) where
  currencyId : CurrencyId
  delegatorId : MultiLocation AccountId
  validators : List (MultiLocation AccountId)
deriving DecidableEq

structure MinimumsMaximums where
  delegatorBondedMinimum : ℕ
  bondExtraMinimum : ℕ
  unbondMinimum : ℕ
  rebondMinimum : ℕ
  unbondRecordMaximum : ℕ
  validatorsBackMaximum : ℕ
  delegatorActiveStakingMaximum : ℕ
  validatorsRewardMaximum : ℕ
  delegationAmountMinimum : ℕ

structure Delays where
  unlockDelay : TimeUnit
  leaveDelegatorsDelay : TimeUnit

/-- The errors of the modelled calls. -/
inductive Error where
  | notAuthorized | notSupportedCurrencyId | overFlow | underFlow | notExist
  | lowerThanMinimum | greaterThanMaximum | alreadyBonded | accountNotExist | delegatorNotExist
  | xcmFailure | delegatorNotBonded | exceedActiveMaximum | notEnoughToUnbond
  | exceedUnlockingRecords | rebondExceedUnlockingAmount | vectorEmpty | validatorSetNotExist
  | validatorNotExist | invalidTimeUnit | amountZero | amountNotZero | validatorStillInUse
  | timeUnitNotExist | feeSourceNotExist | weightAndFeeNotExists | minimumsAndMaximumsNotExist
  | queryNotExist | delaysNotExist | unexpected | invalidHostingFee | invalidAccount
  | increaseTokenPoolError | tuneExchangeRateLimitNotSet | invalidTransferSource
  | validatorNotProvided | unsupported | validatorNotBonded | alreadyRequested | requestNotExist
  | alreadyLeaving | delegatorNotLeaving | requestNotDue | leavingNotDue | delegatorLeaving
  | delegatorAlreadyLeaving | validatorError | amountNone
  | ongoingTimeUnitUpdateIntervalNotExist | lastTimeUpdatedOngoingTimeUnitNotExist | tooFrequent
  | delegatorAlreadyTuned | feeTooHigh | notDelegateValidator | dividedByZero | sharePriceNotValid
  | invalidAmount | amountNotProvided | exceedMaxLengthLimit | transferToError
  | invalidPageNumber | noMoreValidatorBoostListForCurrency | handleHyperbridgeOracleError
deriving DecidableEq, Repr

inductive Event (AccountId : Type) where
  | delegatorBonded (currencyId : CurrencyId) (delegatorId : MultiLocation AccountId)
      (bondedAmount queryId : ℕ) (validator : Option (MultiLocation AccountId))
  | delegatorBondExtra (currencyId : CurrencyId) (delegatorId : MultiLocation AccountId)
      (extraBondedAmount queryId : ℕ) (validator : Option (MultiLocation AccountId))
  | delegatorUnbond (currencyId : CurrencyId) (delegatorId : MultiLocation AccountId)
      (unbondAmount queryId : ℕ) (validator : Option (MultiLocation AccountId))
  | delegatorUnbondAll (currencyId : CurrencyId) (delegatorId : MultiLocation AccountId)
      (queryId : ℕ)
  | delegatorRebond (currencyId : CurrencyId) (delegatorId : MultiLocation AccountId)
      (rebondAmount : Option ℕ) (queryId : ℕ) (validator : Option (MultiLocation AccountId))
  | delegated (currencyId : CurrencyId) (delegatorId : MultiLocation AccountId)
      (targets : Option (List (MultiLocation AccountId))) (queryId : ℕ)
  | undelegated (currencyId : CurrencyId) (delegatorId : MultiLocation AccountId)
      (targets : List (MultiLocation AccountId)) (queryId : ℕ)
  | payout (currencyId : CurrencyId) (validator : MultiLocation AccountId)
      (timeUnit : Option TimeUnit)
  | liquidize (currencyId : CurrencyId) (delegatorId : MultiLocation AccountId)
      (timeUnit : Option TimeUnit) (queryId : ℕ) (amount : Option ℕ)
  | chill (currencyId : CurrencyId) (delegatorId : MultiLocation AccountId) (queryId : ℕ)
  | transferBack (currencyId : CurrencyId) (source dest : MultiLocation AccountId) (amount : ℕ)
  | transferTo (currencyId : CurrencyId) (source dest : MultiLocation AccountId) (amount : ℕ)
  | convertAsset (currencyId : CurrencyId) (who : MultiLocation AccountId) (amount : ℕ)
  | delegatorRemoved (currencyId : CurrencyId) (delegatorId : MultiLocation AccountId)
  | timeUnitUpdated (currencyId : CurrencyId) (old : Option TimeUnit) (new : TimeUnit)
  | poolTokenIncreased (currencyId : CurrencyId) (amount : ℕ)
  | hostingFeeCharged (currencyId : CurrencyId) (amount : ℕ)
  | validatorsByDelegatorSet (currencyId : CurrencyId)
      (validatorsList : List (MultiLocation AccountId)) (delegatorId : MultiLocation AccountId)
  | delegatorLedgerSet (currencyId : CurrencyId) (delegator : MultiLocation AccountId)
      (ledger : Option (Ledger AccountId))
  | delegatorLedgerQueryResponseConfirmed (queryId : ℕ) (entry : LedgerUpdateEntry AccountId)
  | delegatorLedgerQueryResponseFailed (queryId : ℕ)
  | validatorsByDelegatorQueryResponseConfirmed (queryId : ℕ)
      (entry : ValidatorsByDelegatorUpdateEntry AccountId)
  | validatorsByDelegatorQueryResponseFailed (queryId : ℕ)
  | outdatedValidatorBoostListCleaned (currencyId : CurrencyId) (page removeNum numLeft : ℕ)
  | burnFeeFailed (currencyId : CurrencyId) (amount : ℕ)

/-- The call a message carries to the staking chain. -/
inductive RemoteCall (AccountId : Type) where
  | bond (amount : ℕ)
  | bondExtra (amount : ℕ)
  | unbond (amount : ℕ)
  | rebond (amount : ℕ)
  | nominate (targets : List AccountId)
  | payoutStakers (validator : AccountId) (era : ℕ)
  | withdrawUnbonded (numSlashingSpans : ℕ)
  | chill
  | delegate (validator : AccountId ⊕ ℕ) (amount candidateDelegationCount delegationCount : ℕ)
  | delegatorBondMore (validator : AccountId ⊕ ℕ) (amount : ℕ)
  | scheduleDelegatorBondLess (validator : AccountId ⊕ ℕ) (amount : ℕ)
  | cancelDelegationRequest (validator : AccountId ⊕ ℕ)
  | scheduleRevokeDelegation (validator : AccountId ⊕ ℕ)
  | executeDelegationRequest (delegator validator : AccountId ⊕ ℕ)
  | wrapAndContribute (isVault : Bool) (poolId amount : ℕ)
  | withdraw (isVault : Bool) (poolId shares : ℕ)
  | checkAndMaybeForceWithdraw (isVault : Bool) (poolId : ℕ)
  | wrap (amount : ℕ)
  | unwrap (amount : ℕ)
  | stake (contract amount : ℕ)
  | unstake (contract amount : ℕ)
  | lock (amount : ℕ)
  | unlock (amount : ℕ)
  | claimStakerRewards
  | claimBonusReward (contract : ℕ)
  | claimUnlocked
  | transfer (dest : AccountId) (amount : ℕ)

/-- A message to a staking chain, run there as the derivative account `subAccountIndex`; with a
query id its outcome is reported back. -/
structure XcmMessage (AccountId : Type) where
  subAccountIndex : ℕ
  call : RemoteCall AccountId
  weight : ℕ
  fee : ℕ
  queryId : Option ℕ

/-- The calls of the parachain-staking pallet the agent makes for BNC. -/
inductive NativeStaking (AccountId : Type) where
  | delegate (delegator candidate : AccountId) (amount candidateDelegationCount
      delegationCount : ℕ)
  | delegatorBondMore (delegator candidate : AccountId) (more : ℕ)
  | scheduleDelegatorBondLess (delegator candidate : AccountId) (less : ℕ)
  | scheduleLeaveDelegators (delegator : AccountId)
  | cancelDelegationRequest (delegator candidate : AccountId)
  | scheduleRevokeDelegation (delegator collator : AccountId)
  | cancelLeaveDelegators (delegator : AccountId)
  | executeLeaveDelegators (delegator : AccountId) (delegationCount : ℕ)
  | executeDelegationRequest (delegator candidate : AccountId)

end Slp

end Bifrost
