import Bifrost.Slp.PolkadotAgent

/-!
# The agent for Phala

The ledger counts shares of the pool or vault a delegator is bonded to; `share_price` carries the
value and the shares of the pool. Delegating writes the ledger without a message.
-/

namespace Bifrost.Slp

open Result
set_option autoImplicit false

variable {AccountId : Type} [DecidableEq AccountId] {cfg : Config AccountId}

namespace PhalaLedger

def empty (account : MultiLocation AccountId) : PhalaLedger AccountId where
  account := account
  activeShares := 0
  unlockingShares := 0
  unlockingTimeUnit := none
  bondedPoolId := none
  bondedPoolCollectionId := none
  bondedIsVault := none

/-- The pool a delegator is bonded to and whether it is a vault. -/
def pool (ledger : PhalaLedger AccountId) : Except Fault (ℕ × Bool) := do
  let poolId ← okOr ledger.bondedPoolId (.pallet .notDelegateValidator)
  let isVault ← okOr ledger.bondedIsVault (.pallet .notDelegateValidator)
  pure (poolId, isVault)

def delegate (ledger : PhalaLedger AccountId) (poolId collectionId : ℕ) (isVault : Bool) :
    Except Fault (PhalaLedger AccountId) := do
  ensure (ledger.activeShares = 0) (.pallet .alreadyBonded)
  ensure (ledger.unlockingShares = 0) (.pallet .alreadyBonded)
  pure { ledger with
    bondedPoolId := some (min poolId (2 ^ 64 - 1))
    bondedPoolCollectionId := some (min collectionId u32Max)
    bondedIsVault := some isVault }

def undelegate (ledger : PhalaLedger AccountId) : Except Fault (PhalaLedger AccountId) := do
  ensure (ledger.activeShares = 0) (.pallet .validatorStillInUse)
  ensure (ledger.unlockingShares = 0) (.pallet .validatorStillInUse)
  pure { ledger with bondedPoolId := none, bondedPoolCollectionId := none, bondedIsVault := none }

/-- `liquidize`: the unlocking shares are replaced by fewer. -/
def revise (ledger : PhalaLedger AccountId) (amount : ℕ) :
    Except Fault (PhalaLedger AccountId) := do
  ensure (ledger.bondedPoolId ≠ none) (.pallet .delegatorNotBonded)
  ensure (amount < ledger.unlockingShares) (.pallet .invalidAmount)
  pure { ledger with
    unlockingShares := amount
    unlockingTimeUnit := if amount = 0 then none else ledger.unlockingTimeUnit }

def update (ledger : PhalaLedger AccountId) (entry : SubstrateLedgerUpdateEntry AccountId) :
    Except Fault (PhalaLedger AccountId) :=
  match entry.updateOperation with
  | .bond => do
    let activeShares ← okOr (U128.checkedAdd ledger.activeShares entry.amount) (.pallet .overFlow)
    pure { ledger with activeShares := activeShares }
  | .unlock => do
    ensure (ledger.unlockingShares = 0) (.pallet .alreadyRequested)
    let activeShares ← okOr (U128.checkedSub ledger.activeShares entry.amount) (.pallet .underFlow)
    let unlockTime ← okOr entry.unlockTime (.pallet .timeUnitNotExist)
    pure { ledger with
      activeShares := activeShares
      unlockingShares := entry.amount
      unlockingTimeUnit := some unlockTime }
  | _ => .error (.pallet .unexpected)

end PhalaLedger

namespace PhalaAgent

/-- `calculate_shares` at the price the location carries. -/
def calculateShares (sharePrice : Option (MultiLocation AccountId)) (amount : ℕ) :
    Except Fault ℕ :=
  match sharePrice with
  | some ⟨_, [.generalIndex totalValue, .generalIndex totalShares]⟩ => do
    ensure (0 < totalShares) (.pallet .dividedByZero)
    -- a `U256` product saturates
    let product := min (totalShares * amount) (2 ^ 256 - 1)
    let shares ← okOr (U128.checkedDiv product totalValue) (.pallet .overFlow)
    ensure (shares ≤ u128Max) (.pallet .overFlow)
    pure shares
  | _ => .error (.pallet .sharePriceNotValid)

def unlockTime (s : State cfg) (c : CurrencyId) :
    SubstrateLedgerUpdateOperation → Except Fault (Option TimeUnit)
  | .unlock => some <$> s.getUnlockingTimeUnitFromCurrent false c
  | _ => pure none

def insertEntry (s : State cfg) (who : MultiLocation AccountId)
    (operation : SubstrateLedgerUpdateOperation) (shares queryId timeout : ℕ) (c : CurrencyId) :
    Except Fault (State cfg) := do
  let unlockTime ← unlockTime s c operation
  pure (s.setLedgerQuery queryId
    (some (.substrate ⟨c, who, operation, shares, unlockTime⟩, timeout)))

def bond (s : State cfg) (who : MultiLocation AccountId) (amount : ℕ)
    (sharePrice : Option (MultiLocation AccountId)) (c : CurrencyId)
    (weightAndFee : Option (ℕ × ℕ)) : Except Fault (ℕ × State cfg) := do
  let ledger ← s.phalaLedger c who .delegatorNotExist
  let (poolId, isVault) ← ledger.pool
  let minsMaxs ← s.getMinimumsAndMaximums c
  ensure (minsMaxs.delegatorBondedMinimum ≤ amount) (.pallet .lowerThanMinimum)
  ensure (amount ≤ minsMaxs.delegatorActiveStakingMaximum) (.pallet .exceedActiveMaximum)
  s.sendWithRecord .bond (.wrapAndContribute isVault poolId amount) who c weightAndFee
    fun s queryId timeout => do
      let shares ← calculateShares sharePrice amount
      insertEntry s who .bond shares queryId timeout c

def bondExtra (s : State cfg) (who : MultiLocation AccountId) (amount : ℕ)
    (sharePrice : Option (MultiLocation AccountId)) (c : CurrencyId)
    (weightAndFee : Option (ℕ × ℕ)) : Except Fault (ℕ × State cfg) :=
  bond s who amount sharePrice c weightAndFee

def unbond (s : State cfg) (who : MultiLocation AccountId) (amount : ℕ)
    (sharePrice : Option (MultiLocation AccountId)) (c : CurrencyId)
    (weightAndFee : Option (ℕ × ℕ)) : Except Fault (ℕ × State cfg) := do
  let ledger ← s.phalaLedger c who .delegatorNotExist
  let (poolId, isVault) ← ledger.pool
  ensure (ledger.unlockingShares = 0) (.pallet .alreadyRequested)
  ensure (0 < amount) (.pallet .amountZero)
  let shares ← calculateShares sharePrice amount
  ensure (1000 < shares) (.pallet .lowerThanMinimum)
  let minsMaxs ← s.getMinimumsAndMaximums c
  ensure (minsMaxs.unbondMinimum ≤ amount) (.pallet .lowerThanMinimum)
  ensure (shares ≤ ledger.activeShares) (.pallet .notEnoughToUnbond)
  s.sendWithRecord .unbond (.withdraw isVault poolId shares) who c weightAndFee
    fun s queryId timeout => insertEntry s who .unlock shares queryId timeout c

def rebond (s : State cfg) (who : MultiLocation AccountId) (amount : Option ℕ)
    (sharePrice : Option (MultiLocation AccountId)) (c : CurrencyId)
    (weightAndFee : Option (ℕ × ℕ)) : Except Fault (ℕ × State cfg) := do
  let amount ← okOr amount (.pallet .invalidAmount)
  ensure (0 < amount) (.pallet .amountZero)
  bond s who amount sharePrice c weightAndFee

def delegate (s : State cfg) (who : MultiLocation AccountId)
    (targets : List (MultiLocation AccountId)) (c : CurrencyId) : Except Fault (ℕ × State cfg) := do
  ensure (s.settings.delegatorsMultilocation2Index c who ≠ none) (.pallet .delegatorNotExist)
  let candidate ← okOr targets.head? (.pallet .vectorEmpty)
  match candidate with
  | ⟨vaultOrStakePool, [.generalIndex poolId, .generalIndex collectionId]⟩ => do
    let validatorsSet ← okOr (s.settings.validators c) (.pallet .validatorSetNotExist)
    ensure (candidate ∈ validatorsSet) (.pallet .validatorNotExist)
    let s := if (s.getLedger c who).isNone then s.setLedger c who (some (.phala (.empty who))) else s
    let s ← s.mutatePhala c who .unexpected fun ledger =>
      ledger.delegate poolId collectionId (vaultOrStakePool = 0)
    pure (0, s.depositEvent (.delegated c who (some targets) 0))
  | _ => .error (.pallet .validatorError)

def undelegate (s : State cfg) (who : MultiLocation AccountId) (c : CurrencyId) :
    Except Fault (ℕ × State cfg) := do
  let s ← s.mutatePhala c who .delegatorNotExist fun ledger => ledger.undelegate
  pure (0, s.depositEvent (.undelegated c who [] 0))

def redelegate (s : State cfg) (who : MultiLocation AccountId)
    (targets : Option (List (MultiLocation AccountId))) (c : CurrencyId) :
    Except Fault (ℕ × State cfg) := do
  let targets ← okOr targets (.pallet .validatorNotProvided)
  delegate s who targets c

/-- The response to the query this makes finds nothing to confirm. -/
def payout (s : State cfg) (who : MultiLocation AccountId) (c : CurrencyId)
    (weightAndFee : Option (ℕ × ℕ)) : Except Fault (ℕ × State cfg) := do
  let ledger ← s.phalaLedger c who .delegatorNotExist
  let (poolId, isVault) ← ledger.pool
  s.sendWithRecord .payout (.checkAndMaybeForceWithdraw isVault poolId) who c weightAndFee
    fun s _ _ => pure s

def liquidize (s : State cfg) (who : MultiLocation AccountId) (c : CurrencyId)
    (amount : Option ℕ) : Except Fault (ℕ × State cfg) := do
  let updatedAmount ← okOr amount (.pallet .amountNotProvided)
  let s ← s.mutatePhala c who .unexpected fun ledger => ledger.revise updatedAmount
  pure (0, s)

def transferBack (s : State cfg) (source dest : MultiLocation AccountId) (amount : ℕ)
    (c : CurrencyId) (weightAndFee : Option (ℕ × ℕ)) : Except Fault (State cfg) := do
  ensure (amount ≠ 0) (.pallet .amountZero)
  let destAccount ← multilocationToAccount dest
  let _ ← convertCurrencyToDestLocation c
  s.sendWithoutRecord .transferBack (.transfer destAccount amount) source c weightAndFee

def convertAsset (s : State cfg) (who : MultiLocation AccountId) (amount : ℕ) (c : CurrencyId)
    (ifFromCurrency : Bool) (weightAndFee : Option (ℕ × ℕ)) : Except Fault (ℕ × State cfg) := do
  ensure ((s.getLedger c who).isSome) (.pallet .delegatorNotExist)
  ensure (amount ≠ 0) (.pallet .amountZero)
  let call : RemoteCall AccountId := if ifFromCurrency then .wrap amount else .unwrap amount
  s.sendWithRecord .convertAsset call who c weightAndFee fun s _ _ => pure s

def tuneVtokenExchangeRate (s : State cfg) (who : Option (MultiLocation AccountId))
    (poolValue : ℕ) (c : CurrencyId) : Except Fault (State cfg) := do
  let who ← okOr who (.pallet .delegatorNotExist)
  let ledger ← s.phalaLedger c who .delegatorNotExist
  ensure (ledger.bondedPoolId ≠ none) (.pallet .delegatorNotBonded)
  s.tuneVtokenExchangeRateWithoutUpdateLedger who poolValue c

def removeDelegator (s : State cfg) (who : MultiLocation AccountId) (c : CurrencyId) :
    Except Fault (State cfg) := do
  let ledger ← s.bondedLedger c who
  match ledger with
  | .phala ledger => do
    ensure (ledger.activeShares = 0) (.pallet .amountNotZero)
    ensure (ledger.unlockingShares = 0) (.pallet .amountNotZero)
    s.innerRemoveDelegator who c
  | _ => .error (.pallet .unexpected)

def updateLedgerQueryResponseStorage (s : State cfg) (queryId : ℕ)
    (entry : LedgerUpdateEntry AccountId) (c : CurrencyId) : Except Fault (State cfg) :=
  match entry with
  | .substrate entry => do
    let s ← s.mutatePhala c entry.delegatorId .unexpected fun ledger => ledger.update entry
    pure (s.setLedgerQuery queryId none)
  | _ => .error (.pallet .unexpected)

def checkDelegatorLedgerQueryResponse (s : State cfg) (queryId : ℕ)
    (entry : LedgerUpdateEntry AccountId) (c : CurrencyId) : Except Fault (State cfg) := do
  let s ← updateLedgerQueryResponseStorage s queryId entry c
  pure (s.depositEvent (.delegatorLedgerQueryResponseConfirmed queryId entry))

end PhalaAgent

end Bifrost.Slp
