import Bifrost.Slp.Pallet

/-!
# The agent for Kusama and Polkadot

Every staking call is checked against the ledger of the delegator when it is sent and applied to
the ledger when its response is confirmed.
-/

namespace Bifrost.Slp

open Result
set_option autoImplicit false

variable {AccountId : Type} [DecidableEq AccountId] {cfg : Config AccountId}

namespace SubstrateLedger

/-- The sum of the unlocking chunks, as `rebond` adds it up. -/
def totalUnlocking (unlocking : List UnlockChunk) : Except Fault ℕ :=
  unlocking.foldlM (fun total chunk => okOr (U128.checkedAdd total chunk.value)
    (.pallet .overFlow)) 0

/-- `Bond` of `update_ledger_query_response_storage`. -/
def bond (ledger : SubstrateLedger AccountId) (amount : ℕ) :
    Except Fault (SubstrateLedger AccountId) := do
  let active ← okOr (U128.checkedAdd ledger.active amount) (.pallet .overFlow)
  let total ← okOr (U128.checkedAdd ledger.total amount) (.pallet .overFlow)
  pure { ledger with active := active, total := total }

def unlock (ledger : SubstrateLedger AccountId) (amount : ℕ) (unlockTime : Option TimeUnit) :
    Except Fault (SubstrateLedger AccountId) := do
  let active ← okOr (U128.checkedSub ledger.active amount) (.pallet .underFlow)
  let unlockTime ← okOr unlockTime (.pallet .timeUnitNotExist)
  pure { ledger with
    active := active
    unlocking := ledger.unlocking ++ [⟨amount, unlockTime⟩] }

/-- The loop of `Rebond`, over the chunks from the last to the first: it ends with the chunk the
remaining amount does not use up, or with no chunk left. -/
def popChunks : List UnlockChunk → ℕ → List UnlockChunk
  | [], _ => []
  | record :: records, remaining =>
    if record.value ≤ remaining then popChunks records (remaining - record.value)
    else ⟨record.value - remaining, record.unlockTime⟩ :: records

def rebond (ledger : SubstrateLedger AccountId) (amount : ℕ) :
    Except Fault (SubstrateLedger AccountId) := do
  let unlocking := (popChunks ledger.unlocking.reverse amount).reverse
  let active ← okOr (U128.checkedAdd ledger.active amount) (.pallet .overFlow)
  pure { ledger with active := active, unlocking := unlocking }

/-- The loop of `Liquidize`: the value of the chunks that lead the list and are due, and the
chunks left. -/
def popDue (unlockEra : ℕ) : List UnlockChunk → ℕ → Except Fault (ℕ × List UnlockChunk)
  | [], accumulated => pure (accumulated, [])
  | record :: records, accumulated =>
    match record.unlockTime with
    | .era dueEra =>
      if dueEra ≤ unlockEra then do
        let accumulated ← okOr (U128.checkedAdd accumulated record.value) (.pallet .overFlow)
        popDue unlockEra records accumulated
      else pure (accumulated, record :: records)
    | _ => .error (.pallet .unexpected)

def liquidize (ledger : SubstrateLedger AccountId) (unlockTime : Option TimeUnit) :
    Except Fault (SubstrateLedger AccountId) := do
  let unlockUnit ← okOr unlockTime (.pallet .invalidTimeUnit)
  match unlockUnit with
  | .era unlockEra => do
    let (accumulated, unlocking) ← popDue unlockEra ledger.unlocking 0
    let total ← okOr (U128.checkedSub ledger.total accumulated) (.pallet .overFlow)
    pure { ledger with total := total, unlocking := unlocking }
  | _ => .error (.pallet .invalidTimeUnit)

def update (ledger : SubstrateLedger AccountId) (entry : SubstrateLedgerUpdateEntry AccountId) :
    Except Fault (SubstrateLedger AccountId) :=
  match entry.updateOperation with
  | .bond => ledger.bond entry.amount
  | .unlock => ledger.unlock entry.amount entry.unlockTime
  | .rebond => ledger.rebond entry.amount
  | .liquidize => ledger.liquidize entry.unlockTime

end SubstrateLedger

def State.substrateUnlockTime (s : State cfg) (c : CurrencyId) :
    SubstrateLedgerUpdateOperation → Except Fault (Option TimeUnit)
  | .unlock => some <$> s.getUnlockingTimeUnitFromCurrent false c
  | .liquidize => pure (s.getOngoingTimeUnit c)
  | _ => pure none

def State.insertSubstrateEntry (s : State cfg) (who : MultiLocation AccountId)
    (operation : SubstrateLedgerUpdateOperation) (amount queryId timeout : ℕ) (c : CurrencyId) :
    Except Fault (State cfg) := do
  let unlockTime ← s.substrateUnlockTime c operation
  pure (s.setLedgerQuery queryId
    (some (.substrate ⟨c, who, operation, amount, unlockTime⟩, timeout)))

namespace PolkadotAgent

/-- The chains whose calls the agent can encode. -/
def ensureSupported (c : CurrencyId) : Except Fault PUnit :=
  ensure (c = ksm ∨ c = dot) (.pallet .notSupportedCurrencyId)

def bond (s : State cfg) (who : MultiLocation AccountId) (amount : ℕ) (c : CurrencyId)
    (weightAndFee : Option (ℕ × ℕ)) : Except Fault (ℕ × State cfg) := do
  ensure ((s.getLedger c who).isNone) (.pallet .alreadyBonded)
  let minsMaxs ← s.getMinimumsAndMaximums c
  ensure (minsMaxs.delegatorBondedMinimum ≤ amount) (.pallet .lowerThanMinimum)
  ensure (amount ≤ minsMaxs.delegatorActiveStakingMaximum) (.pallet .exceedActiveMaximum)
  ensureSupported c
  s.sendWithRecord .bond (.bond amount) who c weightAndFee fun s queryId timeout =>
    let s := s.setLedger c who (some (.substrate ⟨who, 0, 0, []⟩))
    s.insertSubstrateEntry who .bond amount queryId timeout c

def bondExtra (s : State cfg) (who : MultiLocation AccountId) (amount : ℕ) (c : CurrencyId)
    (weightAndFee : Option (ℕ × ℕ)) : Except Fault (ℕ × State cfg) := do
  let ledger ← s.bondedLedger c who
  let minsMaxs ← s.getMinimumsAndMaximums c
  ensure (minsMaxs.bondExtraMinimum ≤ amount) (.pallet .lowerThanMinimum)
  let ledger ← ledger.asSubstrate
  let total ← okOr (U128.checkedAdd amount ledger.active) (.pallet .overFlow)
  ensure (total ≤ minsMaxs.delegatorActiveStakingMaximum) (.pallet .exceedActiveMaximum)
  ensureSupported c
  s.sendWithRecord .bondExtra (.bondExtra amount) who c weightAndFee fun s queryId timeout =>
    s.insertSubstrateEntry who .bond amount queryId timeout c

def unbond (s : State cfg) (who : MultiLocation AccountId) (amount : ℕ) (c : CurrencyId)
    (weightAndFee : Option (ℕ × ℕ)) : Except Fault (ℕ × State cfg) := do
  let ledger ← s.bondedLedger c who
  let ledger ← ledger.asSubstrate
  let minsMaxs ← s.getMinimumsAndMaximums c
  ensure (minsMaxs.unbondMinimum ≤ amount) (.pallet .lowerThanMinimum)
  let remaining ← okOr (U128.checkedSub ledger.active amount) (.pallet .notEnoughToUnbond)
  ensure (minsMaxs.delegatorBondedMinimum ≤ remaining) (.pallet .notEnoughToUnbond)
  ensure (ledger.unlocking.length < minsMaxs.unbondRecordMaximum) (.pallet .exceedUnlockingRecords)
  ensureSupported c
  s.sendWithRecord .unbond (.unbond amount) who c weightAndFee fun s queryId timeout =>
    s.insertSubstrateEntry who .unlock amount queryId timeout c

def unbondAll (s : State cfg) (who : MultiLocation AccountId) (c : CurrencyId)
    (weightAndFee : Option (ℕ × ℕ)) : Except Fault (ℕ × State cfg) := do
  let ledger ← s.bondedLedger c who
  let ledger ← ledger.asSubstrate
  let amount := ledger.active
  ensureSupported c
  s.sendWithRecord .unbond (.unbond amount) who c weightAndFee fun s queryId timeout =>
    s.insertSubstrateEntry who .unlock amount queryId timeout c

def rebond (s : State cfg) (who : MultiLocation AccountId) (amount : Option ℕ) (c : CurrencyId)
    (weightAndFee : Option (ℕ × ℕ)) : Except Fault (ℕ × State cfg) := do
  let amount ← okOr amount (.pallet .amountNone)
  let ledger ← s.bondedLedger c who
  let minsMaxs ← s.getMinimumsAndMaximums c
  ensure (minsMaxs.rebondMinimum ≤ amount) (.pallet .lowerThanMinimum)
  let ledger ← ledger.asSubstrate
  let totalUnlocking ← SubstrateLedger.totalUnlocking ledger.unlocking
  ensure (amount ≤ totalUnlocking) (.pallet .rebondExceedUnlockingAmount)
  ensureSupported c
  s.sendWithRecord .rebond (.rebond amount) who c weightAndFee fun s queryId timeout =>
    s.insertSubstrateEntry who .rebond amount queryId timeout c

/-- The end of `delegate` and `undelegate`: the validators nominated from now on. -/
def nominate (s : State cfg) (who : MultiLocation AccountId)
    (validators : List (MultiLocation AccountId)) (c : CurrencyId)
    (weightAndFee : Option (ℕ × ℕ)) : Except Fault (ℕ × State cfg) := do
  let accounts ← validators.mapM multilocationToAccount
  ensureSupported c
  s.sendWithRecord .delegate (.nominate accounts) who c weightAndFee fun s queryId timeout =>
    pure (s.setValidatorsQuery queryId (some (⟨c, who, validators⟩, timeout)))

def delegate (s : State cfg) (who : MultiLocation AccountId)
    (targets : List (MultiLocation AccountId)) (c : CurrencyId) (weightAndFee : Option (ℕ × ℕ)) :
    Except Fault (ℕ × State cfg) := do
  ensure ((s.getLedger c who).isSome) (.pallet .delegatorNotBonded)
  ensure (0 < targets.length) (.pallet .vectorEmpty)
  let minsMaxs ← s.getMinimumsAndMaximums c
  ensure (targets.length ≤ minsMaxs.validatorsBackMaximum) (.pallet .greaterThanMaximum)
  let dedupList ← s.removeValidatorsDuplicates c targets
  nominate s who dedupList c weightAndFee

def undelegate (s : State cfg) (who : MultiLocation AccountId)
    (targets : List (MultiLocation AccountId)) (c : CurrencyId) (weightAndFee : Option (ℕ × ℕ)) :
    Except Fault (ℕ × State cfg) := do
  ensure ((s.getLedger c who).isSome) (.pallet .delegatorNotBonded)
  ensure (0 < targets.length) (.pallet .vectorEmpty)
  let originalSet ← okOr (s.validatorsByDelegator c who) (.pallet .validatorSetNotExist)
  let newSet := originalSet.filter (· ∉ targets)
  ensure (newSet ≠ []) (.pallet .vectorEmpty)
  nominate s who newSet c weightAndFee

def redelegate (s : State cfg) (who : MultiLocation AccountId)
    (targets : Option (List (MultiLocation AccountId))) (c : CurrencyId)
    (weightAndFee : Option (ℕ × ℕ)) : Except Fault (ℕ × State cfg) := do
  let targets ← okOr targets (.pallet .validatorSetNotExist)
  delegate s who targets c weightAndFee

def payout (s : State cfg) (who validator : MultiLocation AccountId) (time : Option TimeUnit)
    (c : CurrencyId) (weightAndFee : Option (ℕ × ℕ)) : Except Fault (ℕ × State cfg) := do
  let validatorAccount ← multilocationToAccount validator
  match time with
  | some (.era payoutEra) => do
    ensureSupported c
    let s ← s.sendWithoutRecord .payout (.payoutStakers validatorAccount payoutEra) who c
      weightAndFee
    pure (0, s)
  | _ => .error (.pallet .invalidTimeUnit)

def liquidize (s : State cfg) (who : MultiLocation AccountId) (time : Option TimeUnit)
    (c : CurrencyId) (weightAndFee : Option (ℕ × ℕ)) : Except Fault (ℕ × State cfg) := do
  ensure (s.settings.delegatorsMultilocation2Index c who ≠ none) (.pallet .delegatorNotExist)
  match time with
  | some (.slashingSpan numSlashingSpans) => do
    ensureSupported c
    s.sendWithRecord .liquidize (.withdrawUnbonded numSlashingSpans) who c weightAndFee
      fun s queryId timeout => s.insertSubstrateEntry who .liquidize 0 queryId timeout c
  | _ => .error (.pallet .invalidTimeUnit)

def chill (s : State cfg) (who : MultiLocation AccountId) (c : CurrencyId)
    (weightAndFee : Option (ℕ × ℕ)) : Except Fault (ℕ × State cfg) := do
  ensure (s.settings.delegatorsMultilocation2Index c who ≠ none) (.pallet .delegatorNotExist)
  ensureSupported c
  s.sendWithRecord .chill .chill who c weightAndFee fun s queryId timeout => do
    let ledger ← s.bondedLedger c who
    let ledger ← ledger.asSubstrate
    s.insertSubstrateEntry who .unlock ledger.active queryId timeout c

def transferBack (s : State cfg) (source : MultiLocation AccountId) (amount : ℕ) (c : CurrencyId)
    (weightAndFee : Option (ℕ × ℕ)) : Except Fault (State cfg) := do
  ensure (amount ≠ 0) (.pallet .amountZero)
  ensure (s.settings.delegatorsMultilocation2Index c source ≠ none) (.pallet .delegatorNotExist)
  let _ ← okOr (cfg.getOperationWeightAndFee s.outside c .transferBack)
    (.pallet .weightAndFeeNotExists)
  ensureSupported c
  s.sendWithoutRecord .transferBack (.transfer cfg.minting.entranceAccount amount) source c
    weightAndFee

/-- `tune_vtoken_exchange_rate` of the agents with a substrate ledger. -/
def tuneVtokenExchangeRate (s : State cfg) (who : Option (MultiLocation AccountId))
    (poolValue delegatorValue : ℕ) (c : CurrencyId) : Except Fault (State cfg) := do
  let who ← okOr who (.pallet .delegatorNotExist)
  let s ← s.tuneVtokenExchangeRateWithoutUpdateLedger who poolValue c
  let s ← s.mutateSubstrate c who fun ledger => ledger.bond delegatorValue
  s.handleHyperbridgeOracle c

/-- `remove_delegator` of the agents with a substrate ledger. -/
def removeDelegator (s : State cfg) (who : MultiLocation AccountId) (c : CurrencyId) :
    Except Fault (State cfg) := do
  let ledger ← s.bondedLedger c who
  let ledger ← ledger.asSubstrate
  ensure (ledger.total = 0) (.pallet .amountNotZero)
  s.innerRemoveDelegator who c

def updateLedgerQueryResponseStorage (s : State cfg) (queryId : ℕ)
    (entry : LedgerUpdateEntry AccountId) (c : CurrencyId) : Except Fault (State cfg) :=
  match entry with
  | .substrate entry => do
    let s ← s.mutateSubstrate c entry.delegatorId fun ledger => ledger.update entry
    pure (s.setLedgerQuery queryId none)
  | _ => .error (.pallet .unexpected)

def checkDelegatorLedgerQueryResponse (s : State cfg) (queryId : ℕ)
    (entry : LedgerUpdateEntry AccountId) (c : CurrencyId) : Except Fault (State cfg) := do
  let s ← updateLedgerQueryResponseStorage s queryId entry c
  pure (s.depositEvent (.delegatorLedgerQueryResponseConfirmed queryId entry))

def checkValidatorsByDelegatorQueryResponse (s : State cfg) (queryId : ℕ)
    (entry : ValidatorsByDelegatorUpdateEntry AccountId) : Except Fault (State cfg) := do
  ensure (entry.validators.length ≤ cfg.maxLengthLimit) (.pallet .exceedMaxLengthLimit)
  let s := s.setValidatorsByDelegator entry.currencyId entry.delegatorId entry.validators
  let s := s.setValidatorsQuery queryId none
  pure (s.depositEvent (.validatorsByDelegatorQueryResponseConfirmed queryId entry))

def failValidatorsByDelegatorQueryResponse (s : State cfg) (queryId : ℕ) :
    Except Fault (State cfg) :=
  let s := s.setValidatorsQuery queryId none
  pure (s.depositEvent (.validatorsByDelegatorQueryResponseFailed queryId))

end PolkadotAgent

end Bifrost.Slp
