import Bifrost.Slp.PolkadotAgent

/-!
# The agent for BNC, Moonriver, Moonbeam and Manta

A delegator has one ledger over all its validators. BNC is staked on the chain itself, so its
calls change the ledger at once; on the other chains the ledger changes when the response is
confirmed. The changes are the same.
-/

namespace Bifrost.Slp

open Result
set_option autoImplicit false

variable {AccountId : Type} [DecidableEq AccountId] {cfg : Config AccountId}

namespace OneToManyLedger

def empty (account : MultiLocation AccountId) : OneToManyLedger AccountId where
  account := account
  delegations := ∅
  total := 0
  lessTotal := 0
  requests := []
  requestBriefs := ∅
  status := .active

variable (ledger : OneToManyLedger AccountId)

/-- First bond and bond more. -/
def bond (validator : MultiLocation AccountId) (amount : ℕ) :
    Except Fault (OneToManyLedger AccountId) := do
  ensure (ledger.status = .active) (.pallet .delegatorLeaving)
  let total ← okOr (U128.checkedAdd ledger.total amount) (.pallet .overFlow)
  let originalAmount := (ledger.delegations.get validator).getD 0
  let newAmount ← okOr (U128.checkedAdd originalAmount amount) (.pallet .overFlow)
  pure { ledger with
    total := total
    delegations := ledger.delegations.write validator (some newAmount) }

/-- A request in `requests` and `request_briefs`. -/
def addRequest (validator : MultiLocation AccountId) (time : TimeUnit)
    (action : OneToManyDelegationAction) (amount : ℕ) : OneToManyLedger AccountId :=
  { ledger with
    requests := ledger.requests ++ [⟨validator, time, action⟩]
    requestBriefs := ledger.requestBriefs.write validator (some (time, amount)) }

def bondLess (validator : MultiLocation AccountId) (amount : ℕ)
    (unlockTime : Except Fault TimeUnit) : Except Fault (OneToManyLedger AccountId) := do
  ensure (ledger.status = .active) (.pallet .delegatorLeaving)
  let lessTotal ← okOr (U128.checkedAdd ledger.lessTotal amount) (.pallet .overFlow)
  let unlockTime ← unlockTime
  pure ({ ledger with lessTotal := lessTotal }.addRequest validator unlockTime (.decrease amount)
    amount)

def revoke (validator : MultiLocation AccountId) (unlockTime : Except Fault TimeUnit) :
    Except Fault (OneToManyLedger AccountId) := do
  ensure (ledger.status = .active) (.pallet .delegatorLeaving)
  let revokeAmount ← okOr (ledger.delegations.get validator) (.pallet .unexpected)
  let lessTotal ← okOr (U128.checkedAdd ledger.lessTotal revokeAmount) (.pallet .overFlow)
  let unlockTime ← unlockTime
  pure ({ ledger with lessTotal := lessTotal }.addRequest validator unlockTime
    (.revoke revokeAmount) revokeAmount)

/-- The first request for the validator is taken out of the list. -/
def removeRequest (validator : MultiLocation AccountId) (e : Error) :
    Except Fault (List (OneToManyScheduledRequest AccountId)) := do
  ensure (∃ r ∈ ledger.requests, r.validator = validator) (.pallet e)
  pure (ledger.requests.eraseP (·.validator = validator))

def cancelRequest (validator : MultiLocation AccountId) :
    Except Fault (OneToManyLedger AccountId) := do
  ensure (ledger.status = .active) (.pallet .delegatorLeaving)
  let (_, cancelAmount) ← okOr (ledger.requestBriefs.get validator) (.pallet .unexpected)
  let lessTotal ← okOr (U128.checkedSub ledger.lessTotal cancelAmount) (.pallet .underFlow)
  let requests ← ledger.removeRequest validator .unexpected
  pure { ledger with
    lessTotal := lessTotal
    requests := requests
    requestBriefs := ledger.requestBriefs.write validator none }

/-- Leaving revokes every delegation. -/
def leave (unlockTime : Except Fault TimeUnit) : Except Fault (OneToManyLedger AccountId) := do
  ensure (ledger.status = .active) (.pallet .delegatorAlreadyLeaving)
  let unlockTime ← unlockTime
  pure { ledger with
    lessTotal := ledger.total
    status := .leaving unlockTime
    requests := ledger.delegations.entries.map fun (validator, amount) =>
      ⟨validator, unlockTime, .revoke amount⟩
    -- the loop fills the old map, and the map that is stored has stayed empty
    requestBriefs := ∅ }

def cancelLeave : Except Fault (OneToManyLedger AccountId) := do
  ensure (ledger.status ≠ .active) (.pallet .delegatorNotLeaving)
  pure { ledger with
    lessTotal := 0
    status := .active
    requests := []
    requestBriefs := ∅ }

def executeLeave (currentTime : Except Fault TimeUnit) :
    Except Fault (OneToManyLedger AccountId) :=
  match ledger.status with
  | .leaving (.round scheduledTime) => do
    let currentTime ← currentTime
    match currentTime with
    | .round currentTime => do
      ensure (scheduledTime ≤ currentTime) (.pallet .leavingNotDue)
      pure (empty ledger.account)
    | _ => .error (.pallet .invalidTimeUnit)
  | .leaving _ => .error (.pallet .invalidTimeUnit)
  | .active => .error (.pallet .delegatorNotLeaving)

def round : TimeUnit → Except Fault ℕ
  | .round n => pure n
  | _ => .error (.pallet .invalidTimeUnit)

def executeRequest (validator : MultiLocation AccountId) (executeTime : Except Fault TimeUnit) :
    Except Fault (OneToManyLedger AccountId) := do
  ensure (ledger.status = .active) (.pallet .delegatorLeaving)
  let executeTime ← executeTime
  let executeRound ← round executeTime
  let (requestTime, executeAmount) ← okOr (ledger.requestBriefs.get validator)
    (.pallet .requestNotExist)
  let requestRound ← round requestTime
  ensure (requestRound ≤ executeRound) (.pallet .requestNotDue)
  let total ← okOr (U128.checkedSub ledger.total executeAmount) (.pallet .underFlow)
  let lessTotal ← okOr (U128.checkedSub ledger.lessTotal executeAmount) (.pallet .underFlow)
  let requests ← ledger.removeRequest validator .requestNotExist
  let oldDelegateAmount ← okOr (ledger.delegations.get validator) (.pallet .validatorNotBonded)
  let newDelegateAmount ← okOr (U128.checkedSub oldDelegateAmount executeAmount)
    (.pallet .underFlow)
  pure { ledger with
    total := total
    lessTotal := lessTotal
    requests := requests
    requestBriefs := ledger.requestBriefs.write validator none
    delegations := ledger.delegations.write validator
      (if newDelegateAmount = 0 then none else some newDelegateAmount) }

def update (entry : ParachainStakingLedgerUpdateEntry AccountId) :
    Except Fault (OneToManyLedger AccountId) :=
  let validator := okOr entry.validatorId (.pallet .validatorError)
  let unlockTime := okOr entry.unlockTime (.pallet .timeUnitNotExist)
  match entry.updateOperation with
  | .bond => do ledger.bond (← validator) entry.amount
  | .bondLess => do ledger.bondLess (← validator) entry.amount unlockTime
  | .revoke => do ledger.revoke (← validator) unlockTime
  | .cancelRequest => do ledger.cancelRequest (← validator)
  | .leaveDelegator => ledger.leave unlockTime
  | .cancelLeave => ledger.cancelLeave
  | .executeLeave => ledger.executeLeave unlockTime
  | .executeRequest => do
    ledger.executeRequest (← validator) (okOr entry.unlockTime (.pallet .invalidTimeUnit))

end OneToManyLedger

def State.parachainStakingUnlockTime (s : State cfg) (c : CurrencyId) :
    ParachainStakingLedgerUpdateOperation → Except Fault (Option TimeUnit)
  | .bondLess | .revoke => some <$> s.getUnlockingTimeUnitFromCurrent false c
  | .leaveDelegator => some <$> s.getUnlockingTimeUnitFromCurrent true c
  | .executeRequest | .executeLeave => pure (s.getOngoingTimeUnit c)
  | _ => pure none

/-- `insert_delegator_ledger_update_entry` of `common.rs`. -/
def State.insertParachainStakingEntry (s : State cfg) (who : MultiLocation AccountId)
    (validator : Option (MultiLocation AccountId))
    (operation : ParachainStakingLedgerUpdateOperation) (amount queryId timeout : ℕ)
    (c : CurrencyId) : Except Fault (State cfg) := do
  let unlockTime ← s.parachainStakingUnlockTime c operation
  pure (s.setLedgerQuery queryId
    (some (.parachainStaking ⟨c, who, validator, operation, amount, unlockTime⟩, timeout)))

namespace ParachainStakingAgent

/-- The account the remote call names: of 20 bytes on the Moonbeam chains, of 32 on Manta. -/
def remoteAccount (c : CurrencyId) (location : MultiLocation AccountId) :
    Except Fault (AccountId ⊕ ℕ) :=
  if c = movr ∨ c = glmr then .inr <$> multilocationToH160Account location
  else if c = manta then .inl <$> multilocationToAccount location
  else .error (.pallet .unsupported)

/-- A call of the parachain-staking pallet of this chain. -/
def nativeStaking (s : State cfg) (call : NativeStaking AccountId) : Except Fault (State cfg) := do
  let outside ← mapErr (cfg.parachainStaking s.outside call) fun _ => Fault.pallet .unexpected
  pure (s.withOutside outside)

/-- How a call for BNC ends: the ledger changes at once. -/
def mutateAtOnce (s : State cfg) (who : MultiLocation AccountId) (c : CurrencyId)
    (f : OneToManyLedger AccountId → Except Fault (OneToManyLedger AccountId)) :
    Except Fault (ℕ × State cfg) := do
  let s ← s.mutateOneToMany c who f
  let s ← s.updateAllOccupiedStatusStorage c
  pure (0, s)

def checkBond (minsMaxs : MinimumsMaximums) (ledger : OneToManyLedger AccountId) (amount : ℕ) :
    Except Fault PUnit := do
  let activeAmount ← okOr (U128.checkedSub ledger.total ledger.lessTotal) (.pallet .underFlow)
  let addTotal ← okOr (U128.checkedAdd activeAmount amount) (.pallet .overFlow)
  ensure (addTotal ≤ minsMaxs.delegatorActiveStakingMaximum) (.pallet .exceedActiveMaximum)

/-- A known delegator is checked, a new one gets an empty ledger. -/
def checkOrOpen (s : State cfg) (who collator : MultiLocation AccountId) (amount : ℕ)
    (c : CurrencyId) (minsMaxs : MinimumsMaximums) : Except Fault (State cfg) :=
  match s.getLedger c who with
  | some (.parachainStaking ledger) => do
    ensure (ledger.status = .active) (.pallet .delegatorLeaving)
    checkBond minsMaxs ledger amount
    ensure ((ledger.delegations.get collator).isNone) (.pallet .alreadyBonded)
    ensure (ledger.delegations.entries.length + 1 ≤ minsMaxs.validatorsBackMaximum)
      (.pallet .greaterThanMaximum)
    pure s
  | _ => do
    ensure (minsMaxs.delegatorBondedMinimum ≤ amount) (.pallet .lowerThanMinimum)
    ensure (amount ≤ minsMaxs.delegatorActiveStakingMaximum) (.pallet .exceedActiveMaximum)
    pure (s.setLedger c who (some (.parachainStaking (.empty who))))

def bond (s : State cfg) (who : MultiLocation AccountId) (amount : ℕ)
    (validator : Option (MultiLocation AccountId)) (c : CurrencyId)
    (weightAndFee : Option (ℕ × ℕ)) : Except Fault (ℕ × State cfg) := do
  let collator ← okOr validator (.pallet .validatorNotProvided)
  let minsMaxs ← s.getMinimumsAndMaximums c
  ensure (minsMaxs.delegationAmountMinimum ≤ amount) (.pallet .lowerThanMinimum)
  let validatorList ← okOr (s.settings.validators c) (.pallet .validatorSetNotExist)
  ensure (collator ∈ validatorList) (.pallet .validatorNotExist)
  let s ← checkOrOpen s who collator amount c minsMaxs
  if c = bnc then do
    let validatorAccount ← multilocationToAccount collator
    let delegatorAccount ← multilocationToAccount who
    let (delegationCount, candidateDelegationCount) :=
      cfg.getDelegationCount s.outside delegatorAccount validatorAccount
    let s ← nativeStaking s
      (.delegate delegatorAccount validatorAccount amount candidateDelegationCount delegationCount)
    mutateAtOnce s who c fun ledger => ledger.bond collator amount
  else do
    let candidateDelegationCount ← okOr (U32.checkedAdd minsMaxs.validatorsRewardMaximum
      (minsMaxs.validatorsRewardMaximum / 3)) (.pallet .overFlow)
    let account ← remoteAccount c collator
    let call := .delegate account amount candidateDelegationCount minsMaxs.validatorsBackMaximum
    s.sendWithRecord .bond call who c weightAndFee fun s queryId timeout =>
      s.insertParachainStakingEntry who (some collator) .bond amount queryId timeout c

def bondExtra (s : State cfg) (who : MultiLocation AccountId) (amount : ℕ)
    (validator : Option (MultiLocation AccountId)) (c : CurrencyId)
    (weightAndFee : Option (ℕ × ℕ)) : Except Fault (ℕ × State cfg) := do
  let minsMaxs ← s.getMinimumsAndMaximums c
  ensure (minsMaxs.bondExtraMinimum ≤ amount) (.pallet .lowerThanMinimum)
  let collator ← okOr validator (.pallet .validatorNotProvided)
  let validators ← okOr (s.settings.validators c) (.pallet .validatorSetNotExist)
  ensure (collator ∈ validators) (.pallet .validatorError)
  let ledger ← s.oneToManyLedger c who .delegatorNotExist
  ensure (ledger.status = .active) (.pallet .delegatorLeaving)
  ensure ((ledger.delegations.get collator).isSome) (.pallet .validatorNotBonded)
  checkBond minsMaxs ledger amount
  if c = bnc then do
    let validatorAccount ← multilocationToAccount collator
    let delegatorAccount ← multilocationToAccount who
    let s ← nativeStaking s (.delegatorBondMore delegatorAccount validatorAccount amount)
    mutateAtOnce s who c fun ledger => ledger.bond collator amount
  else do
    let account ← remoteAccount c collator
    s.sendWithRecord .bondExtra (.delegatorBondMore account amount) who c weightAndFee
      fun s queryId timeout =>
        s.insertParachainStakingEntry who (some collator) .bond amount queryId timeout c

def unbond (s : State cfg) (who : MultiLocation AccountId) (amount : ℕ)
    (validator : Option (MultiLocation AccountId)) (c : CurrencyId)
    (weightAndFee : Option (ℕ × ℕ)) : Except Fault (ℕ × State cfg) := do
  let minsMaxs ← s.getMinimumsAndMaximums c
  ensure (minsMaxs.unbondMinimum ≤ amount) (.pallet .lowerThanMinimum)
  let collator ← okOr validator (.pallet .validatorNotProvided)
  let ledger ← s.oneToManyLedger c who .delegatorNotExist
  ensure (ledger.status = .active) (.pallet .delegatorLeaving)
  let oldDelegateAmount ← okOr (ledger.delegations.get collator) (.pallet .validatorNotBonded)
  ensure ((ledger.requestBriefs.get collator).isNone) (.pallet .alreadyRequested)
  let delegatedAmountAfter ← okOr (U128.checkedSub oldDelegateAmount amount) (.pallet .underFlow)
  ensure (minsMaxs.delegationAmountMinimum ≤ delegatedAmountAfter) (.pallet .lowerThanMinimum)
  let activeAmount ← okOr (U128.checkedSub ledger.total ledger.lessTotal) (.pallet .underFlow)
  let subtractedTotal ← okOr (U128.checkedSub activeAmount amount) (.pallet .underFlow)
  ensure (minsMaxs.delegatorBondedMinimum ≤ subtractedTotal) (.pallet .lowerThanMinimum)
  if c = bnc then do
    let validatorAccount ← multilocationToAccount collator
    let delegatorAccount ← multilocationToAccount who
    let s ← nativeStaking s (.scheduleDelegatorBondLess delegatorAccount validatorAccount amount)
    mutateAtOnce s who c fun ledger =>
      ledger.bondLess collator amount (s.getUnlockingTimeUnitFromCurrent false c)
  else do
    let account ← remoteAccount c collator
    s.sendWithRecord .unbond (.scheduleDelegatorBondLess account amount) who c weightAndFee
      fun s queryId timeout =>
        s.insertParachainStakingEntry who (some collator) .bondLess amount queryId timeout c

def unbondAll (s : State cfg) (who : MultiLocation AccountId) (c : CurrencyId) :
    Except Fault (ℕ × State cfg) := do
  ensure (c = bnc) (.pallet .unsupported)
  let ledger ← s.oneToManyLedger c who .delegatorNotExist
  ensure (ledger.status = .active) (.pallet .alreadyLeaving)
  let delegatorAccount ← multilocationToAccount who
  let s ← nativeStaking s (.scheduleLeaveDelegators delegatorAccount)
  mutateAtOnce s who c fun ledger => ledger.leave (s.getUnlockingTimeUnitFromCurrent false c)

def rebond (s : State cfg) (who : MultiLocation AccountId)
    (validator : Option (MultiLocation AccountId)) (c : CurrencyId)
    (weightAndFee : Option (ℕ × ℕ)) : Except Fault (ℕ × State cfg) := do
  let minsMaxs ← s.getMinimumsAndMaximums c
  let collator ← okOr validator (.pallet .validatorNotProvided)
  let ledger ← s.oneToManyLedger c who .delegatorNotExist
  ensure (ledger.status = .active) (.pallet .delegatorLeaving)
  let (_, rebondAmount) ← okOr (ledger.requestBriefs.get collator) (.pallet .requestNotExist)
  let active ← okOr (U128.checkedSub ledger.total ledger.lessTotal) (.pallet .underFlow)
  let rebondAfterAmount ← okOr (U128.checkedAdd active rebondAmount) (.pallet .overFlow)
  ensure (minsMaxs.delegatorBondedMinimum ≤ rebondAfterAmount) (.pallet .lowerThanMinimum)
  if c = bnc then do
    let validatorAccount ← multilocationToAccount collator
    let delegatorAccount ← multilocationToAccount who
    let s ← nativeStaking s (.cancelDelegationRequest delegatorAccount validatorAccount)
    mutateAtOnce s who c fun ledger => ledger.cancelRequest collator
  else do
    let account ← remoteAccount c collator
    s.sendWithRecord .rebond (.cancelDelegationRequest account) who c weightAndFee
      fun s queryId timeout =>
        s.insertParachainStakingEntry who (some collator) .cancelRequest 0 queryId timeout c

def undelegate (s : State cfg) (who : MultiLocation AccountId)
    (targets : List (MultiLocation AccountId)) (c : CurrencyId) (weightAndFee : Option (ℕ × ℕ)) :
    Except Fault (ℕ × State cfg) := do
  let validator ← okOr targets.head? (.pallet .validatorNotProvided)
  let ledger ← s.oneToManyLedger c who .delegatorNotExist
  ensure (ledger.status = .active) (.pallet .delegatorLeaving)
  ensure ((ledger.delegations.get validator).isSome) (.pallet .validatorNotBonded)
  ensure ((ledger.requestBriefs.get validator).isNone) (.pallet .alreadyRequested)
  if c = bnc then do
    let validatorAccount ← multilocationToAccount validator
    let delegatorAccount ← multilocationToAccount who
    let s ← nativeStaking s (.scheduleRevokeDelegation delegatorAccount validatorAccount)
    mutateAtOnce s who c fun ledger =>
      ledger.revoke validator (s.getUnlockingTimeUnitFromCurrent false c)
  else do
    let account ← remoteAccount c validator
    s.sendWithRecord .undelegate (.scheduleRevokeDelegation account) who c weightAndFee
      fun s queryId timeout =>
        s.insertParachainStakingEntry who (some validator) .revoke 0 queryId timeout c

/-- Cancels leaving. -/
def redelegate (s : State cfg) (who : MultiLocation AccountId) (c : CurrencyId) :
    Except Fault (ℕ × State cfg) := do
  ensure (c = bnc) (.pallet .unsupported)
  let ledger ← s.oneToManyLedger c who .delegatorNotExist
  ensure (ledger.status ≠ .active) (.pallet .delegatorNotLeaving)
  let delegatorAccount ← multilocationToAccount who
  let s ← nativeStaking s (.cancelLeaveDelegators delegatorAccount)
  mutateAtOnce s who c fun ledger => ledger.cancelLeave

/-- The first half of `liquidize`: whether the delegator leaves, and the amount of the request
that is due otherwise. -/
def dueRequest (now : TimeUnit) (ledger : OneToManyLedger AccountId)
    (collator : MultiLocation AccountId) : Except Fault (Bool × ℕ) :=
  match ledger.status with
  | .leaving leavingTime => do
    ensure (now.cmp leavingTime ≠ .lt) (.pallet .leavingNotDue)
    pure (true, 0)
  | .active => do
    ensure ((ledger.delegations.get collator).isSome) (.pallet .validatorNotBonded)
    let (dueTime, dueAmount) ← okOr (ledger.requestBriefs.get collator) (.pallet .requestNotExist)
    ensure (now.cmp dueTime ≠ .lt) (.pallet .requestNotDue)
    pure (false, dueAmount)

def liquidize (s : State cfg) (who : MultiLocation AccountId)
    (validator : Option (MultiLocation AccountId)) (c : CurrencyId)
    (weightAndFee : Option (ℕ × ℕ)) : Except Fault (ℕ × State cfg) := do
  let collator ← okOr validator (.pallet .validatorNotProvided)
  let now ← okOr (s.getOngoingTimeUnit c) (.pallet .timeUnitNotExist)
  let ledger ← s.oneToManyLedger c who .delegatorNotExist
  let (leaving, dueAmount) ← dueRequest now ledger collator
  if c = bnc then do
    let validatorAccount ← multilocationToAccount collator
    let delegatorAccount ← multilocationToAccount who
    let minsMaxs ← s.getMinimumsAndMaximums c
    if leaving then do
      let s ← nativeStaking s
        (.executeLeaveDelegators delegatorAccount minsMaxs.validatorsBackMaximum)
      mutateAtOnce s who c fun ledger =>
        ledger.executeLeave (s.getUnlockingTimeUnitFromCurrent false c)
    else do
      let s ← nativeStaking s (.executeDelegationRequest delegatorAccount validatorAccount)
      mutateAtOnce s who c fun ledger =>
        ledger.executeRequest collator (s.getUnlockingTimeUnitFromCurrent false c)
  else do
    let delegator ← remoteAccount c who
    let account ← remoteAccount c collator
    let operation : ParachainStakingLedgerUpdateOperation :=
      if leaving then .executeLeave else .executeRequest
    s.sendWithRecord .liquidize (.executeDelegationRequest delegator account) who c weightAndFee
      fun s queryId timeout =>
        s.insertParachainStakingEntry who (some collator) operation dueAmount queryId timeout c

def transferBack (s : State cfg) (source : MultiLocation AccountId) (amount : ℕ) (c : CurrencyId)
    (weightAndFee : Option (ℕ × ℕ)) : Except Fault (State cfg) := do
  ensure (amount ≠ 0) (.pallet .amountZero)
  ensure (s.settings.delegatorsMultilocation2Index c source ≠ none) (.pallet .delegatorNotExist)
  if c = bnc then do
    let sourceAccount ← multilocationToAccount source
    let outside ← mapErr (cfg.minting.currency.transfer s.outside c sourceAccount
      cfg.minting.entranceAccount amount) fun _ => Fault.pallet .unexpected
    pure (s.withOutside outside)
  else do
    ensure (c = movr ∨ c = glmr ∨ c = manta) (.pallet .unsupported)
    s.sendWithoutRecord .transferBack (.transfer cfg.minting.entranceAccount amount) source c
      weightAndFee

def transferTo (s : State cfg) (source dest : MultiLocation AccountId) (amount : ℕ)
    (c : CurrencyId) : Except Fault (State cfg) :=
  if c = bnc then do
    ensure (s.settings.delegatorsMultilocation2Index c dest ≠ none) (.pallet .delegatorNotExist)
    let sourceAccount ← multilocationToAccount source
    ensure (sourceAccount = cfg.minting.entranceAccount) (.pallet .invalidAccount)
    let destAccount ← multilocationToAccount dest
    let outside ← mapErr (cfg.minting.currency.transfer s.outside c sourceAccount destAccount
      amount) fun _ => Fault.pallet .unexpected
    pure (s.withOutside outside)
  else s.supplementAndTransferTo source dest amount c

def tuneVtokenExchangeRate (s : State cfg) (poolValue : ℕ) (c : CurrencyId) :
    Except Fault (State cfg) := do
  ensure (poolValue ≠ 0) (.pallet .amountZero)
  let s ← s.increaseTokenPool c poolValue
  s.handleHyperbridgeOracle c

def removeDelegator (s : State cfg) (who : MultiLocation AccountId) (c : CurrencyId) :
    Except Fault (State cfg) := do
  let ledger ← s.bondedLedger c who
  match ledger with
  | .parachainStaking ledger => do
    ensure (ledger.total = 0) (.pallet .amountNotZero)
    s.innerRemoveDelegator who c
  | _ => .error (.pallet .unexpected)

def updateLedgerQueryResponseStorage (s : State cfg) (queryId : ℕ)
    (entry : LedgerUpdateEntry AccountId) (c : CurrencyId) : Except Fault (State cfg) :=
  match entry with
  | .parachainStaking entry => do
    let s ← s.mutateOneToMany c entry.delegatorId fun ledger => ledger.update entry
    pure (s.setLedgerQuery queryId none)
  | _ => .error (.pallet .unexpected)

def checkDelegatorLedgerQueryResponse (s : State cfg) (queryId : ℕ)
    (entry : LedgerUpdateEntry AccountId) (c : CurrencyId) : Except Fault (State cfg) := do
  ensure (c ≠ bnc) (.pallet .unsupported)
  let s ← updateLedgerQueryResponseStorage s queryId entry c
  let s ← s.updateAllOccupiedStatusStorage c
  pure (s.depositEvent (.delegatorLedgerQueryResponseConfirmed queryId entry))

end ParachainStakingAgent

end Bifrost.Slp
