import Bifrost.Slp.AstarAgent
import Bifrost.Slp.ParachainStakingAgent
import Bifrost.Slp.PhalaAgent

/-!
# The calls of the slp pallet

Each call checks its origin against the currency it names and goes to the agent of that currency.
The four calls that answer a query are different: the agent is that of the currency the stored
entry names.
-/

namespace Bifrost.Slp

open Result
set_option autoImplicit false

variable {AccountId : Type} [DecidableEq AccountId] {cfg : Config AccountId}

inductive Agent where
  | polkadot | parachainStaking | phala | astar
deriving DecidableEq, Repr

def getCurrencyStakingAgent (c : CurrencyId) : Except Fault Agent :=
  if c = ksm ∨ c = dot then pure .polkadot
  else if c = bnc ∨ c = movr ∨ c = glmr ∨ c = manta then pure .parachainStaking
  else if c = pha then pure .phala
  else if c = astr then pure .astar
  else .error (.pallet .notSupportedCurrencyId)

/-- `control` is any origin that `ControlOrigin` accepts, a response comes from `pallet_xcm`. -/
inductive Origin (AccountId : Type) where
  | signed (who : AccountId)
  | control
  | response
deriving DecidableEq

def State.ensureAuthorized (s : State cfg) (c : CurrencyId) : Origin AccountId → Except Fault PUnit
  | .signed who => ensure (s.settings.operateOrigins c = some who) (.pallet .notAuthorized)
  | .control => pure ⟨⟩
  | .response => .error (.pallet .notAuthorized)

def Origin.isSigned : Origin AccountId → Bool
  | .signed _ => true
  | .control | .response => false

/-- What a call does on its currency, by the agent of the currency. -/
inductive Operation (AccountId : Type) where
  | bond (who : MultiLocation AccountId) (amount : ℕ) (validator : Option (MultiLocation AccountId))
      (weightAndFee : Option (ℕ × ℕ))
  | bondExtra (who : MultiLocation AccountId) (validator : Option (MultiLocation AccountId))
      (amount : ℕ) (weightAndFee : Option (ℕ × ℕ))
  | unbond (who : MultiLocation AccountId) (validator : Option (MultiLocation AccountId))
      (amount : ℕ) (weightAndFee : Option (ℕ × ℕ))
  | unbondAll (who : MultiLocation AccountId) (weightAndFee : Option (ℕ × ℕ))
  | rebond (who : MultiLocation AccountId) (validator : Option (MultiLocation AccountId))
      (amount : Option ℕ) (weightAndFee : Option (ℕ × ℕ))
  | delegate (who : MultiLocation AccountId) (targets : List (MultiLocation AccountId))
      (weightAndFee : Option (ℕ × ℕ))
  | undelegate (who : MultiLocation AccountId) (targets : List (MultiLocation AccountId))
      (weightAndFee : Option (ℕ × ℕ))
  | redelegate (who : MultiLocation AccountId) (targets : Option (List (MultiLocation AccountId)))
      (weightAndFee : Option (ℕ × ℕ))
  | payout (who validator : MultiLocation AccountId) (time : Option TimeUnit)
      (weightAndFee : Option (ℕ × ℕ))
  | liquidize (who : MultiLocation AccountId) (time : Option TimeUnit)
      (validator : Option (MultiLocation AccountId)) (amount : Option ℕ)
      (weightAndFee : Option (ℕ × ℕ))
  | chill (who : MultiLocation AccountId) (weightAndFee : Option (ℕ × ℕ))
  | transferBack (source dest : MultiLocation AccountId) (amount : ℕ)
      (weightAndFee : Option (ℕ × ℕ))
  | transferTo (source dest : MultiLocation AccountId) (amount : ℕ)
  | convertAsset (who : MultiLocation AccountId) (amount : ℕ) (ifFromCurrency : Bool)
      (weightAndFee : Option (ℕ × ℕ))

def queried (x : Except Fault (ℕ × State cfg)) (event : ℕ → Event AccountId) :
    Except Fault (State cfg) := do
  let (queryId, s) ← x
  pure (s.depositEvent (event queryId))

def reported (x : Except Fault (State cfg)) (event : Event AccountId) : Except Fault (State cfg) := do
  let s ← x
  pure (s.depositEvent event)

def unsupported {α : Type} : Except Fault α := .error (.pallet .unsupported)

def bond (s : State cfg) (c : CurrencyId) (who : MultiLocation AccountId) (amount : ℕ)
    (validator : Option (MultiLocation AccountId)) (wf : Option (ℕ × ℕ)) :
    Agent → Except Fault (ℕ × State cfg)
  | .polkadot => PolkadotAgent.bond s who amount c wf
  | .parachainStaking => ParachainStakingAgent.bond s who amount validator c wf
  | .phala => PhalaAgent.bond s who amount validator c wf
  | .astar => AstarAgent.bond s who amount validator c wf

def bondExtra (s : State cfg) (c : CurrencyId) (who : MultiLocation AccountId)
    (validator : Option (MultiLocation AccountId)) (amount : ℕ) (wf : Option (ℕ × ℕ)) :
    Agent → Except Fault (ℕ × State cfg)
  | .polkadot => PolkadotAgent.bondExtra s who amount c wf
  | .parachainStaking => ParachainStakingAgent.bondExtra s who amount validator c wf
  | .phala => PhalaAgent.bondExtra s who amount validator c wf
  | .astar => AstarAgent.bondExtra s who amount validator c wf

def unbond (s : State cfg) (c : CurrencyId) (who : MultiLocation AccountId)
    (validator : Option (MultiLocation AccountId)) (amount : ℕ) (wf : Option (ℕ × ℕ)) :
    Agent → Except Fault (ℕ × State cfg)
  | .polkadot => PolkadotAgent.unbond s who amount c wf
  | .parachainStaking => ParachainStakingAgent.unbond s who amount validator c wf
  | .phala => PhalaAgent.unbond s who amount validator c wf
  | .astar => AstarAgent.unbond s who amount validator c wf

def unbondAll (s : State cfg) (c : CurrencyId) (who : MultiLocation AccountId)
    (wf : Option (ℕ × ℕ)) : Agent → Except Fault (ℕ × State cfg)
  | .polkadot => PolkadotAgent.unbondAll s who c wf
  | .parachainStaking => ParachainStakingAgent.unbondAll s who c
  | .phala | .astar => unsupported

def rebond (s : State cfg) (c : CurrencyId) (who : MultiLocation AccountId)
    (validator : Option (MultiLocation AccountId)) (amount : Option ℕ) (wf : Option (ℕ × ℕ)) :
    Agent → Except Fault (ℕ × State cfg)
  | .polkadot => PolkadotAgent.rebond s who amount c wf
  | .parachainStaking => ParachainStakingAgent.rebond s who validator c wf
  | .phala => PhalaAgent.rebond s who amount validator c wf
  | .astar => .error (.pallet .unexpected)

def delegate (s : State cfg) (c : CurrencyId) (who : MultiLocation AccountId)
    (targets : List (MultiLocation AccountId)) (wf : Option (ℕ × ℕ)) :
    Agent → Except Fault (ℕ × State cfg)
  | .polkadot => PolkadotAgent.delegate s who targets c wf
  | .phala => PhalaAgent.delegate s who targets c
  | .parachainStaking | .astar => unsupported

def undelegate (s : State cfg) (c : CurrencyId) (who : MultiLocation AccountId)
    (targets : List (MultiLocation AccountId)) (wf : Option (ℕ × ℕ)) :
    Agent → Except Fault (ℕ × State cfg)
  | .polkadot => PolkadotAgent.undelegate s who targets c wf
  | .parachainStaking => ParachainStakingAgent.undelegate s who targets c wf
  | .phala => PhalaAgent.undelegate s who c
  | .astar => unsupported

def redelegate (s : State cfg) (c : CurrencyId) (who : MultiLocation AccountId)
    (targets : Option (List (MultiLocation AccountId))) (wf : Option (ℕ × ℕ)) :
    Agent → Except Fault (ℕ × State cfg)
  | .polkadot => PolkadotAgent.redelegate s who targets c wf
  | .parachainStaking => ParachainStakingAgent.redelegate s who c
  | .phala => PhalaAgent.redelegate s who targets c
  | .astar => unsupported

def payout (s : State cfg) (c : CurrencyId) (who validator : MultiLocation AccountId)
    (time : Option TimeUnit) (wf : Option (ℕ × ℕ)) : Agent → Except Fault (ℕ × State cfg)
  | .polkadot => PolkadotAgent.payout s who validator time c wf
  | .parachainStaking => unsupported
  | .phala => PhalaAgent.payout s who c wf
  | .astar => AstarAgent.payout s who validator c wf

def liquidize (s : State cfg) (c : CurrencyId) (who : MultiLocation AccountId)
    (time : Option TimeUnit) (validator : Option (MultiLocation AccountId)) (amount : Option ℕ)
    (wf : Option (ℕ × ℕ)) : Agent → Except Fault (ℕ × State cfg)
  | .polkadot => PolkadotAgent.liquidize s who time c wf
  | .parachainStaking => ParachainStakingAgent.liquidize s who validator c wf
  | .phala => PhalaAgent.liquidize s who c amount
  | .astar => AstarAgent.liquidize s who c wf

def chill (s : State cfg) (c : CurrencyId) (who : MultiLocation AccountId) (wf : Option (ℕ × ℕ)) :
    Agent → Except Fault (ℕ × State cfg)
  | .polkadot => PolkadotAgent.chill s who c wf
  | .parachainStaking | .phala | .astar => unsupported

def transferBack (s : State cfg) (c : CurrencyId) (source dest : MultiLocation AccountId)
    (amount : ℕ) (wf : Option (ℕ × ℕ)) : Agent → Except Fault (State cfg)
  | .polkadot => PolkadotAgent.transferBack s source amount c wf
  | .parachainStaking => ParachainStakingAgent.transferBack s source amount c wf
  | .phala => PhalaAgent.transferBack s source dest amount c wf
  | .astar => AstarAgent.transferBack s source amount c wf

def transferTo (s : State cfg) (c : CurrencyId) (source dest : MultiLocation AccountId)
    (amount : ℕ) : Agent → Except Fault (State cfg)
  | .parachainStaking => ParachainStakingAgent.transferTo s source dest amount c
  | .polkadot | .phala | .astar => s.supplementAndTransferTo source dest amount c

def convertAsset (s : State cfg) (c : CurrencyId) (who : MultiLocation AccountId) (amount : ℕ)
    (ifFromCurrency : Bool) (wf : Option (ℕ × ℕ)) : Agent → Except Fault (ℕ × State cfg)
  | .phala => PhalaAgent.convertAsset s who amount c ifFromCurrency wf
  | .polkadot | .parachainStaking | .astar => unsupported

def operate (s : State cfg) (c : CurrencyId) (agent : Agent) :
    Operation AccountId → Except Fault (State cfg)
  | .bond who amount validator wf =>
    queried (bond s c who amount validator wf agent)
      fun id => .delegatorBonded c who amount id validator
  | .bondExtra who validator amount wf =>
    queried (bondExtra s c who validator amount wf agent)
      fun id => .delegatorBondExtra c who amount id validator
  | .unbond who validator amount wf =>
    queried (unbond s c who validator amount wf agent)
      fun id => .delegatorUnbond c who amount id validator
  | .unbondAll who wf =>
    queried (unbondAll s c who wf agent) fun id => .delegatorUnbondAll c who id
  | .rebond who validator amount wf =>
    queried (rebond s c who validator amount wf agent)
      fun id => .delegatorRebond c who amount id validator
  | .delegate who targets wf =>
    queried (delegate s c who targets wf agent) fun id => .delegated c who (some targets) id
  | .undelegate who targets wf =>
    queried (undelegate s c who targets wf agent) fun id => .undelegated c who targets id
  | .redelegate who targets wf =>
    queried (redelegate s c who targets wf agent) fun id => .delegated c who targets id
  | .payout who validator time wf =>
    queried (payout s c who validator time wf agent) fun _ => .payout c validator time
  | .liquidize who time validator amount wf =>
    queried (liquidize s c who time validator amount wf agent)
      fun id => .liquidize c who time id amount
  | .chill who wf => queried (chill s c who wf agent) fun id => .chill c who id
  | .transferBack source dest amount wf =>
    reported (transferBack s c source dest amount wf agent) (.transferBack c source dest amount)
  | .transferTo source dest amount =>
    reported (transferTo s c source dest amount agent) (.transferTo c source dest amount)
  | .convertAsset who amount ifFromCurrency wf =>
    queried (convertAsset s c who amount ifFromCurrency wf agent)
      fun _ => .convertAsset c who amount

/-! The answers to queries. -/

/-- The currency an entry names; the entries of the old Moonbeam ledgers are given up. -/
def LedgerUpdateEntry.currencyId : LedgerUpdateEntry AccountId → Except Fault CurrencyId
  | .substrate entry => pure entry.currencyId
  | .parachainStaking entry => pure entry.currencyId
  | .moonbeam _ => .error (.pallet .notSupportedCurrencyId)

def checkDelegatorLedgerQueryResponse (s : State cfg) (queryId : ℕ)
    (entry : LedgerUpdateEntry AccountId) (c : CurrencyId) : Agent → Except Fault (State cfg)
  | .polkadot => PolkadotAgent.checkDelegatorLedgerQueryResponse s queryId entry c
  | .parachainStaking => ParachainStakingAgent.checkDelegatorLedgerQueryResponse s queryId entry c
  | .phala => PhalaAgent.checkDelegatorLedgerQueryResponse s queryId entry c
  | .astar => AstarAgent.checkDelegatorLedgerQueryResponse s queryId entry c

/-- `fail_delegator_ledger_query_response`, the same in every agent. -/
def failDelegatorLedgerQueryResponse (s : State cfg) (queryId : ℕ) : State cfg :=
  (s.setLedgerQuery queryId none).depositEvent (.delegatorLedgerQueryResponseFailed queryId)

def doFailDelegatorLedgerQueryResponse (s : State cfg) (queryId : ℕ) :
    Except Fault (State cfg) := do
  let (entry, _) ← okOr (s.delegatorLedgerXcmUpdateQueue queryId) (.pallet .queryNotExist)
  let c ← entry.currencyId
  let _ ← getCurrencyStakingAgent c
  pure (failDelegatorLedgerQueryResponse s queryId)

def getLedgerUpdateAgentThenProcess (s : State cfg) (queryId : ℕ) : Except Fault (State cfg) := do
  let (entry, timeout) ← okOr (s.delegatorLedgerXcmUpdateQueue queryId) (.pallet .queryNotExist)
  if s.currentBlockNumber ≤ timeout then do
    let c ← entry.currencyId
    let agent ← getCurrencyStakingAgent c
    checkDelegatorLedgerQueryResponse s queryId entry c agent
  else doFailDelegatorLedgerQueryResponse s queryId

def checkValidatorsByDelegatorQueryResponse (s : State cfg) (queryId : ℕ)
    (entry : ValidatorsByDelegatorUpdateEntry AccountId) : Agent → Except Fault (State cfg)
  | .polkadot => PolkadotAgent.checkValidatorsByDelegatorQueryResponse s queryId entry
  | .parachainStaking | .phala | .astar => unsupported

def failValidatorsByDelegatorQueryResponse (s : State cfg) (queryId : ℕ) :
    Agent → Except Fault (State cfg)
  | .polkadot => PolkadotAgent.failValidatorsByDelegatorQueryResponse s queryId
  | .parachainStaking | .phala | .astar => unsupported

def doFailValidatorsByDelegatorQueryResponse (s : State cfg) (queryId : ℕ) :
    Except Fault (State cfg) := do
  let (entry, _) ← okOr (s.validatorsByDelegatorXcmUpdateQueue queryId) (.pallet .queryNotExist)
  let agent ← getCurrencyStakingAgent entry.currencyId
  failValidatorsByDelegatorQueryResponse s queryId agent

def getValidatorsByDelegatorUpdateAgentThenProcess (s : State cfg) (queryId : ℕ) :
    Except Fault (State cfg) := do
  let (entry, timeout) ← okOr (s.validatorsByDelegatorXcmUpdateQueue queryId)
    (.pallet .queryNotExist)
  if s.currentBlockNumber ≤ timeout then do
    let agent ← getCurrencyStakingAgent entry.currencyId
    checkValidatorsByDelegatorQueryResponse s queryId entry agent
  else doFailValidatorsByDelegatorQueryResponse s queryId

/-! The other calls. -/

def updateOngoingTimeUnit (s : State cfg) (c : CurrencyId) (timeUnit : TimeUnit) :
    Except Fault (State cfg) := do
  let interval ← okOr (s.settings.ongoingTimeUnitUpdateInterval c)
    (.pallet .ongoingTimeUnitUpdateIntervalNotExist)
  let lastUpdateBlock ← okOr (s.lastTimeUpdatedOngoingTimeUnit c)
    (.pallet .lastTimeUpdatedOngoingTimeUnitNotExist)
  ensure (lastUpdateBlock ≤ s.currentBlockNumber) (.pallet .underFlow)
  ensure (interval ≤ s.currentBlockNumber - lastUpdateBlock) (.pallet .tooFrequent)
  let old := s.getOngoingTimeUnit c
  ensure (∀ t, old = some t → t.cmp timeUnit = .lt) (.pallet .invalidTimeUnit)
  let minting := { s.minting with
    ongoingTimeUnit := s.minting.ongoingTimeUnit.write c (some timeUnit) }
  let updated := Function.update s.lastTimeUpdatedOngoingTimeUnit c (some s.currentBlockNumber)
  let s := { s with minting := minting, lastTimeUpdatedOngoingTimeUnit := updated }
  pure (s.depositEvent (.timeUnitUpdated c old timeUnit))

def hostingFeeVtoken (c : CurrencyId) : Agent → Except Fault CurrencyId
  | .polkadot | .parachainStaking => okOr c.toVtoken (.pallet .notSupportedCurrencyId)
  | .phala => pure (.vToken .PHA)
  | .astar => pure (.vToken2 3)

def chargeHostingFee (s : State cfg) (amount : ℕ) (beneficiary : MultiLocation AccountId)
    (c : CurrencyId) (agent : Agent) : Except Fault (State cfg) := do
  let vtoken ← hostingFeeVtoken c agent
  let chargeAmount ← s.innerCalculateVtokenHostingFee amount vtoken c
  s.innerChargeHostingFee chargeAmount beneficiary vtoken

def tuneVtokenExchangeRate (s : State cfg) (who : Option (MultiLocation AccountId))
    (poolValue delegatorValue : ℕ) (c : CurrencyId) : Agent → Except Fault (State cfg)
  | .polkadot | .astar => PolkadotAgent.tuneVtokenExchangeRate s who poolValue delegatorValue c
  | .parachainStaking => ParachainStakingAgent.tuneVtokenExchangeRate s poolValue c
  | .phala => PhalaAgent.tuneVtokenExchangeRate s who poolValue c

/-- How often the currency has been tuned in the time unit, with this time. -/
def newTuneNum (s : State cfg) (c : CurrencyId) (current : TimeUnit) (limitNum : ℕ) :
    Except Fault ℕ := do
  let (latest, tuneNum) := (s.currencyLatestTuneRecord c).getD (current, 0)
  ensure (latest ≠ current ∨ tuneNum < limitNum) (.pallet .greaterThanMaximum)
  okOr (U32.checkedAdd (if latest = current then tuneNum else 0) 1) (.pallet .overFlow)

def chargeHostFeeAndTuneVtokenExchangeRate (s : State cfg) (c : CurrencyId)
    (poolValue delegatorValue : ℕ) (who : Option (MultiLocation AccountId)) :
    Except Fault (State cfg) := do
  ensure (0 < poolValue) (.pallet .amountZero)
  ensure (0 < delegatorValue) (.pallet .amountZero)
  let (limitNum, maxPermill) ← okOr (s.settings.currencyTuneExchangeRateLimit c)
    (.pallet .tuneExchangeRateLimitNotSet)
  let maxToIncrease := maxPermill.mulFloor (s.getTokenPool c)
  ensure (poolValue ≤ maxToIncrease) (.pallet .greaterThanMaximum)
  ensure (delegatorValue ≤ maxToIncrease) (.pallet .greaterThanMaximum)
  let current ← okOr (s.getOngoingTimeUnit c) (.pallet .timeUnitNotExist)
  let tuneNum ← newTuneNum s c current limitNum
  let (feePermill, beneficiary) ← okOr (s.settings.hostingFees c) (.pallet .invalidHostingFee)
  let feeToCharge := feePermill.mulFloor poolValue
  let agent ← getCurrencyStakingAgent c
  let s ← chargeHostingFee s feeToCharge beneficiary c agent
  let s ← tuneVtokenExchangeRate s who poolValue delegatorValue c agent
  let records := Function.update s.currencyLatestTuneRecord c (some (current, tuneNum))
  let outside ← mapErr (cfg.recordHostingFee s.outside c feeToCharge) Fault.external
  let s := { s with currencyLatestTuneRecord := records }.withOutside outside
  pure ((s.depositEvent (.hostingFeeCharged c feeToCharge)).depositEvent
    (.poolTokenIncreased c poolValue))

def setDelegatorLedger (s : State cfg) (c : CurrencyId) (who : MultiLocation AccountId)
    (ledger : Option (Ledger AccountId)) : State cfg :=
  (s.setLedger c who ledger).depositEvent (.delegatorLedgerSet c who ledger)

def removeDelegatorOf (s : State cfg) (c : CurrencyId) (who : MultiLocation AccountId) :
    Agent → Except Fault (State cfg)
  | .polkadot | .astar => PolkadotAgent.removeDelegator s who c
  | .parachainStaking => ParachainStakingAgent.removeDelegator s who c
  | .phala => PhalaAgent.removeDelegator s who c

def removeDelegator (s : State cfg) (c : CurrencyId) (who : MultiLocation AccountId) :
    Except Fault (State cfg) := do
  let agent ← getCurrencyStakingAgent c
  reported (removeDelegatorOf s c who agent) (.delegatorRemoved c who)

def setValidatorsByDelegator (s : State cfg) (c : CurrencyId) (who : MultiLocation AccountId)
    (validators : List (MultiLocation AccountId)) : Except Fault (State cfg) := do
  let minsMaxs ← okOr (s.settings.minimumsAndMaximums c) (.pallet .minimumsAndMaximumsNotExist)
  ensure (validators.length ≤ minsMaxs.validatorsBackMaximum) (.pallet .greaterThanMaximum)
  ensure (validators.length ≤ cfg.maxLengthLimit) (.pallet .exceedMaxLengthLimit)
  ensure ((s.getLedger c who).isSome) (.pallet .delegatorNotBonded)
  let validatorsList ← s.removeValidatorsDuplicates c validators
  let s := s.setValidatorsByDelegator c who validatorsList
  pure (s.depositEvent (.validatorsByDelegatorSet c validatorsList who))

def iterateLength : ℕ := 100

/-- One page of the boost list loses the validators whose time is over. -/
def cleanOutdatedValidatorBoostList (s : State cfg) (c : CurrencyId) (page : ℕ) :
    Except Fault (State cfg) := do
  ensure (0 < page) (.pallet .invalidPageNumber)
  let list ← okOr (s.validatorBoostList c) (.pallet .noMoreValidatorBoostListForCurrency)
  let previousCount := (page - 1) * iterateLength
  ensure (previousCount < list.length) (.pallet .noMoreValidatorBoostListForCurrency)
  let window := (list.drop previousCount).take iterateLength
  let kept := window.filter fun (_, due) => s.currentBlockNumber < due
  let rest := list.drop (previousCount + iterateLength)
  let lists := Function.update s.validatorBoostList c
    (some (list.take previousCount ++ kept ++ rest))
  let s := { s with validatorBoostList := lists }
  pure (s.depositEvent (.outdatedValidatorBoostListCleaned c page (window.length - kept.length)
    (list.length - previousCount - iterateLength)))

/-- The calls of the pallet, and what happens around it: `govern` is any change of what only
`ControlOrigin` writes, `world` any change of the other pallets and the passing of blocks, and
`otherQuery` a query another pallet makes. -/
inductive Call (cfg : Config AccountId) where
  | operate (origin : Origin AccountId) (currencyId : CurrencyId) (operation : Operation AccountId)
  | updateOngoingTimeUnit (origin : Origin AccountId) (currencyId : CurrencyId)
      (timeUnit : TimeUnit)
  | chargeHostFeeAndTuneVtokenExchangeRate (origin : Origin AccountId) (currencyId : CurrencyId)
      (poolValue delegatorValue : ℕ) (who : Option (MultiLocation AccountId))
  | setDelegatorLedger (origin : Origin AccountId) (currencyId : CurrencyId)
      (who : MultiLocation AccountId) (ledger : Option (Ledger AccountId))
  | confirmDelegatorLedgerQueryResponse (origin : Origin AccountId) (currencyId : CurrencyId)
      (queryId : ℕ)
  | failDelegatorLedgerQueryResponse (origin : Origin AccountId) (currencyId : CurrencyId)
      (queryId : ℕ)
  | confirmValidatorsByDelegatorQueryResponse (origin : Origin AccountId)
      (currencyId : CurrencyId) (queryId : ℕ)
  | failValidatorsByDelegatorQueryResponse (origin : Origin AccountId) (currencyId : CurrencyId)
      (queryId : ℕ)
  | confirmDelegatorLedger (origin : Origin AccountId) (queryId : ℕ) (success : Bool)
  | confirmValidatorsByDelegator (origin : Origin AccountId) (queryId : ℕ) (success : Bool)
  | cleanOutdatedValidatorBoostList (origin : Origin AccountId) (token : CurrencyId) (page : ℕ)
  | removeDelegator (origin : Origin AccountId) (currencyId : CurrencyId)
      (who : MultiLocation AccountId)
  | setValidatorsByDelegator (origin : Origin AccountId) (currencyId : CurrencyId)
      (who : MultiLocation AccountId) (validators : List (MultiLocation AccountId))
  | govern (settings : Settings AccountId)
      (boostList : CurrencyId → Option (List (MultiLocation AccountId × ℕ)))
  | world (minting : VtokenMinting.State cfg.minting) (blocks : ℕ)
  | otherQuery (responder timeout : ℕ)

def step (s : State cfg) : Call cfg → Except Fault (State cfg)
  | .operate origin c operation => do
    s.ensureAuthorized c origin
    let agent ← getCurrencyStakingAgent c
    operate s c agent operation
  | .updateOngoingTimeUnit origin c timeUnit => do
    s.ensureAuthorized c origin
    updateOngoingTimeUnit s c timeUnit
  | .chargeHostFeeAndTuneVtokenExchangeRate origin c poolValue delegatorValue who => do
    s.ensureAuthorized c origin
    chargeHostFeeAndTuneVtokenExchangeRate s c poolValue delegatorValue who
  | .setDelegatorLedger origin c who ledger => do
    s.ensureAuthorized c origin
    pure (setDelegatorLedger s c who ledger)
  | .confirmDelegatorLedgerQueryResponse origin c queryId => do
    s.ensureAuthorized c origin
    getLedgerUpdateAgentThenProcess s queryId
  | .failDelegatorLedgerQueryResponse origin c queryId => do
    s.ensureAuthorized c origin
    doFailDelegatorLedgerQueryResponse s queryId
  | .confirmValidatorsByDelegatorQueryResponse origin c queryId => do
    s.ensureAuthorized c origin
    getValidatorsByDelegatorUpdateAgentThenProcess s queryId
  | .failValidatorsByDelegatorQueryResponse origin c queryId => do
    s.ensureAuthorized c origin
    doFailValidatorsByDelegatorQueryResponse s queryId
  | .confirmDelegatorLedger origin queryId success => do
    ensure (origin = .response) .badOrigin
    if success then getLedgerUpdateAgentThenProcess s queryId
    else doFailDelegatorLedgerQueryResponse s queryId
  | .confirmValidatorsByDelegator origin queryId success => do
    ensure (origin = .response) .badOrigin
    if success then getValidatorsByDelegatorUpdateAgentThenProcess s queryId
    else doFailValidatorsByDelegatorQueryResponse s queryId
  | .cleanOutdatedValidatorBoostList origin c page => do
    ensure origin.isSigned .badOrigin
    cleanOutdatedValidatorBoostList s c page
  | .removeDelegator origin c who => do
    ensure (origin = .control) .badOrigin
    removeDelegator s c who
  | .setValidatorsByDelegator origin c who validators => do
    ensure (origin = .control) .badOrigin
    setValidatorsByDelegator s c who validators
  | .govern settings boostList =>
    pure { s with settings := settings, validatorBoostList := boostList }
  | .world minting blocks =>
    pure { s with minting := minting, currentBlockNumber := s.currentBlockNumber + blocks }
  | .otherQuery responder timeout =>
    pure { s with xcm := (cfg.newNotifyQuery s.xcm responder timeout).2 }

def genesis (cfg : Config AccountId) (settings : Settings AccountId)
    (minting : VtokenMinting.State cfg.minting) (xcm : cfg.Xcm) : State cfg where
  settings := settings
  validatorBoostList := fun _ => none
  validatorsByDelegator := fun _ _ => none
  validatorsByDelegatorXcmUpdateQueue := fun _ => none
  delegatorLedgers := fun _ => ∅
  delegatorLedgerXcmUpdateQueue := fun _ => none
  delegatorLatestTuneRecord := fun _ _ => none
  currencyLatestTuneRecord := fun _ => none
  delegationsOccupied := fun _ => none
  lastTimeUpdatedOngoingTimeUnit := fun _ => none
  minting := minting
  xcm := xcm
  currentBlockNumber := 0
  events := []

end Bifrost.Slp
