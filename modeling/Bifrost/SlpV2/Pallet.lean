import Bifrost.Primitives.Integers
import Bifrost.SlpV2.Types
import Bifrost.VtokenMinting.Pallet

/-!
# The slp-v2 pallet

Storage and calls of `pallets/slp-v2`, with the feature `polkadot`. What the pallet reaches through
traits acts on the storage outside of `minting`; `pallet_xcm`, which numbers the queries, keeps its
own state.
-/

namespace Bifrost.SlpV2

open Result
set_option autoImplicit false

/-- An error of the pallet or of another one; `unreachable` is `unreachable!()`. -/
inductive Fault where
  | pallet (e : Error)
  | token (e : TokenError)
  | minting (e : VtokenMinting.Fault)
  | external (code : ℕ)
  | badOrigin
  | unreachable
deriving DecidableEq

structure Config (AccountId : Type) where
  minting : VtokenMinting.Config AccountId
  Xcm : Type
  /-- `pallet_xcm::new_notify_query`: the responding protocol and the timeout. -/
  newNotifyQuery : Xcm → StakingProtocol → ℕ → ℕ × Xcm
  queryTimeout : ℕ
  validate : minting.currency.Ledger → XcmMessage AccountId → Bool
  deliver : minting.currency.Ledger → XcmMessage AccountId → Except ℕ minting.currency.Ledger
  derivativeAccountId : ℕ → Except Error AccountId
  commissionAccount : AccountId
  maxValidators : ℕ

variable {AccountId : Type}

structure State (cfg : Config AccountId) where
  configurations : StakingProtocol → Option (ProtocolConfiguration AccountId)
  delegators : StakingProtocol → ℕ → Option (Delegator AccountId)
  delegatorIndices : StakingProtocol → Delegator AccountId → Option ℕ
  ledgers : StakingProtocol → Delegator AccountId → Option Ledger
  validators : StakingProtocol → Delegator AccountId → List (Validator AccountId)
  nextDelegatorIndex : StakingProtocol → ℕ
  pendingStatus : ℕ → Option (PendingStatus AccountId)
  lastUpdateOngoingTimeUnit : StakingProtocol → ℕ
  lastUpdateTokenExchangeRate : StakingProtocol → Delegator AccountId → ℕ
  minting : VtokenMinting.State cfg.minting
  xcm : cfg.Xcm
  blockNumber : ℕ
  relayBlockNumber : ℕ

inductive Origin (AccountId : Type) where
  | signed (who : AccountId)
  | control
  | response
deriving DecidableEq

section Helpers

variable {cfg : Config AccountId} (s : State cfg)

def State.withOutside (ledger : cfg.minting.currency.Ledger) : State cfg :=
  { s with minting := { s.minting with ledger := ledger } }

/-- `get_token_pool` of `VtokenMintingOperator`. -/
def State.getTokenPool (c : CurrencyId) : ℕ :=
  (s.minting.getVtokenForToken c).elim 0 s.minting.tokenPool

def State.calculateVCurrencyAmount (c v : CurrencyId) (amount : ℕ) : Except Fault ℕ := do
  let issuance ← mapErr (s.minting.getVCurrencyIssuanceInner v) .minting
  if s.getTokenPool c = 0 then pure amount
  else okOr (U128.mulDiv amount issuance (s.getTokenPool c)) (.minting (.pallet .calculationOverflow))

variable [DecidableEq AccountId]

def State.ensureGovernanceOrOperator (protocol : StakingProtocol) :
    Origin AccountId → Except Fault PUnit
  | .signed signer => do
    let c ← okOr (s.configurations protocol) (.pallet .notAuthorized)
    ensure (c.operator = signer) (.pallet .notAuthorized)
  | .control => pure .unit
  | .response => .error (.pallet .notAuthorized)

def ensureGovernanceOrXcmResponse : Origin AccountId → Except Fault PUnit
  | .signed _ => .error .badOrigin
  | .control | .response => pure .unit

def ensureControl : Origin AccountId → Except Fault PUnit
  | .control => pure .unit
  | _ => .error .badOrigin

omit [DecidableEq AccountId] in
def State.ensureDelegatorExist (protocol : StakingProtocol) (delegator : Delegator AccountId) :
    Except Fault ℕ := do
  let index ← okOr (s.delegatorIndices protocol delegator) (.pallet .delegatorIndexNotFound)
  ensure ((s.delegators protocol index).isSome) (.pallet .delegatorNotFound)
  pure index

def ensureParameterCorrect : StakingProtocol → Option CurrencyId → Except Fault CurrencyId
  | .ethereumStaking, some expected => pure expected
  | .generalProxyStaking expected _, none => pure expected
  | .astarDappStaking, none => pure astr
  | .moonbeamParachainStaking, none => pure glmr
  | .polkadotStaking, none => pure dot
  | _, _ => .error (.pallet .invalidParameter)

def State.setLedger (protocol : StakingProtocol) (delegator : Delegator AccountId)
    (ledger : Option Ledger) : State cfg :=
  let ledgers := Function.update (s.ledgers protocol) delegator ledger
  { s with ledgers := Function.update s.ledgers protocol ledgers }

def State.setValidators (protocol : StakingProtocol) (delegator : Delegator AccountId)
    (validators : List (Validator AccountId)) : State cfg :=
  let ofProtocol := Function.update (s.validators protocol) delegator validators
  { s with validators := Function.update s.validators protocol ofProtocol }

omit [DecidableEq AccountId] in
/-- The messages of the pallet pay the fee of the configuration. -/
def State.wrapXcmMessage (protocol : StakingProtocol) (index : ℕ) (call : RemoteCall AccountId)
    (queryId : Option ℕ) : Except Fault (XcmMessage AccountId) := do
  ensure (protocol.isGeneralProxy = false) .unreachable
  let configuration ← okOr (s.configurations protocol) (.pallet .configurationNotFound)
  pure ⟨protocol, index, call, configuration.xcmTaskFee, queryId⟩

omit [DecidableEq AccountId] in
def State.sendXcmMessage (message : XcmMessage AccountId) : Except Fault (State cfg) := do
  ensure (cfg.validate s.minting.ledger message) (.pallet .validatingFailed)
  let ledger ← mapErr (cfg.deliver s.minting.ledger message) fun _ => Fault.pallet .deliveringFailed
  pure (s.withOutside ledger)

end Helpers

section Calls

variable [DecidableEq AccountId] {cfg : Config AccountId} (s : State cfg)

def setProtocolConfiguration (protocol : StakingProtocol)
    (configuration : ProtocolConfiguration AccountId) : Except Fault (State cfg) := do
  ensure (s.configurations protocol ≠ some configuration) (.pallet .invalidParameter)
  pure { s with configurations := Function.update s.configurations protocol (some configuration) }

/-- The ledger a delegator starts with; a general proxy keeps none. -/
def defaultLedger : StakingProtocol → Except Fault (Option Ledger)
  | .astarDappStaking => pure (some (.astarDappStaking ⟨0, []⟩))
  | .ethereumStaking => pure (some (.ethereumStaking ⟨0⟩))
  | .generalProxyStaking _ _ => pure none
  | _ => .error .unreachable

/-- The delegator that is named, or the derivative account of the index. -/
def getDelegator (cfg : Config AccountId) (index : ℕ) (protocol : StakingProtocol) :
    Option (Delegator AccountId) → Except Fault (Delegator AccountId)
  | some d => pure d
  | none =>
    match protocol with
    | .astarDappStaking => do
      let account ← mapErr (cfg.derivativeAccountId index) .pallet
      pure (.substrate account)
    | _ => .error (.pallet .unsupportedStakingProtocol)

def doAddDelegator (protocol : StakingProtocol) (delegator : Option (Delegator AccountId)) :
    Except Fault (State cfg) := do
  let index := s.nextDelegatorIndex protocol
  ensure (index < 2 ^ 16 - 1) (.pallet .delegatorIndexOverflow)
  let delegator ← getDelegator cfg index protocol delegator
  ensure (s.delegators protocol index = none) (.pallet .delegatorAlreadyExists)
  ensure (s.delegatorIndices protocol delegator = none) (.pallet .delegatorIndexAlreadyExists)
  let ledger ← defaultLedger protocol
  let added := if protocol.isGeneralProxy then s else s.setLedger protocol delegator ledger
  pure { added with
    nextDelegatorIndex := Function.update s.nextDelegatorIndex protocol (index + 1)
    delegators := Function.update s.delegators protocol
      (Function.update (s.delegators protocol) index (some delegator))
    delegatorIndices := Function.update s.delegatorIndices protocol
      (Function.update (s.delegatorIndices protocol) delegator (some index)) }

def doRemoveDelegator (protocol : StakingProtocol) (delegator : Delegator AccountId) :
    Except Fault (State cfg) := do
  let index ← okOr (s.delegatorIndices protocol delegator) (.pallet .delegatorIndexNotFound)
  pure { (s.setLedger protocol delegator none).setValidators protocol delegator [] with
    delegators := Function.update s.delegators protocol
      (Function.update (s.delegators protocol) index none)
    delegatorIndices := Function.update s.delegatorIndices protocol
      (Function.update (s.delegatorIndices protocol) delegator none) }

def addValidator (protocol : StakingProtocol) (delegator : Delegator AccountId)
    (validator : Validator AccountId) : Except Fault (State cfg) := do
  let _ ← s.ensureDelegatorExist protocol delegator
  let validators := s.validators protocol delegator
  ensure (validator ∉ validators) (.pallet .validatorAlreadyExists)
  ensure (validators.length < cfg.maxValidators) (.pallet .validatorsOverflow)
  pure (s.setValidators protocol delegator (validators ++ [validator]))

def removeValidator (protocol : StakingProtocol) (delegator : Delegator AccountId)
    (validator : Validator AccountId) : Except Fault (State cfg) := do
  let _ ← s.ensureDelegatorExist protocol delegator
  let validators := s.validators protocol delegator
  ensure (validator ∈ validators) (.pallet .validatorNotFound)
  pure (s.setValidators protocol delegator (validators.filter (· ≠ validator)))

def setLedger (protocol : StakingProtocol) (delegator : Delegator AccountId) (ledger : Ledger) :
    Except Fault (State cfg) := do
  let _ ← s.ensureDelegatorExist protocol delegator
  ensure (s.ledgers protocol delegator ≠ some ledger) (.pallet .invalidParameter)
  pure (s.setLedger protocol delegator (some ledger))

def astarChainId : ℕ := 2006

/-- The currency that is named, or that of the protocol. -/
def transferCurrency (protocol : StakingProtocol) : Option CurrencyId → Except Fault CurrencyId
  | some c => pure c
  | none => okOr protocol.currencyId .unreachable

def doTransferTo (protocol : StakingProtocol) (delegator : Delegator AccountId)
    (currencyId : Option CurrencyId) (amount dest fee : Option ℕ) : Except Fault (State cfg) := do
  let _ ← s.ensureDelegatorExist protocol delegator
  let c ← transferCurrency protocol currencyId
  let entrance := cfg.minting.entranceAccount
  let free := cfg.minting.currency.freeBalance s.minting.ledger c entrance
  match protocol with
  | .astarDappStaking =>
    match delegator with
    | .substrate account => do
      let ledger ← mapErr (cfg.minting.xcmTransfer s.minting.ledger entrance c free
        ⟨astarChainId, .inl account⟩) fun _ => Fault.pallet .derivativeAccountIdFailed
      pure (s.withOutside ledger)
    | .ethereum _ => .error (.pallet .unsupportedStakingProtocol)
  | .ethereumStaking | .generalProxyStaking _ _ =>
    match amount, delegator, dest, s.configurations protocol, fee with
    | some amount, .ethereum receiver, some dest, some config, some fee => do
      ensure (amount ≤ free) (.pallet .invalidParameter)
      let ledger ← mapErr (cfg.minting.sendAndCall s.minting.ledger c entrance receiver dest amount
        config.operator fee) Fault.external
      pure (s.withOutside ledger)
    | _, _, _, _, _ => .error (.pallet .unsupportedStakingProtocol)
  | _ => .error (.pallet .unsupportedStakingProtocol)

def doTransferBack (protocol : StakingProtocol) (delegator : Delegator AccountId) (amount : ℕ) :
    Except Fault (State cfg) := do
  let index ← s.ensureDelegatorExist protocol delegator
  let message ← s.wrapXcmMessage protocol index
    (.limitedReserveTransferAssets amount cfg.minting.entranceAccount) none
  s.sendXcmMessage message

/-- The time unit that is named, or the one after the ongoing. -/
def State.nextTimeUnit (c : CurrencyId) : Option TimeUnit → Except Fault TimeUnit
  | some timeUnit => pure timeUnit
  | none => do
    let current ← okOr (s.minting.ongoingTimeUnit.get c) (.pallet .timeUnitNotFound)
    pure current.addOne

def updateOngoingTimeUnit (protocol : StakingProtocol) (currencyId : Option CurrencyId)
    (timeUnit : Option TimeUnit) : Except Fault (State cfg) := do
  let interval := (s.configurations protocol).elim 0 (·.updateTimeUnitInterval)
  let last := s.lastUpdateOngoingTimeUnit protocol
  ensure (U32.wrappingAdd last interval ≤ s.relayBlockNumber) (.pallet .updateIntervalTooShort)
  let c ← ensureParameterCorrect protocol currencyId
  let timeUnit ← s.nextTimeUnit c timeUnit
  let minting := { s.minting with
    ongoingTimeUnit := s.minting.ongoingTimeUnit.write c (some timeUnit) }
  pure { s with
    minting
    lastUpdateOngoingTimeUnit :=
      Function.update s.lastUpdateOngoingTimeUnit protocol s.relayBlockNumber }

/-- The interval, the largest share of the pool, and the share of the fee. -/
def State.rateLimits (protocol : StakingProtocol) : ℕ × Permill × Permill :=
  match s.configurations protocol with
  | some configuration => (configuration.updateExchangeRateInterval,
      configuration.maxUpdateTokenExchangeRate, configuration.protocolFeeRate)
  | none => (0, .zero, .zero)

/-- The protocol fee is minted to the commission account. -/
def State.chargeProtocolFee (c : CurrencyId) (protocolFee : ℕ) : Except Fault (State cfg) := do
  let v ← mapErr (s.minting.convertToVtoken c) fun _ => Fault.pallet .derivativeAccountIdFailed
  if protocolFee ≠ 0 then do
    let protocolFee ← s.calculateVCurrencyAmount c v protocolFee
    let ledger ← mapErr (cfg.minting.currency.deposit s.minting.ledger v cfg.commissionAccount
      protocolFee) .token
    let s := s.withOutside ledger
    if v.isVtoken then do
      let adjustment ← mapErr (VtokenMinting.toI128 protocolFee) fun _ =>
        Fault.pallet .invalidParameter
      let minting ← mapErr (s.minting.setVCurrencyIssuanceInner v adjustment) .minting
      pure { s with minting }
    else pure s
  else pure s

/-- The value is added to the ledger of the delegator, of either kind. -/
def Ledger.addLockAmount (amount : ℕ) : Ledger → Except Error Ledger
  | .astarDappStaking l => do
    let locked ← SlpV2.addLockAmount l.locked amount
    pure (.astarDappStaking { l with locked })
  | .ethereumStaking l => do
    let locked ← SlpV2.addLockAmount l.locked amount
    pure (.ethereumStaking { l with locked })

def State.addDelegatorValue (protocol : StakingProtocol) (delegator : Delegator AccountId)
    (value : ℕ) : Except Fault (State cfg) :=
  if protocol.isGeneralProxy then pure s
  else do
    let ledger ← okOr (s.ledgers protocol delegator) (.pallet .ledgerNotFound)
    let ledger ← mapErr (ledger.addLockAmount value) .pallet
    pure (s.setLedger protocol delegator (some ledger))

def updateTokenExchangeRate (protocol : StakingProtocol) (currencyId : Option CurrencyId)
    (delegator : Delegator AccountId) (poolValue delegatorValue : ℕ) :
    Except Fault (State cfg) := do
  let _ ← s.ensureDelegatorExist protocol delegator
  let c ← ensureParameterCorrect protocol currencyId
  let (updateInterval, maxUpdatePermill, protocolFeeRate) := s.rateLimits protocol
  let last := s.lastUpdateTokenExchangeRate protocol delegator
  ensure (U32.wrappingAdd last updateInterval ≤ s.relayBlockNumber)
    (.pallet .updateIntervalTooShort)
  let maxAmount := maxUpdatePermill.mulFloor (s.getTokenPool c)
  ensure (poolValue ≤ maxAmount ∨ maxAmount = 0) (.pallet .updateTokenExchangeRateAmountTooLarge)
  ensure (delegatorValue ≤ maxAmount ∨ maxAmount = 0)
    (.pallet .updateTokenExchangeRateAmountTooLarge)
  let s ← s.chargeProtocolFee c (protocolFeeRate.mulFloor poolValue)
  let minting ← mapErr (s.minting.updateTokenPool c poolValue .add) fun _ =>
    Fault.pallet .increaseTokenPoolFailed
  let s ← { s with minting }.addDelegatorValue protocol delegator delegatorValue
  let updated := Function.update (s.lastUpdateTokenExchangeRate protocol) delegator
    s.relayBlockNumber
  pure { s with
    lastUpdateTokenExchangeRate := Function.update s.lastUpdateTokenExchangeRate protocol updated }

def State.ensureValidatorExist (delegator : Delegator AccountId)
    (validator : AstarValidator AccountId) : Except Fault PUnit :=
  ensure (.astarDappStaking validator ∈ s.validators .astarDappStaking delegator)
    (.pallet .validatorNotFound)

/-- The check of a task and the status that waits for its response. -/
def State.checkTask (delegator : Delegator AccountId) :
    DappStaking AccountId → Except Fault (Option (PendingStatus AccountId))
  | .lock amount => pure (some (.lock delegator amount))
  | .unlock amount => pure (some (.unLock delegator amount))
  | .claimUnlocked => pure (some (.claimUnlocked delegator))
  | .stake validator _ | .unstake validator _ | .claimBonusReward validator => do
    s.ensureValidatorExist delegator validator
    pure none
  | .claimStakerRewards | .relockUnlocking => pure none

def doDappStaking (delegator : Delegator AccountId) (task : DappStaking AccountId) :
    Except Fault (State cfg) := do
  let index ← s.ensureDelegatorExist .astarDappStaking delegator
  let pendingStatus ← s.checkTask delegator task
  match pendingStatus with
  | some status => do
    let timeout := U32.saturatingAdd s.blockNumber cfg.queryTimeout
    let (queryId, xcm) := cfg.newNotifyQuery s.xcm .astarDappStaking timeout
    let message ← s.wrapXcmMessage .astarDappStaking index (.dappStaking task) (some queryId)
    let pending := Function.update s.pendingStatus queryId (some status)
    { s with xcm, pendingStatus := pending }.sendXcmMessage message
  | none => do
    let message ← s.wrapXcmMessage .astarDappStaking index (.dappStaking task) none
    s.sendXcmMessage message

/-- What a successful response does to the ledger of the delegator. -/
def State.applyStatus (status : PendingStatus AccountId) (l : AstarDappStakingLedger) :
    Except Error AstarDappStakingLedger :=
  match status with
  | .lock _ amount => l.lock amount
  | .unLock _ amount => do
    let locked ← subtractLockAmount l.locked amount
    let current ← okOr (s.minting.ongoingTimeUnit.get astr) .timeUnitNotFound
    let configuration ← okOr (s.configurations .astarDappStaking) .configurationNotFound
    let unlockTime ← okOr (current.saturatingAdd configuration.unlockPeriod) .timeUnitNotFound
    ensure (l.unlocking.length < AstarDappStakingLedger.maxUnlocking) .unlockRecordOverflow
    pure ⟨locked, l.unlocking ++ [⟨amount, unlockTime⟩]⟩
  | .claimUnlocked _ => do
    let current ← okOr (s.minting.ongoingTimeUnit.get astr) .timeUnitNotFound
    pure (l.claimUnlocked current)

/-- A delegator without a ledger of Astar is passed over. -/
def doNotifyAstarDappStaking (status : PendingStatus AccountId) : Except Fault (State cfg) :=
  match s.ledgers .astarDappStaking status.delegator with
  | some (.astarDappStaking l) => do
    let l ← mapErr (s.applyStatus status l) .pallet
    pure (s.setLedger .astarDappStaking status.delegator (some (.astarDappStaking l)))
  | _ => pure s

/-- `success` is `Response::DispatchResult(MaybeErrorCode::Success)`. -/
def notifyAstarDappStaking (queryId : ℕ) (success : Bool) : Except Fault (State cfg) := do
  let status ← okOr (s.pendingStatus queryId) (.pallet .pendingStatusNotFound)
  if success then doNotifyAstarDappStaking s status
  else pure { s with pendingStatus := Function.update s.pendingStatus queryId none }

def EthereumStakingLedger.apply (l : EthereumStakingLedger) :
    EthereumStaking → Except Error EthereumStakingLedger
  | .stake amount => do
    let locked ← addLockAmount l.locked amount
    pure ⟨locked⟩
  | .unstake amount => do
    ensure (amount ≤ l.locked) .invalidParameter
    let locked ← subtractLockAmount l.locked amount
    pure ⟨locked⟩

def doEthereumStaking (delegator : Delegator AccountId) (task : EthereumStaking) :
    Except Fault (State cfg) := do
  let _ ← s.ensureDelegatorExist .ethereumStaking delegator
  match s.ledgers .ethereumStaking delegator with
  | some (.ethereumStaking l) => do
    let l ← mapErr (l.apply task) .pallet
    pure (s.setLedger .ethereumStaking delegator (some (.ethereumStaking l)))
  | _ => .error (.pallet .delegatorNotFound)

end Calls

/-- The calls of the pallet, and what happens around it: `world` is any change of the other pallets
and the passing of blocks, `otherQuery` a query another pallet makes. -/
inductive Call (cfg : Config AccountId) where
  | setProtocolConfiguration (protocol : StakingProtocol)
      (configuration : ProtocolConfiguration AccountId)
  | addDelegator (protocol : StakingProtocol) (delegator : Option (Delegator AccountId))
  | removeDelegator (protocol : StakingProtocol) (delegator : Delegator AccountId)
  | addValidator (protocol : StakingProtocol) (delegator : Delegator AccountId)
      (validator : Validator AccountId)
  | removeValidator (protocol : StakingProtocol) (delegator : Delegator AccountId)
      (validator : Validator AccountId)
  | setLedger (protocol : StakingProtocol) (delegator : Delegator AccountId) (ledger : Ledger)
  | transferTo (protocol : StakingProtocol) (delegator : Delegator AccountId)
      (currencyId : Option CurrencyId) (amount dest fee : Option ℕ)
  | transferBack (protocol : StakingProtocol) (delegator : Delegator AccountId) (amount : ℕ)
  | updateOngoingTimeUnit (protocol : StakingProtocol) (currencyId : Option CurrencyId)
      (timeUnit : Option TimeUnit)
  | updateTokenExchangeRate (protocol : StakingProtocol) (currencyId : Option CurrencyId)
      (delegator : Delegator AccountId) (poolValue delegatorValue : ℕ)
  | astarDappStaking (delegator : Delegator AccountId) (task : DappStaking AccountId)
  | notifyAstarDappStaking (queryId : ℕ) (success : Bool)
  | ethereumStaking (delegator : Delegator AccountId) (task : EthereumStaking)
  | world (minting : VtokenMinting.State cfg.minting) (blocks relayBlocks : ℕ)
  | otherQuery (protocol : StakingProtocol) (timeout : ℕ)

variable [DecidableEq AccountId] {cfg : Config AccountId}

def step (s : State cfg) : Origin AccountId × Call cfg → Except Fault (State cfg)
  | (origin, .setProtocolConfiguration protocol configuration) => do
    ensureControl origin
    setProtocolConfiguration s protocol configuration
  | (origin, .addDelegator protocol delegator) => do
    ensureControl origin
    doAddDelegator s protocol delegator
  | (origin, .removeDelegator protocol delegator) => do
    ensureControl origin
    doRemoveDelegator s protocol delegator
  | (origin, .addValidator protocol delegator validator) => do
    ensureControl origin
    addValidator s protocol delegator validator
  | (origin, .removeValidator protocol delegator validator) => do
    ensureControl origin
    removeValidator s protocol delegator validator
  | (origin, .setLedger protocol delegator ledger) => do
    ensureControl origin
    setLedger s protocol delegator ledger
  | (origin, .transferTo protocol delegator currencyId amount dest fee) => do
    s.ensureGovernanceOrOperator protocol origin
    doTransferTo s protocol delegator currencyId amount dest fee
  | (origin, .transferBack protocol delegator amount) => do
    s.ensureGovernanceOrOperator protocol origin
    doTransferBack s protocol delegator amount
  | (origin, .updateOngoingTimeUnit protocol currencyId timeUnit) => do
    s.ensureGovernanceOrOperator protocol origin
    updateOngoingTimeUnit s protocol currencyId timeUnit
  | (origin, .updateTokenExchangeRate protocol currencyId delegator poolValue delegatorValue) => do
    s.ensureGovernanceOrOperator protocol origin
    updateTokenExchangeRate s protocol currencyId delegator poolValue delegatorValue
  | (origin, .astarDappStaking delegator task) => do
    s.ensureGovernanceOrOperator .astarDappStaking origin
    doDappStaking s delegator task
  | (origin, .notifyAstarDappStaking queryId success) => do
    ensureGovernanceOrXcmResponse origin
    notifyAstarDappStaking s queryId success
  | (origin, .ethereumStaking delegator task) => do
    s.ensureGovernanceOrOperator .ethereumStaking origin
    doEthereumStaking s delegator task
  | (_, .world minting blocks relayBlocks) =>
    pure { s with
      minting
      blockNumber := s.blockNumber + blocks
      relayBlockNumber := s.relayBlockNumber + relayBlocks }
  | (_, .otherQuery protocol timeout) =>
    pure { s with xcm := (cfg.newNotifyQuery s.xcm protocol timeout).2 }

def genesis (cfg : Config AccountId) (minting : VtokenMinting.State cfg.minting) (xcm : cfg.Xcm) :
    State cfg where
  configurations := fun _ => none
  delegators := fun _ _ => none
  delegatorIndices := fun _ _ => none
  ledgers := fun _ _ => none
  validators := fun _ _ => []
  nextDelegatorIndex := fun _ => 0
  pendingStatus := fun _ => none
  lastUpdateOngoingTimeUnit := fun _ => 0
  lastUpdateTokenExchangeRate := fun _ _ => 0
  minting := minting
  xcm := xcm
  blockNumber := 0
  relayBlockNumber := 0

end Bifrost.SlpV2
