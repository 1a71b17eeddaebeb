import Bifrost.Primitives.Integers
import Bifrost.Slp.Types
import Bifrost.VtokenMinting.Pallet

/-!
# The slp pallet: storage and common functions

`agents/common.rs` and `agents/utils.rs`, with the storage they work on. What the pallet
reaches through traits acts on the storage outside of `minting`; `pallet_xcm`, which numbers
the queries, keeps its own state.
-/

namespace Bifrost.Slp

open Result
set_option autoImplicit false

/-- An error of the pallet, of `MultiCurrency`, of vtoken-minting or of another trait. -/
inductive Fault where
  | pallet (e : Error)
  | token (e : TokenError)
  | minting (e : VtokenMinting.Fault)
  | external (code : ℕ)
  | badOrigin
deriving DecidableEq, Repr

structure Config (AccountId : Type) where
  minting : VtokenMinting.Config AccountId
  Xcm : Type
  /-- `pallet_xcm::new_notify_query`: the responding parachain and the timeout. -/
  newNotifyQuery : Xcm → ℕ → ℕ → ℕ × Xcm
  maxLengthLimit : ℕ
  sendXcm : minting.currency.Ledger → ℕ → XcmMessage AccountId →
    Except ℕ minting.currency.Ledger
  getOperationWeightAndFee : minting.currency.Ledger → CurrencyId → XcmOperationType →
    Option (ℕ × ℕ)
  getDelegationCount : minting.currency.Ledger → AccountId → AccountId → ℕ × ℕ
  parachainStaking : minting.currency.Ledger → NativeStaking AccountId →
    Except ℕ minting.currency.Ledger
  transferAssets : minting.currency.Ledger → AccountId → AccountId → ℕ →
    Except ℕ minting.currency.Ledger
  xcmTransfer : minting.currency.Ledger → AccountId → CurrencyId → ℕ → MultiLocation AccountId →
    Except ℕ minting.currency.Ledger
  handleHyperbridgeOracle : minting.currency.Ledger → CurrencyId →
    Except ℕ minting.currency.Ledger
  recordHostingFee : minting.currency.Ledger → CurrencyId → ℕ → Except ℕ minting.currency.Ledger

variable {AccountId : Type}

/-- The storage that only `ControlOrigin` writes. -/
structure Settings (AccountId : Type) where
  operateOrigins : CurrencyId → Option AccountId
  feeSources : CurrencyId → Option (MultiLocation AccountId × ℕ)
  hostingFees : CurrencyId → Option (Permill × MultiLocation AccountId)
  delegatorsMultilocation2Index : CurrencyId → MultiLocation AccountId → Option ℕ
  validators : CurrencyId → Option (List (MultiLocation AccountId))
  minimumsAndMaximums : CurrencyId → Option MinimumsMaximums
  currencyDelays : CurrencyId → Option Delays
  currencyTuneExchangeRateLimit : CurrencyId → Option (ℕ × Permill)
  ongoingTimeUnitUpdateInterval : CurrencyId → Option ℕ

structure State (cfg : Config AccountId) where
  settings : Settings AccountId
  validatorBoostList : CurrencyId → Option (List (MultiLocation AccountId × ℕ))
  validatorsByDelegator : CurrencyId → MultiLocation AccountId →
    Option (List (MultiLocation AccountId))
  validatorsByDelegatorXcmUpdateQueue : ℕ → Option (ValidatorsByDelegatorUpdateEntry AccountId × ℕ)
  delegatorLedgers : CurrencyId → Table (MultiLocation AccountId) (Ledger AccountId)
  delegatorLedgerXcmUpdateQueue : ℕ → Option (LedgerUpdateEntry AccountId × ℕ)
  delegatorLatestTuneRecord : CurrencyId → MultiLocation AccountId → Option TimeUnit
  currencyLatestTuneRecord : CurrencyId → Option (TimeUnit × ℕ)
  delegationsOccupied : CurrencyId → Option Bool
  lastTimeUpdatedOngoingTimeUnit : CurrencyId → Option ℕ
  minting : VtokenMinting.State cfg.minting
  xcm : cfg.Xcm
  currentBlockNumber : ℕ
  events : List (Event AccountId)

def timeoutBlocks : ℕ := 1000

section Helpers

variable {cfg : Config AccountId}

def State.depositEvent (s : State cfg) (e : Event AccountId) : State cfg :=
  { s with events := s.events ++ [e] }

/-- The storage outside the pallet and vtoken-minting. -/
def State.outside (s : State cfg) : cfg.minting.currency.Ledger := s.minting.ledger

def State.withOutside (s : State cfg) (ledger : cfg.minting.currency.Ledger) : State cfg :=
  { s with minting := { s.minting with ledger := ledger } }

def State.getOngoingTimeUnit (s : State cfg) (c : CurrencyId) : Option TimeUnit :=
  s.minting.ongoingTimeUnit.get c

def State.getTokenPool (s : State cfg) (c : CurrencyId) : ℕ :=
  (s.minting.getVtokenForToken c).elim 0 s.minting.tokenPool

def State.getMinimumsAndMaximums (s : State cfg) (c : CurrencyId) : Except Fault MinimumsMaximums :=
  okOr (s.settings.minimumsAndMaximums c) (.pallet .notExist)

def State.timeout (s : State cfg) : ℕ := U32.saturatingAdd timeoutBlocks s.currentBlockNumber

/-! Locations. -/

def nativeMultilocationToAccount : MultiLocation AccountId → Except Fault AccountId
  | ⟨0, [.accountId32 id]⟩ => pure id
  | _ => .error (.pallet .accountNotExist)

def multilocationToAccount : MultiLocation AccountId → Except Fault AccountId
  | ⟨_, [.accountId32 id]⟩ => pure id
  | ⟨_, [_, .accountId32 id]⟩ => pure id
  | _ => .error (.pallet .accountNotExist)

def multilocationToH160Account : MultiLocation AccountId → Except Fault ℕ
  | ⟨_, [.parachain _, .accountKey20 key]⟩ => pure key
  | _ => .error (.pallet .accountNotExist)

/-- The parachain of `convert_currency_to_dest_location`. -/
def convertCurrencyToDestLocation (c : CurrencyId) : Except Fault ℕ :=
  if c = ksm ∨ c = dot then pure 1000
  else if c = movr then pure 2023
  else if c = glmr then pure 2004
  else if c = astr then pure 2006
  else if c = manta then pure 2104
  else if c = pha then pure 2035
  else .error (.pallet .notSupportedCurrencyId)

/-! Validators. -/

/-- Keeps the first of each validator. -/
def dedup [DecidableEq AccountId] (validators : List (MultiLocation AccountId)) :
    List (MultiLocation AccountId) :=
  validators.foldl (fun list v => if v ∈ list then list else list ++ [v]) []

def State.removeValidatorsDuplicates [DecidableEq AccountId] (s : State cfg) (c : CurrencyId)
    (validators : List (MultiLocation AccountId)) :
    Except Fault (List (MultiLocation AccountId)) := do
  let validatorsSet ← okOr (s.settings.validators c) (.pallet .validatorSetNotExist)
  ensure (∀ v ∈ validators, v ∈ validatorsSet) (.pallet .validatorNotExist)
  pure (dedup validators)

/-! Ledgers and queues. -/

section Storage

variable [DecidableEq AccountId]

def State.getLedger (s : State cfg) (c : CurrencyId) (who : MultiLocation AccountId) :
    Option (Ledger AccountId) :=
  (s.delegatorLedgers c).get who

def State.setLedger (s : State cfg) (c : CurrencyId) (who : MultiLocation AccountId)
    (ledger : Option (Ledger AccountId)) : State cfg :=
  { s with delegatorLedgers :=
      Function.update s.delegatorLedgers c ((s.delegatorLedgers c).write who ledger) }

def State.setValidatorsByDelegator (s : State cfg) (c : CurrencyId)
    (who : MultiLocation AccountId) (validators : List (MultiLocation AccountId)) : State cfg :=
  let lists := Function.update (s.validatorsByDelegator c) who (some validators)
  { s with validatorsByDelegator := Function.update s.validatorsByDelegator c lists }

def State.bondedLedger (s : State cfg) (c : CurrencyId) (who : MultiLocation AccountId) :
    Except Fault (Ledger AccountId) :=
  okOr (s.getLedger c who) (.pallet .delegatorNotBonded)

def Ledger.asSubstrate : Ledger AccountId → Except Fault (SubstrateLedger AccountId)
  | .substrate ledger => pure ledger
  | _ => .error (.pallet .unexpected)

def State.oneToManyLedger (s : State cfg) (c : CurrencyId) (who : MultiLocation AccountId)
    (missing : Error) : Except Fault (OneToManyLedger AccountId) :=
  match s.getLedger c who with
  | some (.parachainStaking ledger) => pure ledger
  | _ => .error (.pallet missing)

def State.phalaLedger (s : State cfg) (c : CurrencyId) (who : MultiLocation AccountId)
    (missing : Error) : Except Fault (PhalaLedger AccountId) :=
  match s.getLedger c who with
  | some (.phala ledger) => pure ledger
  | _ => .error (.pallet missing)

def State.mutateSubstrate (s : State cfg) (c : CurrencyId) (who : MultiLocation AccountId)
    (f : SubstrateLedger AccountId → Except Fault (SubstrateLedger AccountId)) :
    Except Fault (State cfg) := do
  let ledger ← okOr (s.getLedger c who) (.pallet .unexpected)
  let ledger ← ledger.asSubstrate
  let ledger ← f ledger
  pure (s.setLedger c who (some (.substrate ledger)))

def State.mutateOneToMany (s : State cfg) (c : CurrencyId) (who : MultiLocation AccountId)
    (f : OneToManyLedger AccountId → Except Fault (OneToManyLedger AccountId)) :
    Except Fault (State cfg) := do
  let ledger ← s.oneToManyLedger c who .unexpected
  let ledger ← f ledger
  pure (s.setLedger c who (some (.parachainStaking ledger)))

def State.mutatePhala (s : State cfg) (c : CurrencyId) (who : MultiLocation AccountId)
    (missing : Error) (f : PhalaLedger AccountId → Except Fault (PhalaLedger AccountId)) :
    Except Fault (State cfg) := do
  let ledger ← s.phalaLedger c who missing
  let ledger ← f ledger
  pure (s.setLedger c who (some (.phala ledger)))

end Storage

def State.setLedgerQuery (s : State cfg) (queryId : ℕ)
    (entry : Option (LedgerUpdateEntry AccountId × ℕ)) : State cfg :=
  { s with delegatorLedgerXcmUpdateQueue :=
      Function.update s.delegatorLedgerXcmUpdateQueue queryId entry }

def State.setValidatorsQuery (s : State cfg) (queryId : ℕ)
    (entry : Option (ValidatorsByDelegatorUpdateEntry AccountId × ℕ)) : State cfg :=
  { s with validatorsByDelegatorXcmUpdateQueue :=
      Function.update s.validatorsByDelegatorXcmUpdateQueue queryId entry }

/-- The delay of the unit the staking of the currency counts in, added to the unit of now. -/
def State.getUnlockingTimeUnitFromCurrent (s : State cfg) (ifLeave : Bool) (c : CurrencyId) :
    Except Fault TimeUnit := do
  let current ← okOr (s.getOngoingTimeUnit c) (.pallet .timeUnitNotExist)
  let delays ← okOr (s.settings.currencyDelays c) (.pallet .delaysNotExist)
  let delay := if ifLeave then delays.leaveDelegatorsDelay else delays.unlockDelay
  if c = astr ∨ c = ksm ∨ c = dot then
    match current, delays.unlockDelay with
    | .era current, .era delay => do
      let unlock ← okOr (U32.checkedAdd current delay) (.pallet .overFlow)
      pure (.era unlock)
    | _, _ => .error (.pallet .invalidTimeUnit)
  else if c = pha then
    match current, delays.unlockDelay with
    | .hour current, .hour delay => do
      let unlock ← okOr (U32.checkedAdd current delay) (.pallet .overFlow)
      pure (.hour unlock)
    | _, _ => .error (.pallet .invalidTimeUnit)
  else if c = bnc ∨ c = movr ∨ c = glmr ∨ c = manta then
    match current, delay with
    | .round current, .round delay => do
      let unlock ← okOr (U32.checkedAdd current delay) (.pallet .overFlow)
      pure (.round unlock)
    | _, _ => .error (.pallet .invalidTimeUnit)
  else .error (.pallet .invalidTimeUnit)

/-! Messages and fees. -/

def State.operationWeightAndFee (s : State cfg) (c : CurrencyId) (operation : XcmOperationType)
    (weightAndFee : Option (ℕ × ℕ)) : Except Fault (ℕ × ℕ) :=
  match weightAndFee with
  | some weightAndFee => pure weightAndFee
  | none => okOr (cfg.getOperationWeightAndFee s.outside c operation)
      (.pallet .weightAndFeeNotExists)

/-- The index of `prepare_send_as_subaccount_call`. -/
def State.subAccountIndex (s : State cfg) (c : CurrencyId) (who : MultiLocation AccountId) :
    Except Fault ℕ := do
  let index ← okOr (s.settings.delegatorsMultilocation2Index c who) (.pallet .delegatorNotExist)
  ensure (c = manta ∨ c = movr ∨ c = glmr ∨ c = astr ∨ c = pha ∨ c = ksm ∨ c = dot)
    (.pallet .unsupported)
  pure index

def State.getQueryId (s : State cfg) (c : CurrencyId) : Except Fault (ℕ × State cfg) := do
  let responder ← convertCurrencyToDestLocation c
  let (queryId, xcm) := cfg.newNotifyQuery s.xcm responder s.timeout
  pure (queryId, { s with xcm := xcm })

def State.constructXcmAsSubaccountWithQueryId (s : State cfg) (operation : XcmOperationType)
    (call : RemoteCall AccountId) (who : MultiLocation AccountId) (c : CurrencyId)
    (weightAndFee : Option (ℕ × ℕ)) :
    Except Fault (ℕ × ℕ × ℕ × XcmMessage AccountId × State cfg) := do
  let timeout := s.timeout
  let (queryId, s) ← s.getQueryId c
  let (weight, fee) ← s.operationWeightAndFee c operation weightAndFee
  let index ← s.subAccountIndex c who
  pure (queryId, timeout, fee, ⟨index, call, weight, fee, some queryId⟩, s)

def State.sendXcm (s : State cfg) (c : CurrencyId) (message : XcmMessage AccountId) :
    Except Fault (State cfg) := do
  let dest ← convertCurrencyToDestLocation c
  let outside ← mapErr (cfg.sendXcm s.outside dest message) fun _ => Fault.pallet .xcmFailure
  pure (s.withOutside outside)

def State.constructXcmAndSendAsSubaccountWithoutQueryId (s : State cfg)
    (operation : XcmOperationType) (call : RemoteCall AccountId) (who : MultiLocation AccountId)
    (c : CurrencyId) (weightAndFee : Option (ℕ × ℕ)) : Except Fault (ℕ × State cfg) := do
  let (weight, fee) ← s.operationWeightAndFee c operation weightAndFee
  let index ← s.subAccountIndex c who
  let s ← s.sendXcm c ⟨index, call, weight, fee, none⟩
  pure (fee, s)

/-- A withdrawal that fails is only reported. -/
def State.burnFeeFromSourceAccount (s : State cfg) (fee : ℕ) (c : CurrencyId) :
    Except Fault (State cfg) := do
  let (sourceLocation, reservedFee) ← okOr (s.settings.feeSources c) (.pallet .feeSourceNotExist)
  ensure (fee ≤ reservedFee) (.pallet .feeTooHigh)
  let source ← nativeMultilocationToAccount sourceLocation
  match cfg.minting.currency.withdraw s.outside c source fee with
  | .ok outside => pure (s.withOutside outside)
  | .error _ => pure (s.depositEvent (.burnFeeFailed c fee))

/-- How a call that waits for a response ends: the message is made, its fee is burned, the
pallet stores with `record` what the response decides on, and the message is sent. -/
def State.sendWithRecord (s : State cfg) (operation : XcmOperationType)
    (call : RemoteCall AccountId) (who : MultiLocation AccountId) (c : CurrencyId)
    (weightAndFee : Option (ℕ × ℕ)) (record : State cfg → ℕ → ℕ → Except Fault (State cfg)) :
    Except Fault (ℕ × State cfg) := do
  let (queryId, timeout, fee, message, s) ←
    s.constructXcmAsSubaccountWithQueryId operation call who c weightAndFee
  let s ← s.burnFeeFromSourceAccount fee c
  let s ← record s queryId timeout
  let s ← s.sendXcm c message
  pure (queryId, s)

/-- How a call ends that does not wait for one. -/
def State.sendWithoutRecord (s : State cfg) (operation : XcmOperationType)
    (call : RemoteCall AccountId) (who : MultiLocation AccountId) (c : CurrencyId)
    (weightAndFee : Option (ℕ × ℕ)) : Except Fault (State cfg) := do
  let (fee, s) ←
    s.constructXcmAndSendAsSubaccountWithoutQueryId operation call who c weightAndFee
  s.burnFeeFromSourceAccount fee c

def State.getTransferToAddedAmountAndSupplement (s : State cfg) (source : AccountId) (amount : ℕ)
    (c : CurrencyId) : Except Fault (ℕ × State cfg) := do
  let (_, supplementaryFee) ← okOr (cfg.getOperationWeightAndFee s.outside c .transferTo)
    (.pallet .weightAndFeeNotExists)
  let (sourceLocation, _) ← okOr (s.settings.feeSources c) (.pallet .feeSourceNotExist)
  let feeSource ← nativeMultilocationToAccount sourceLocation
  let outside ← mapErr (cfg.minting.currency.transfer s.outside c feeSource source
    supplementaryFee) fun _ => Fault.pallet .unexpected
  let added ← okOr (U128.checkedAdd amount supplementaryFee) (.pallet .overFlow)
  pure (added, s.withOutside outside)

def State.doTransferTo (s : State cfg) (source dest : MultiLocation AccountId) (amount : ℕ)
    (c : CurrencyId) : Except Fault (State cfg) := do
  ensure (amount ≠ 0) (.pallet .amountZero)
  ensure (source.parents = 0) (.pallet .invalidTransferSource)
  let sourceAccount ← multilocationToAccount source
  if c = ksm ∨ c = dot then do
    let destAccount ← multilocationToAccount dest
    let outside ← mapErr (cfg.transferAssets s.outside sourceAccount destAccount amount)
      fun _ => Fault.pallet .transferToError
    pure (s.withOutside outside)
  else do
    let outside ← mapErr (cfg.xcmTransfer s.outside sourceAccount c amount dest)
      fun _ => Fault.pallet .transferToError
    pure (s.withOutside outside)

/-- `transfer_to` of the agents of the chains other than Bifrost. -/
def State.supplementAndTransferTo [DecidableEq AccountId] (s : State cfg)
    (source dest : MultiLocation AccountId) (amount : ℕ) (c : CurrencyId) :
    Except Fault (State cfg) := do
  ensure (s.settings.delegatorsMultilocation2Index c dest ≠ none) (.pallet .delegatorNotExist)
  let sourceAccount ← multilocationToAccount source
  ensure (sourceAccount = cfg.minting.entranceAccount) (.pallet .invalidAccount)
  let (amount, s) ← s.getTransferToAddedAmountAndSupplement sourceAccount amount c
  s.doTransferTo source dest amount c

/-! The exchange rate. -/

def State.increaseTokenPool (s : State cfg) (c : CurrencyId) (amount : ℕ) :
    Except Fault (State cfg) := do
  let minting ← mapErr (s.minting.updateTokenPool c amount .add)
    fun _ => Fault.pallet .increaseTokenPoolError
  pure { s with minting := minting }

/-- `inner_calculate_vtoken_hosting_fee`: nothing where the quotient is no `u128`. -/
def State.innerCalculateVtokenHostingFee (s : State cfg) (amount : ℕ) (vtoken c : CurrencyId) :
    Except Fault ℕ := do
  ensure (0 < amount) (.pallet .amountZero)
  let vtokenIssuance ← mapErr (s.minting.getVCurrencyIssuanceInner vtoken)
    fun _ => Fault.pallet .unexpected
  let tokenPool := s.getTokenPool c
  if tokenPool = 0 then pure 0
  else
    let canGetVtoken := amount * vtokenIssuance / tokenPool
    pure (if canGetVtoken ≤ u128Max then canGetVtoken else 0)

def State.innerChargeHostingFee (s : State cfg) (chargeAmount : ℕ)
    (beneficiary : MultiLocation AccountId) (depositCurrency : CurrencyId) :
    Except Fault (State cfg) := do
  ensure (0 < chargeAmount) (.pallet .amountZero)
  let account ← multilocationToAccount beneficiary
  let outside ← mapErr (cfg.minting.currency.deposit s.outside depositCurrency account chargeAmount)
    Fault.token
  let s := s.withOutside outside
  if depositCurrency.isVtoken then do
    let adjustment ← mapErr (VtokenMinting.toI128 chargeAmount) fun _ => Fault.pallet .overFlow
    let minting ← mapErr (s.minting.setVCurrencyIssuanceInner depositCurrency adjustment)
      Fault.minting
    pure { s with minting := minting }
  else pure s

section Tune

variable [DecidableEq AccountId]

def State.tuneVtokenExchangeRateWithoutUpdateLedger (s : State cfg)
    (who : MultiLocation AccountId) (tokenAmount : ℕ) (c : CurrencyId) :
    Except Fault (State cfg) := do
  ensure (s.settings.delegatorsMultilocation2Index c who ≠ none) (.pallet .delegatorNotExist)
  let current ← okOr (s.getOngoingTimeUnit c) (.pallet .timeUnitNotExist)
  ensure (s.delegatorLatestTuneRecord c who ≠ some current) (.pallet .delegatorAlreadyTuned)
  ensure (tokenAmount ≠ 0) (.pallet .amountZero)
  ensure (s.getLedger c who ≠ none) (.pallet .delegatorNotBonded)
  let s ← s.increaseTokenPool c tokenAmount
  let records := Function.update (s.delegatorLatestTuneRecord c) who (some current)
  pure { s with
    delegatorLatestTuneRecord := Function.update s.delegatorLatestTuneRecord c records }

def State.handleHyperbridgeOracle (s : State cfg) (c : CurrencyId) : Except Fault (State cfg) := do
  let outside ← mapErr (cfg.handleHyperbridgeOracle s.outside c)
    fun _ => Fault.pallet .handleHyperbridgeOracleError
  pure (s.withOutside outside)

/-- A delegator is occupied where as many requests as delegations are recorded. -/
def OneToManyLedger.occupied (ledger : OneToManyLedger AccountId) : Bool :=
  ledger.delegations.entries.length ≤ ledger.requestBriefs.entries.length

/-- The loop of `update_all_occupied_status_storage`: it stops at the first free delegator. -/
def allOccupied : List (Ledger AccountId) → Except Fault Bool
  | [] => pure true
  | .parachainStaking ledger :: ledgers =>
    if ledger.occupied then allOccupied ledgers else pure false
  | _ :: _ => .error (.pallet .unexpected)

def State.updateAllOccupiedStatusStorage (s : State cfg) (c : CurrencyId) :
    Except Fault (State cfg) := do
  let occupied ← allOccupied ((s.delegatorLedgers c).entries.map Prod.snd)
  pure { s with delegationsOccupied := Function.update s.delegationsOccupied c (some occupied) }

def State.innerRemoveDelegator (s : State cfg) (who : MultiLocation AccountId) (c : CurrencyId) :
    Except Fault (State cfg) := do
  ensure (s.settings.delegatorsMultilocation2Index c who ≠ none) (.pallet .delegatorNotExist)
  let indices := Function.update (s.settings.delegatorsMultilocation2Index c) who none
  let index := Function.update s.settings.delegatorsMultilocation2Index c indices
  let s := { s with settings := { s.settings with delegatorsMultilocation2Index := index } }
  pure (s.setLedger c who none)

end Tune

end Helpers

end Bifrost.Slp
