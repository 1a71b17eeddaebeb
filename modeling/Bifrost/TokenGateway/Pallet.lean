import Bifrost.Slpx.Pallet
import Bifrost.TokenGateway.Abi

/-!
# The token gateway

Assets leave the chain with a request to the gateway on another one, and come in with one from
there. An asset of this chain is kept in the gateway's account meanwhile, any other is burned and
minted. What a request does before it fails is not undone here: `onAccept` is an attempt, and only
whoever runs it may make a transaction of it.
-/

namespace Bifrost

open Result
set_option autoImplicit false

def TokenSymbol.decimals : TokenSymbol → ℕ
  | .ASG | .BNC | .KUSD | .KSM | .KAR | .PHA => 12
  | .DOT | .RMRK => 10
  | .ETH | .ZLK | .MOVR => 18

def CurrencyId.decimals : CurrencyId → Option ℕ
  | .native symbol | .stable symbol | .token symbol => some symbol.decimals
  | .vToken symbol | .vsToken symbol => some symbol.decimals
  | .vsBond symbol .. => some symbol.decimals
  | .lpToken .. | .stableLpToken _ => some 1
  | _ => none

namespace TokenGateway

abbrev Balance := Fin (2 ^ 128)

inductive StateMachine where
  | evm (id : ℕ)
  | polkadot (id : ℕ)
  | kusama (id : ℕ)
  | substrate (consensusStateId : ℕ)
  | tendermint (id : ℕ)
deriving DecidableEq

def StateMachine.isEvm : StateMachine → Bool
  | evm _ => true
  | _ => false

inductive Error where
  | unregisteredAsset
  | assetTeleportError
  | coprocessorNotConfigured
  | dispatchError
  | assetDecimalsNotFound
  | failToConvert
deriving DecidableEq

inductive Fault where
  | moduleDispatchError (msg : String) (source dest : StateMachine) (nonce : ℕ)
  | anyhow (msg : String)
  | pallet (e : Error)
  | token (e : TokenError)
  | badOrigin
  | panic
deriving DecidableEq

structure PostRequest where
  source : StateMachine
  dest : StateMachine
  nonce : ℕ
  sender : Bytes
  body : Bytes

def PostRequest.moduleDispatchError (req : PostRequest) (msg : String) : Fault :=
  .moduleDispatchError msg req.source req.dest req.nonce

inductive Timeout where
  | post (req : PostRequest)
  | get (source dest : StateMachine) (nonce : ℕ)
  | response (source dest : StateMachine) (nonce : ℕ)

structure DispatchPost where
  dest : StateMachine
  sender : Bytes
  recipient : Bytes
  timeout : ℕ
  body : Bytes
deriving DecidableEq

inductive Event (AccountId : Type) where
  | assetTeleported (sender : AccountId) (recipient : H256) (assetId : CurrencyId) (amount : ℕ)
      (dest : StateMachine) (commitment : H256)
  | assetReceived (beneficiary : AccountId) (amount : ℕ) (source : StateMachine)
  | assetRefunded (beneficiary : AccountId) (amount : ℕ) (source : StateMachine)
  | erc6160AssetRegistrationDispatched (commitment : H256)
  | whitelistReset (chain : StateMachine) (whitelist : List Bytes)
deriving DecidableEq

/-- The runtime's choices. The gateway's account is the reserve account of slpx; the accounts of
vtoken-minting are others. A request is charged to its payer, and nobody else has less for it. -/
structure Config (AccountId : Type) [DecidableEq AccountId] where
  slpx : Slpx.Config AccountId
  abi : Abi
  accountOf : H256 → AccountId
  encode : AccountId → H256
  accountOf_encode : ∀ x, accountOf (encode x) = x
  evmToSubstrate : Bytes → AccountId
  metadataDecimals : CurrencyId → Option ℕ
  tokenGatewayId : Bytes
  tokenGovernorId : Bytes
  coprocessor : Option StateMachine
  assetAdmin : AccountId
  maxLengthLimit : ℕ
  keccak : Bytes → H256
  ethabiDecode : Bytes → Option (ℕ × ℕ)
  chargeRegistration : slpx.minting.currency.Ledger → Except TokenError slpx.minting.currency.Ledger
  dispatchRequest : slpx.minting.currency.Ledger → DispatchPost → AccountId → ℕ →
    Option (H256 × slpx.minting.currency.Ledger)
  totalIssuance : slpx.minting.currency.Ledger → CurrencyId → ℕ
  transfer_issuance : ∀ {L L' c a b n}, slpx.minting.currency.transfer L c a b n = .ok L' → ∀ d,
    totalIssuance L' d = totalIssuance L d
  deposit_issuance : ∀ {L L' c a n}, slpx.minting.currency.deposit L c a n = .ok L' → ∀ d,
    totalIssuance L' d = totalIssuance L d + if d = c then n else 0
  withdraw_frame : ∀ {L L' c a n d x}, slpx.minting.currency.withdraw L c a n = .ok L' →
    d ≠ c ∨ x ≠ a → slpx.minting.currency.freeBalance L' d x =
      slpx.minting.currency.freeBalance L d x
  record_frame : ∀ {L L' channel v n}, slpx.minting.recordMintAmount L channel v n = .ok L' →
    totalIssuance L' = totalIssuance L ∧
      slpx.minting.currency.freeBalance L' = slpx.minting.currency.freeBalance L
  dispatch_frame : ∀ {L post payer fee commitment L'},
    dispatchRequest L post payer fee = some (commitment, L') → ∀ c x, x ≠ payer →
      slpx.minting.currency.freeBalance L c x ≤ slpx.minting.currency.freeBalance L' c x
  entrance_ne : slpx.minting.entranceAccount ≠ slpx.reserveAccount
  fee_ne : slpx.minting.feeAccount ≠ slpx.reserveAccount

variable {AccountId : Type} [DecidableEq AccountId]

namespace Config

variable (cfg : Config AccountId)

def palletAccount : AccountId := cfg.slpx.reserveAccount

def localDecimals (c : CurrencyId) : ℕ := c.decimals.getD ((cfg.metadataDecimals c).getD 12)

def isTokenGateway (id : Bytes) : Bool := id = cfg.tokenGatewayId

/-- `decode_body`: a chain id of 32 bits and an amount. -/
def decodeBody (data : Bytes) : Option (ℕ × ℕ) :=
  (cfg.ethabiDecode data).filter fun (chainId, _) => chainId < 2 ^ 32

end Config

structure State (cfg : Config AccountId) where
  slpx : Slpx.State cfg.slpx
  supportedAssets : CurrencyId → Option H256
  nativeAssets : CurrencyId → Bool
  localAssets : H256 → Option CurrencyId
  decimals : CurrencyId → Option ℕ
  tokenGatewayAddresses : StateMachine → Option Bytes
  whitelistAddresses : StateMachine → List Bytes
  accountNonce : AccountId → ℕ
  /-- What the dispatcher was handed. -/
  requests : List (H256 × DispatchPost)
  events : List (Event AccountId)

/-! The two conversions. A power that does not fit is cut off. -/

inductive ConvertFault where
  | divideByZero
  | parse
deriving DecidableEq

def ConvertFault.fault (e : Fault) : ConvertFault → Fault
  | divideByZero => .panic
  | parse => e

def scale (ercDecimals decimals : ℕ) : ℕ := 10 ^ (ercDecimals - decimals) % 2 ^ 128

def convertToBalance (value ercDecimals finalDecimals : ℕ) : Except ConvertFault ℕ := do
  ensure (scale ercDecimals finalDecimals ≠ 0) .divideByZero
  let amount := value / scale ercDecimals finalDecimals
  ensure (amount ≤ u128Max) .parse
  pure amount

def convertToErc20 (value ercDecimals decimals : ℕ) : ℕ := value * scale ercDecimals decimals

/-- What a request asks for: the local asset, its decimals elsewhere, and the local amount. -/
structure Incoming where
  body : RequestBody
  localAssetId : CurrencyId
  ercDecimals : ℕ
  amount : ℕ
deriving DecidableEq

variable {cfg : Config AccountId}

/-- The calls of the runtime, and the asynchronous mint. A call that fails changes nothing; the
mint may fail half way, and where it succeeds it is slpx's. -/
structure Runtime (cfg : Config AccountId) where
  RuntimeCall : Type
  decode : Bytes → Option RuntimeCall
  dispatch : AccountId → RuntimeCall → State cfg → Option (State cfg)
  block : State cfg → Slpx.BlockNumber cfg.slpx
  asyncMint : AccountId → CurrencyId → ℕ → ℕ → ℕ → State cfg →
    Attempt Slpx.Fault (Slpx.State cfg.slpx)
  asyncMint_done : ∀ {caller c n chain input s s'},
    asyncMint caller c n chain input s = (s', none) →
      s.slpx.doAsyncMint (block s) caller c n chain input = .ok s'

namespace State

def depositEvent (s : State cfg) (e : Event AccountId) : State cfg :=
  { s with events := s.events ++ [e] }

def ledger (s : State cfg) : cfg.slpx.minting.currency.Ledger := s.slpx.minting.ledger

def setLedger (s : State cfg) (ledger : cfg.slpx.minting.currency.Ledger) : State cfg :=
  { s with slpx := { s.slpx with minting := { s.slpx.minting with ledger } } }

/-! Incoming requests. -/

/-- The body without the enum variant it starts with; there is no slice of an empty one. -/
def decodeRequest (cfg : Config AccountId) : Bytes → Except Fault RequestBody
  | [] => .error .panic
  | _ :: rest => okOr (cfg.abi.decodeRequest rest)
      (.anyhow "Token Gateway: Failed to decode request body")

def resolve (s : State cfg) (req : PostRequest) (body : RequestBody) : Except Fault Incoming := do
  let localAssetId ← okOr (s.localAssets body.assetId)
    (req.moduleDispatchError "Token Gateway: Unknown asset")
  let ercDecimals ← okOr (s.decimals localAssetId) (.anyhow "Asset decimals not configured")
  let amount ← mapErr
    (convertToBalance body.amount.toNat ercDecimals (cfg.localDecimals localAssetId))
    (ConvertFault.fault
      (req.moduleDispatchError "Token Gateway: Trying to withdraw Invalid amount"))
  pure ⟨body, localAssetId, ercDecimals, amount⟩

def incoming (s : State cfg) (req : PostRequest) : Except Fault Incoming := do
  ensure (req.sender = (s.tokenGatewayAddresses req.source).getD [] ∨
      req.sender = cfg.tokenGatewayId)
    (req.moduleDispatchError "Token Gateway: Unknown source contract address")
  let body ← decodeRequest cfg req.body
  s.resolve req body

/-- An asset of this chain comes out of the gateway's account, any other is minted. -/
def release (s : State cfg) (req : PostRequest) (localAssetId : CurrencyId)
    (beneficiary : AccountId) (amount : ℕ) : Except Fault (State cfg) := do
  let e := req.moduleDispatchError "Token Gateway: Failed to complete asset transfer"
  if s.nativeAssets localAssetId then
    let ledger ← mapErr (cfg.slpx.minting.currency.transfer s.ledger localAssetId
      cfg.palletAccount beneficiary amount) fun _ => e
    pure (s.setLedger ledger)
  else
    let ledger ← mapErr (cfg.slpx.minting.currency.deposit s.ledger localAssetId beneficiary
      amount) fun _ => e
    pure (s.setLedger ledger)

/-- The chain and the amount of a mint, where a listed contract asks for one. -/
def mintOrder (s : State cfg) (req : PostRequest) (body : RequestBody) (callData : Bytes) :
    Option (ℕ × ℕ) :=
  if req.source.isEvm ∧ body.sender.bytes.drop 12 ∈ s.whitelistAddresses req.source then
    cfg.decodeBody callData
  else none

def originOf (cfg : Config AccountId) (req : PostRequest) (body : RequestBody) : AccountId :=
  if req.source.isEvm then cfg.evmToSubstrate (body.sender.bytes.drop 12)
  else cfg.accountOf body.sender

def mintOrdered (rt : Runtime cfg) (s : State cfg) (req : PostRequest) (r : Incoming)
    (fromChainId value : ℕ) : Attempt Fault (State cfg) :=
  match convertToBalance value r.ercDecimals (cfg.localDecimals r.localAssetId) with
  | .error e => (s, some (e.fault
      (req.moduleDispatchError "Token Gateway: Trying to input Invalid v_currency_amount")))
  | .ok input =>
    match rt.asyncMint cfg.palletAccount r.localAssetId r.amount fromChainId input s with
    | (slpx, none) => ({ s with slpx }, none)
    | (slpx, some _) => ({ s with slpx }, some (.anyhow "Failed to async_mint"))

def incAccountNonce (s : State cfg) (who : AccountId) : State cfg :=
  { s with accountNonce := Function.update s.accountNonce who (s.accountNonce who + 1) }

def dispatchCall (rt : Runtime cfg) (s : State cfg) (origin : AccountId) (callData : Bytes) :
    Attempt Fault (State cfg) :=
  match rt.decode callData with
  | none => (s, some (.anyhow "RuntimeCall decode error"))
  | some call =>
    match rt.dispatch origin call s with
    | none => (s, some (.anyhow "Call dispatch executed with error"))
    | some s => (s.incAccountNonce origin, none)

def handleData (rt : Runtime cfg) (s : State cfg) (req : PostRequest) (r : Incoming) :
    Attempt Fault (State cfg) :=
  match r.body.data with
  | none => (s, none)
  | some callData =>
    match s.mintOrder req r.body callData with
    | some (fromChainId, value) => mintOrdered rt s req r fromChainId value
    | none => dispatchCall rt s (originOf cfg req r.body) callData

def onAccept (rt : Runtime cfg) (s : State cfg) (req : PostRequest) : Attempt Fault (State cfg) :=
  match s.incoming req with
  | .error e => (s, some e)
  | .ok r =>
    let beneficiary := cfg.accountOf r.body.recipient
    match s.release req r.localAssetId beneficiary r.amount with
    | .error e => (s, some e)
    | .ok s =>
      match handleData rt s req r with
      | (s, some e) => (s, some e)
      | (s, none) => (s.depositEvent (.assetReceived beneficiary r.amount req.source), none)

def onTimeout (s : State cfg) : Timeout → Except Fault (State cfg)
  | .post req => do
    let body ← decodeRequest cfg req.body
    let r ← s.resolve req body
    let beneficiary := cfg.accountOf body.sender
    let s ← s.release req r.localAssetId beneficiary r.amount
    pure (s.depositEvent (.assetRefunded beneficiary r.amount req.dest))
  | .get source dest nonce | .response source dest nonce =>
    .error (.moduleDispatchError "Tried to timeout unsupported request type" source dest nonce)

/-! Outgoing requests. -/

def dispatch (s : State cfg) (post : DispatchPost) (payer : AccountId) (fee : ℕ) (e : Error) :
    Except Fault (H256 × State cfg) := do
  let (commitment, ledger) ← okOr (cfg.dispatchRequest s.ledger post payer fee) (.pallet e)
  let s := s.setLedger ledger
  pure (commitment, { s with requests := s.requests ++ [(commitment, post)] })

/-- The body of a teleport, with the enum variant it starts with. -/
def teleportBody (cfg : Config AccountId) (assetId : H256) (redeem : Bool) (sender : AccountId)
    (recipient : H256) (ercAmount : ℕ) : Option Calldata → Bytes
  | some data => 0 :: cfg.abi.encodeBodyWithCall
      ⟨⟨.ofNat ercAmount, assetId, redeem, cfg.encode sender, recipient⟩, data⟩
  | none => 0 :: cfg.abi.encodeBody
      ⟨.ofNat ercAmount, assetId, redeem, cfg.encode sender, recipient⟩

def doTeleport (s : State cfg) (currencyId : CurrencyId) (sender : AccountId) (recipient : H256)
    (dest : StateMachine) (amount : Balance) (timeout : ℕ) (data : Option Calldata)
    (payer : AccountId) (fee : ℕ) : Except Fault (H256 × State cfg) := do
  let assetId ← okOr (s.supportedAssets currencyId) (.pallet .unregisteredAsset)
  let decimals := cfg.localDecimals currencyId
  let isNative := s.nativeAssets currencyId
  let ledger ← mapErr (if isNative then
      cfg.slpx.minting.currency.transfer s.ledger currencyId sender cfg.palletAccount amount.val
    else cfg.slpx.minting.currency.withdraw s.ledger currencyId sender amount.val) Fault.token
  let ercDecimals ← okOr (s.decimals currencyId) (.pallet .assetDecimalsNotFound)
  let body := teleportBody cfg assetId (!isNative) sender recipient
    (convertToErc20 amount.val ercDecimals decimals) data
  let tokenGatewayAddress ← okOr (s.tokenGatewayAddresses dest) (.pallet .unregisteredAsset)
  let post : DispatchPost := ⟨dest, cfg.tokenGatewayId, tokenGatewayAddress, timeout, body⟩
  let (commitment, s) ← (s.setLedger ledger).dispatch post payer fee .assetTeleportError
  pure (commitment, s.depositEvent
    (.assetTeleported sender recipient currencyId amount.val dest commitment))

end State

/-! The calls. -/

inductive Origin (AccountId : Type) where
  | signed (who : AccountId)
  | control
  | admin

structure TeleportParams where
  assetId : CurrencyId
  destination : StateMachine
  recepient : H256
  amount : Balance
  timeout : ℕ
  relayerFee : ℕ
  callData : Option Calldata

structure AssetRegistration where
  localId : CurrencyId
  symbol : Bytes
  /-- The registration as it is sent to the governor. -/
  encoded : Bytes

inductive Call (AccountId : Type) where
  | teleport (origin : Origin AccountId) (params : TeleportParams)
  | sendAndCall (currencyId : CurrencyId) (sender : AccountId) (recipient : H256)
      (dest : StateMachine) (amount : Balance) (timeout : ℕ) (data : Option Calldata)
      (payer : AccountId) (fee : ℕ)
  | setTokenGatewayAddresses (origin : Origin AccountId) (addresses : List (StateMachine × Bytes))
  | createErc6160Asset (origin : Origin AccountId) (asset : AssetRegistration) (native : Bool)
  | updateErc6160Asset (origin : Origin AccountId) (encoded : Bytes)
  | setWhitelistAddresses (origin : Origin AccountId)
      (addresses : List (StateMachine × List Bytes))
  | accept (req : PostRequest)
  | timeout (timeout : Timeout)

def ensureControl : Origin AccountId → Except Fault PUnit
  | .control => .ok ⟨⟩
  | _ => .error .badOrigin

def ensureAdmin : Origin AccountId → Except Fault PUnit
  | .admin => .ok ⟨⟩
  | _ => .error .badOrigin

namespace State

/-- The request to the governor, on behalf of the asset admin. -/
def tellGovernor (s : State cfg) (encoded : Bytes) : Except Fault (State cfg) := do
  let dest ← okOr cfg.coprocessor (.pallet .coprocessorNotConfigured)
  let (commitment, s) ← s.dispatch ⟨dest, cfg.tokenGatewayId, cfg.tokenGovernorId, 0, encoded⟩
    cfg.assetAdmin 0 .dispatchError
  pure (s.depositEvent (.erc6160AssetRegistrationDispatched commitment))

def register (s : State cfg) (asset : AssetRegistration) (native : Bool) : State cfg :=
  let assetId := cfg.keccak asset.symbol
  { s with
    supportedAssets := Function.update s.supportedAssets asset.localId (some assetId)
    nativeAssets := Function.update s.nativeAssets asset.localId native
    localAssets := Function.update s.localAssets assetId (some asset.localId)
    decimals := Function.update s.decimals asset.localId (some 18) }

def createErc6160Asset (s : State cfg) (asset : AssetRegistration) (native : Bool) :
    Except Fault (State cfg) := do
  let ledger ← mapErr (cfg.chargeRegistration s.ledger) Fault.token
  ((s.setLedger ledger).register asset native).tellGovernor asset.encoded

def updateErc6160Asset (s : State cfg) (encoded : Bytes) : Except Fault (State cfg) := do
  let ledger ← mapErr (cfg.chargeRegistration s.ledger) Fault.token
  (s.setLedger ledger).tellGovernor encoded

def insertAddress (s : State cfg) (entry : StateMachine × Bytes) : State cfg :=
  { s with
    tokenGatewayAddresses := Function.update s.tokenGatewayAddresses entry.1 (some entry.2) }

def setWhitelist (s : State cfg) (entry : StateMachine × List Bytes) :
    Except Fault (State cfg) := do
  ensure (entry.2.length ≤ cfg.maxLengthLimit) (.pallet .failToConvert)
  let s := { s with
    whitelistAddresses := Function.update s.whitelistAddresses entry.1 entry.2 }
  pure (s.depositEvent (.whitelistReset entry.1 entry.2))

end State

def step (rt : Runtime cfg) (s : State cfg) : Call AccountId → Except Fault (State cfg)
  | .teleport (.signed who) params => do
    let (_, s) ← s.doTeleport params.assetId who params.recepient params.destination
      params.amount params.timeout params.callData who params.relayerFee
    pure s
  | .teleport _ _ => .error .badOrigin
  | .sendAndCall c sender recipient dest amount timeout data payer fee => do
    let (_, s) ← s.doTeleport c sender recipient dest amount timeout data payer fee
    pure s
  | .setTokenGatewayAddresses origin addresses => do
    ensureAdmin origin
    pure (addresses.foldl State.insertAddress s)
  | .createErc6160Asset origin asset native => do
    ensureControl origin
    s.createErc6160Asset asset native
  | .updateErc6160Asset origin encoded => do
    ensureControl origin
    s.updateErc6160Asset encoded
  | .setWhitelistAddresses origin addresses => do
    ensureAdmin origin
    addresses.foldlM State.setWhitelist s
  | .accept req => (State.onAccept rt s req).commit
  | .timeout t => s.onTimeout t

end TokenGateway

end Bifrost
