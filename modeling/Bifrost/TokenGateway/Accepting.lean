import Bifrost.Primitives.Circulation
import Bifrost.TokenGateway.Pallet

/-!
# What a failed request leaves behind

Until its asset is released, an incoming request has written nothing. Whatever fails after that
leaves the asset released: the handler takes nothing back, and only a transaction around it does.
-/

namespace Bifrost.TokenGateway

open Result Machine
set_option autoImplicit false

variable {AccountId : Type} [DecidableEq AccountId] {cfg : Config AccountId}

/-- What a request asks for and the state its release leaves, where it comes that far. -/
def State.released (s : State cfg) (req : PostRequest) : Option (Incoming × State cfg) :=
  match s.incoming req with
  | .error _ => none
  | .ok r =>
    match s.release req r.localAssetId (cfg.accountOf r.body.recipient) r.amount with
    | .error _ => none
    | .ok s => some (r, s)

def Incoming.OrdersMint (r : Incoming) (s : State cfg) (req : PostRequest) : Prop :=
  ∃ callData order, r.body.data = some callData ∧ s.mintOrder req r.body callData = some order

variable {rt : Runtime cfg} {s s' : State cfg} {req : PostRequest}

theorem onAccept_cases (rt : Runtime cfg) (s : State cfg) (req : PostRequest) :
    (s.released req = none ∧ ∃ e, s.onAccept rt req = (s, some e)) ∨
      ∃ r s₁, s.released req = some (r, s₁) ∧
        ((∃ s₂ e, State.handleData rt s₁ req r = (s₂, some e) ∧
          s.onAccept rt req = (s₂, some e)) ∨
        ∃ s₂, State.handleData rt s₁ req r = (s₂, none) ∧
          s.onAccept rt req = (s₂.depositEvent
            (.assetReceived (cfg.accountOf r.body.recipient) r.amount req.source), none)) := by
  unfold State.onAccept State.released
  cases s.incoming req with
  | error e => exact Or.inl ⟨rfl, e, rfl⟩
  | ok r =>
    simp only
    cases s.release req r.localAssetId (cfg.accountOf r.body.recipient) r.amount with
    | error e => exact Or.inl ⟨rfl, e, rfl⟩
    | ok s₁ =>
      refine Or.inr ⟨r, s₁, rfl, ?_⟩
      simp only
      cases State.handleData rt s₁ req r with
      | mk s₂ o =>
        cases o with
        | some e => exact Or.inl ⟨s₂, e, rfl, rfl⟩
        | none => exact Or.inr ⟨s₂, rfl, rfl⟩

namespace Sample

def gateway : Word := .ofNat 7
def alice : Word := .ofNat 1
def dot : CurrencyId := .token .DOT
def dotId : H256 := .ofNat 9

def minting : VtokenMinting.Config Word where
  currency := Tokens.circulatingCurrency Word
  entranceAccount := .ofNat 100
  feeAccount := .ofNat 101
  redeemFeeAccount := .ofNat 102
  limits := ⟨10, 50⟩
  moonbeamChainId := 2004
  getHyperbridgePayerAndFee := fun _ _ => .ok (alice, 0)
  getMoonbeamTransferToFee := fun _ => 0
  sendAndCall := fun L _ _ _ _ _ _ _ => .ok L
  xcmTransfer := fun L _ _ _ _ => .ok L
  xcmTransferMulticurrencies := fun L _ _ _ _ => .ok L
  onRedeemSuccess := fun L _ _ _ => L
  onRedeemed := fun L _ _ _ _ _ => L
  recordMintAmount := fun L _ _ _ => .ok L
  recordRedeemAmount := fun L _ _ => .ok L

def slpx : Slpx.Config Word where
  minting := minting
  reserveAccount := gateway
  maxBlockNumber := 2 ^ 32 - 1
  deposit_credits := by
    intro L L' c a n h d x
    obtain rfl := Except.ok.inj h
    by_cases hx : d = c ∧ x = a
    · obtain ⟨rfl, rfl⟩ := hx
      simp [minting, Tokens.circulatingCurrency, Tokens.setBalance]
    · simp [minting, Tokens.circulatingCurrency, Tokens.setBalance, hx]

def config : Config Word where
  slpx := slpx
  abi := .standard
  accountOf := id
  encode := id
  accountOf_encode := fun _ => rfl
  evmToSubstrate := fun _ => alice
  metadataDecimals := fun _ => none
  tokenGatewayId := [1]
  tokenGovernorId := [2]
  coprocessor := some (.polkadot 3367)
  assetAdmin := .ofNat 200
  maxLengthLimit := 100
  keccak := fun symbol => .ofNat (Bytes.toNat symbol)
  ethabiDecode := fun l => do
    let chainId ← Word.ofPrefix l
    let amount ← Word.ofPrefix (l.drop 32)
    pure (chainId.toNat, amount.toNat)
  chargeRegistration := .ok
  dispatchRequest := fun L post _ _ => some (.ofNat post.body.length, L)
  totalIssuance := Tokens.Circulating.issuance
  transfer_issuance := by
    intro L L' c a b n h d
    rcases Tokens.Circulating.transfer_cases h with ⟨-, rfl⟩ | ⟨-, -, rfl⟩
    · rfl
    · rfl
  deposit_issuance := by
    intro L L' c a n h d
    obtain rfl := Except.ok.inj h
    by_cases hd : d = c
    · simp [hd]
    · simp [hd]
  withdraw_frame := by
    intro L L' c a n d x h hframe
    obtain ⟨-, -, rfl⟩ := Tokens.Circulating.withdraw_cases h
    rcases hframe with hd | hx
    · simp [slpx, minting, Tokens.circulatingCurrency, Tokens.setBalance, hd]
    · simp [slpx, minting, Tokens.circulatingCurrency, Tokens.setBalance, hx]
  record_frame := by
    intro L L' channel v n h
    obtain rfl := Except.ok.inj h
    exact ⟨rfl, rfl⟩
  dispatch_frame := by
    intro L post payer fee commitment L' h c x _
    obtain ⟨-, rfl⟩ := Prod.mk.inj (Option.some.inj h)
    exact Nat.le_refl _
  entrance_ne := by decide
  fee_ne := by decide

/-- No call can be decoded, and a mint is a transaction. -/
def runtime : Runtime config where
  RuntimeCall := Empty
  decode := fun _ => none
  dispatch := fun _ call => nomatch call
  block := fun _ => 20
  asyncMint := fun caller c n chain input s =>
    Attempt.atomic s.slpx (s.slpx.doAsyncMint 20 caller c n chain input)
  asyncMint_done := Attempt.atomic_eq_done.mp

/-- The gateway holds a hundred DOT. -/
def start : State config where
  slpx := Slpx.genesis (VtokenMinting.genesis _ ⟨fun c x => if c = dot ∧ x = gateway then 100 else 0,
    fun c => if c = dot then 100 else 0⟩) ⟨.one, 10⟩
  supportedAssets := fun c => if c = dot then some dotId else none
  nativeAssets := fun c => c = dot
  localAssets := fun id => if id = dotId then some dot else none
  decimals := fun c => if c = dot then some 18 else none
  tokenGatewayAddresses := fun chain => if chain = .evm 1 then some [1] else none
  whitelistAddresses := fun _ => []
  accountNonce := fun _ => 0
  requests := []
  events := []

end Sample

end Bifrost.TokenGateway
