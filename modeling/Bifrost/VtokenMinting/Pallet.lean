import Bifrost.Lib.Machine
import Bifrost.Primitives.MultiCurrency
import Bifrost.VtokenMinting.UnlockLedgers

/-!
# The vtoken-minting pallet

Storage, helpers and calls of `pallets/vtoken-minting`, without the incentive locks. What
the pallet reaches through traits (balances, XCM, HyperBridge, commissions, the staking
hooks) acts on the ledger of `MultiCurrency`, which stands for all storage outside the
pallet.
-/

namespace Bifrost.VtokenMinting

open Result
set_option autoImplicit false

inductive RedeemTo (AccountId : Type) where
  | native (receiver : AccountId)
  | astar (receiver : AccountId)
  | moonbeam (receiver : ℕ)
  | hydradx (receiver : AccountId)
  | interlay (receiver : AccountId)
  | manta (receiver : AccountId)
  | hyperBridge (dest : ℕ) (receiver : ℕ)
deriving DecidableEq

/-- An error of the pallet, of `MultiCurrency`, or of another trait. -/
inductive Fault where
  | pallet (e : Error)
  | token (e : TokenError)
  | external (code : ℕ)
deriving DecidableEq, Repr

structure VTokenTokenConfig where
  token : CurrencyId
  redeemEnabled : Bool
deriving DecidableEq, Repr

/-- An XCM location: a parachain and an account on it, of 32 bytes or an `H160`. -/
structure Location (AccountId : Type) where
  parachain : ℕ
  account : AccountId ⊕ ℕ

inductive Event (AccountId : Type) where
  | minted (minter : AccountId) (currencyId : CurrencyId)
      (currencyAmount vCurrencyAmount mintFee : ℕ) (channelId : Option ℕ)
  | redeemed (redeemer : AccountId) (currencyId : CurrencyId)
      (currencyAmount vCurrencyAmount redeemFee unlockId : ℕ)
  | redeemSuccess (redeemer : AccountId) (unlockId : ℕ) (currencyId : CurrencyId)
      (receiver : RedeemTo AccountId) (currencyAmount : ℕ)
  | rebonded (rebonder : AccountId) (currencyId : CurrencyId)
      (currencyAmount vCurrencyAmount fee : ℕ)
  | rebondedByUnlockId (rebonder : AccountId) (currencyId : CurrencyId)
      (currencyAmount vCurrencyAmount fee unlockId : ℕ)
  | fastRedeemFailed (err : Fault)
  | vtokenIssuanceSet (vCurrencyId : CurrencyId) (issuance : ℕ)
  | vTokenMultiMapSet (vtoken : CurrencyId) (tokenConfigs : List VTokenTokenConfig)
  | incentivizedMinting (address : AccountId) (currencyId : CurrencyId)
      (currencyAmount lockedVtokenAmount incentiveVtokenAmount : ℕ)
  | vtokenIncentiveCoefSet (vCurrencyId : CurrencyId) (coefficient : Option ℕ)
  | vtokenIncentiveLockBlocksSet (vCurrencyId : CurrencyId) (blocks : Option ℕ)
deriving DecidableEq

structure Config (AccountId : Type) where
  currency : MultiCurrency AccountId
  entranceAccount : AccountId
  feeAccount : AccountId
  redeemFeeAccount : AccountId
  limits : Limits
  moonbeamChainId : ℕ
  getHyperbridgePayerAndFee : currency.Ledger → ℕ → Except ℕ (AccountId × ℕ)
  getMoonbeamTransferToFee : currency.Ledger → ℕ
  sendAndCall : currency.Ledger → CurrencyId → AccountId → ℕ → ℕ → ℕ → AccountId → ℕ →
    Except ℕ currency.Ledger
  xcmTransfer : currency.Ledger → AccountId → CurrencyId → ℕ → Location AccountId →
    Except ℕ currency.Ledger
  xcmTransferMulticurrencies : currency.Ledger → AccountId → List (CurrencyId × ℕ) → ℕ →
    Location AccountId → Except ℕ currency.Ledger
  onRedeemSuccess : currency.Ledger → CurrencyId → AccountId → ℕ → currency.Ledger
  onRedeemed : currency.Ledger → AccountId → CurrencyId → ℕ → ℕ → ℕ → currency.Ledger
  recordMintAmount : currency.Ledger → Option ℕ → CurrencyId → ℕ → Except ℕ currency.Ledger
  recordRedeemAmount : currency.Ledger → CurrencyId → ℕ → Except ℕ currency.Ledger

variable {AccountId : Type}

structure State (cfg : Config AccountId) where
  /-- The mint fee and the redeem fee. -/
  fees : Permill × Permill
  tokenPool : CurrencyId → ℕ
  unlockDuration : CurrencyId → Option TimeUnit
  ongoingTimeUnit : Table CurrencyId TimeUnit
  minimumMint : CurrencyId → Option ℕ
  minimumRedeem : CurrencyId → Option ℕ
  tokenUnlockNextId : CurrencyId → ℕ
  unlockLedgers : CurrencyId → UnlockLedgers AccountId
  tokenToRebond : CurrencyId → Option ℕ
  minTimeUnit : CurrencyId → TimeUnit
  vtokenIssuance : CurrencyId → ℕ
  hookIterationLimit : ℕ
  vTokenToTokens : CurrencyId → Option (List VTokenTokenConfig)
  tokenToVToken : CurrencyId → Option CurrencyId
  ledger : cfg.currency.Ledger
  events : List (Event AccountId)

def astarChainId : ℕ := 2006
def hydrationChainId : ℕ := 2034
def interlayChainId : ℕ := 2032
def mantaChainId : ℕ := 2104

def bnc : CurrencyId := .native .BNC
def fil : CurrencyId := .token2 4
def eth : CurrencyId := .token2 15
def vEth : CurrencyId := .vToken2 15
def hpEth : CurrencyId := .token2 16
def hpBaseEth : CurrencyId := .token2 17
def hpArbEth : CurrencyId := .token2 18
def hpOpEth : CurrencyId := .token2 19

section Helpers

variable {cfg : Config AccountId}

def State.depositEvent (s : State cfg) (e : Event AccountId) : State cfg :=
  { s with events := s.events ++ [e] }

def State.transfer (s : State cfg) (c : CurrencyId) (source dest : AccountId) (n : ℕ) :
    Except Fault (State cfg) := do
  let ledger ← mapErr (cfg.currency.transfer s.ledger c source dest n) Fault.token
  pure { s with ledger := ledger }

def State.getVtokenForToken (s : State cfg) (token : CurrencyId) : Option CurrencyId :=
  s.tokenToVToken token

def State.isRedeemEnabledForToken (s : State cfg) (vtoken token : CurrencyId) : Bool :=
  match s.vTokenToTokens vtoken with
  | some configs => ((configs.find? fun c => c.token = token).map (·.redeemEnabled)).getD false
  | none => false

def State.convertToVtoken (s : State cfg) (currencyId : CurrencyId) : Except Fault CurrencyId :=
  match s.getVtokenForToken currencyId with
  | some vtoken => pure vtoken
  | none =>
    if currencyId = eth ∨ currencyId = hpEth ∨ currencyId = hpBaseEth ∨ currencyId = hpArbEth ∨
        currencyId = hpOpEth then pure vEth
    else okOr currencyId.toVtoken (.pallet .notSupportTokenType)

def State.updateTokenPool (s : State cfg) (currencyId : CurrencyId) (currencyAmount : ℕ)
    (operation : Operation) : Except Fault (State cfg) := do
  let target ← okOr (s.getVtokenForToken currencyId) (.pallet .notSupportTokenType)
  let amount ← mapErr (updateTotal (s.tokenPool target) currencyAmount operation) Fault.pallet
  pure { s with tokenPool := Function.update s.tokenPool target amount }

def State.getVCurrencyIssuanceInner (s : State cfg) (v : CurrencyId) : Except Fault ℕ := do
  ensure v.isVtoken (.pallet .notSupportTokenType)
  pure (s.vtokenIssuance v)

def State.setVCurrencyIssuanceInner (s : State cfg) (v : CurrencyId) (adjustment : ℤ) :
    Except Fault (State cfg) := do
  ensure v.isVtoken (.pallet .notSupportTokenType)
  let operation := if 0 ≤ adjustment then Operation.add else Operation.sub
  let issuance ← mapErr (updateTotal (s.vtokenIssuance v) adjustment.natAbs operation)
    Fault.pallet
  let s := { s with vtokenIssuance := Function.update s.vtokenIssuance v issuance }
  pure (s.depositEvent (.vtokenIssuanceSet v issuance))

/-- `amount.try_into::<i128>()`. -/
def toI128 (amount : ℕ) : Except Fault ℤ := do
  ensure (amount < 2 ^ 127) (.pallet .calculationOverflow)
  pure amount

def State.getTokenPool (s : State cfg) (currencyId : CurrencyId) : ℕ :=
  s.tokenPool ((s.getVtokenForToken currencyId).getD currencyId)

def State.getVCurrencyAmountByCurrencyAmount (s : State cfg) (currencyId vCurrencyId : CurrencyId)
    (currencyAmount : ℕ) : Except Fault ℕ := do
  let issuance ← s.getVCurrencyIssuanceInner vCurrencyId
  if s.getTokenPool currencyId = 0 then
    pure currencyAmount
  else
    okOr (U128.mulDiv currencyAmount issuance (s.getTokenPool currencyId))
      (.pallet .calculationOverflow)

def State.getCurrencyAmountByVCurrencyAmount (s : State cfg) (currencyId vCurrencyId : CurrencyId)
    (vCurrencyAmount : ℕ) : Except Fault ℕ := do
  let issuance ← s.getVCurrencyIssuanceInner vCurrencyId
  if issuance = 0 then
    pure vCurrencyAmount
  else
    okOr (U128.mulDiv vCurrencyAmount (s.getTokenPool currencyId) issuance)
      (.pallet .calculationOverflow)

end Helpers

section Calls

variable [DecidableEq AccountId] {cfg : Config AccountId}

def State.updateUnlockLedger (s : State cfg) (account : AccountId) (c : CurrencyId)
    (currencyAmount unlockId : ℕ) (lockToTimeUnit : TimeUnit)
    (redeemType : Option (RedeemType AccountId)) (operation : Operation) :
    Except Fault (Bool × State cfg) := do
  let (isRemoveRecord, ledgers) ← mapErr ((s.unlockLedgers c).update cfg.limits account
    currencyAmount unlockId lockToTimeUnit redeemType operation) Fault.pallet
  pure (isRemoveRecord, { s with unlockLedgers := Function.update s.unlockLedgers c ledgers })

/-- `mint_without_transfer`: the amount after the fee, the vTokens minted and the fee. -/
def mintWithoutTransfer (s : State cfg) (minter : AccountId) (vCurrencyId currencyId : CurrencyId)
    (currencyAmount : ℕ) : Except Fault (ℕ × ℕ × ℕ × State cfg) := do
  let mintFee := s.fees.1.mulFloor currencyAmount
  let s ← s.transfer currencyId minter cfg.feeAccount mintFee
  let currencyAmount ← okOr (U128.checkedSub currencyAmount mintFee) (.pallet .calculationOverflow)
  let vCurrencyAmount ← s.getVCurrencyAmountByCurrencyAmount currencyId vCurrencyId currencyAmount
  let ledger ← mapErr (cfg.currency.deposit s.ledger vCurrencyId minter vCurrencyAmount)
    Fault.token
  let s := { s with ledger := ledger }
  let s ← s.updateTokenPool currencyId currencyAmount .add
  let adjustment ← toI128 vCurrencyAmount
  let s ← s.setVCurrencyIssuanceInner vCurrencyId adjustment
  pure (currencyAmount, vCurrencyAmount, mintFee, s)

/-- `do_mint`, with the vToken minted and its amount. -/
def doMint (s : State cfg) (minter : AccountId) (currencyId : CurrencyId) (currencyAmount : ℕ)
    (channelId : Option ℕ) : Except Fault (CurrencyId × ℕ × State cfg) := do
  ensure ((s.minimumMint currencyId).getD 0 ≤ currencyAmount) (.pallet .belowMinimumMint)
  let vCurrencyId ← okOr (s.getVtokenForToken currencyId) (.pallet .notSupportTokenType)
  let (excludingFee, vCurrencyAmount, mintFee, s) ←
    mintWithoutTransfer s minter vCurrencyId currencyId currencyAmount
  let s ← s.transfer currencyId minter cfg.entranceAccount excludingFee
  let ledger ← mapErr (cfg.recordMintAmount s.ledger channelId vCurrencyId vCurrencyAmount)
    Fault.external
  let s := { s with ledger := ledger }
  pure (vCurrencyId, vCurrencyAmount, s.depositEvent
    (.minted minter currencyId currencyAmount vCurrencyAmount mintFee channelId))

/-- The token a redemption of a vToken is in: the first part of `do_redeem`. -/
def redeemCurrency (s : State cfg) (currencyId : Option CurrencyId) (vCurrencyId : CurrencyId) :
    Except Fault CurrencyId :=
  match currencyId with
  | some currencyId =>
    match s.getVtokenForToken currencyId with
    | some configVtoken => do
      ensure (configVtoken = vCurrencyId) (.pallet .notSupportTokenType)
      ensure (s.isRedeemEnabledForToken vCurrencyId currencyId) (.pallet .redeemNotEnabled)
      pure currencyId
    | none => do
      let v ← s.convertToVtoken currencyId
      ensure (v = vCurrencyId) (.pallet .notSupportTokenType)
      pure currencyId
  | none =>
    match (s.vTokenToTokens vCurrencyId).bind fun configs => configs.find? (·.redeemEnabled) with
    | some config => pure config.token
    | none => okOr vCurrencyId.toToken (.pallet .notSupportTokenType)

/-- The time unit a redemption of now is locked to. -/
def lockToTimeUnit (s : State cfg) (currencyId : CurrencyId) : Except Fault TimeUnit := do
  let ongoing ← okOr (s.ongoingTimeUnit.get currencyId) (.pallet .ongoingTimeUnitNotSet)
  let duration ← okOr (s.unlockDuration currencyId) (.pallet .unlockDurationNotFound)
  okOr (ongoing.saturatingAdd duration) (.pallet .unlockDurationNotFound)

def doRedeem (s : State cfg) (redeemer : AccountId) (currencyId : Option CurrencyId)
    (vCurrencyId : CurrencyId) (vCurrencyAmount : ℕ) (redeemType : RedeemType AccountId) :
    Except Fault (State cfg) := do
  let currencyId ← redeemCurrency s currencyId vCurrencyId
  ensure ((s.minimumRedeem vCurrencyId).getD 0 ≤ vCurrencyAmount) (.pallet .belowMinimumRedeem)
  let redeemFee := s.fees.2.mulFloor vCurrencyAmount
  let s ← s.transfer vCurrencyId redeemer cfg.redeemFeeAccount redeemFee
  let vCurrencyAmount ← okOr (U128.checkedSub vCurrencyAmount redeemFee)
    (.pallet .calculationOverflow)
  let currencyAmount ← s.getCurrencyAmountByVCurrencyAmount currencyId vCurrencyId vCurrencyAmount
  let ledger ← mapErr (cfg.currency.withdraw s.ledger vCurrencyId redeemer vCurrencyAmount)
    Fault.token
  let s := { s with ledger := ledger }
  let adjustment ← toI128 vCurrencyAmount
  let s ← s.setVCurrencyIssuanceInner vCurrencyId (-adjustment)
  let timeUnit ← lockToTimeUnit s currencyId
  let s ← s.updateTokenPool currencyId currencyAmount .sub
  let nextId := s.tokenUnlockNextId vCurrencyId
  let (_, s) ← s.updateUnlockLedger redeemer currencyId currencyAmount nextId timeUnit
    (some redeemType) .add
  let s := s.depositEvent
    (.redeemed redeemer currencyId currencyAmount vCurrencyAmount redeemFee nextId)
  ensure (nextId + 1 ≤ u32Max) (.pallet .calculationOverflow)
  let s := { s with
    tokenUnlockNextId := Function.update s.tokenUnlockNextId vCurrencyId (nextId + 1) }
  let ledger ← mapErr (cfg.recordRedeemAmount s.ledger vCurrencyId vCurrencyAmount) Fault.external
  let ledger := cfg.onRedeemed ledger redeemer currencyId currencyAmount vCurrencyAmount redeemFee
  pure { s with ledger := ledger }

/-- The loop of `rebond` over the unlock ids, last first. -/
def rebondLoop (rebonder : AccountId) (c : CurrencyId) :
    List ℕ → ℕ → State cfg → Except Fault (State cfg)
  | [], _, s => pure s
  | unlockId :: ids, temp, s => do
    let r ← okOr ((s.unlockLedgers c).token.get unlockId) (.pallet .tokenUnlockLedgerNotFound)
    let unlockAmount := if temp ≤ r.amount then temp else r.amount
    let temp := if temp ≤ r.amount then temp else temp - r.amount
    let (isRemoveRecord, s) ← s.updateUnlockLedger rebonder c unlockAmount unlockId r.timeUnit none
      .sub
    if isRemoveRecord then rebondLoop rebonder c ids temp s else pure s

/-- `TokenToRebond` takes up a rebonded amount. -/
def State.addToRebond (s : State cfg) (c : CurrencyId) (currencyAmount : ℕ) :
    Except Fault (State cfg) := do
  let rebonded ← okOr (s.tokenToRebond c) (.pallet .invalidRebondToken)
  let rebonded ← okOr (U128.checkedAdd rebonded currencyAmount) (.pallet .calculationOverflow)
  pure { s with tokenToRebond := Function.update s.tokenToRebond c (some rebonded) }

def rebond (s : State cfg) (rebonder : AccountId) (c : CurrencyId) (currencyAmount : ℕ) :
    Except Fault (State cfg) := do
  let vCurrencyId ← s.convertToVtoken c
  let g ← okOr ((s.unlockLedgers c).user.get rebonder) (.pallet .userUnlockLedgerNotFound)
  ensure (currencyAmount ≤ g.total) (.pallet .notEnoughBalanceToUnlock)
  let s ← rebondLoop rebonder c g.ids.reverse currencyAmount s
  let (_, vCurrencyAmount, fee, s) ← mintWithoutTransfer s rebonder vCurrencyId c currencyAmount
  let s ← s.addToRebond c currencyAmount
  pure (s.depositEvent (.rebonded rebonder c currencyAmount vCurrencyAmount fee))

def rebondByUnlockId (s : State cfg) (rebonder : AccountId) (c : CurrencyId) (unlockId : ℕ) :
    Except Fault (State cfg) := do
  let vCurrencyId ← s.convertToVtoken c
  let r ← okOr ((s.unlockLedgers c).token.get unlockId) (.pallet .tokenUnlockLedgerNotFound)
  ensure (r.redeemer = rebonder) (.pallet .canNotRebond)
  let (_, s) ← s.updateUnlockLedger rebonder c r.amount unlockId r.timeUnit none .sub
  let (currencyAmount, vCurrencyAmount, fee, s) ←
    mintWithoutTransfer s rebonder vCurrencyId c r.amount
  let s ← s.addToRebond c currencyAmount
  pure (s.depositEvent (.rebondedByUnlockId rebonder c r.amount vCurrencyAmount fee unlockId))

/-! The redeem queue. -/

/-- The location and receiver of a redemption to a parachain. -/
def parachainDest (cfg : Config AccountId) :
    RedeemType AccountId → Option (Location AccountId × RedeemTo AccountId)
  | .astar receiver => some (⟨astarChainId, .inl receiver⟩, .astar receiver)
  | .hydradx receiver => some (⟨hydrationChainId, .inl receiver⟩, .hydradx receiver)
  | .interlay receiver => some (⟨interlayChainId, .inl receiver⟩, .interlay receiver)
  | .manta receiver => some (⟨mantaChainId, .inl receiver⟩, .manta receiver)
  | .moonbeam receiver => some (⟨cfg.moonbeamChainId, .inr receiver⟩, .moonbeam receiver)
  | .native | .hyperBridge _ _ => none

def sendByXcm (s : State cfg) (c : CurrencyId) (amount : ℕ) (dest : Location AccountId) :
    Except Fault (State cfg) :=
  if c = fil then do
    let ledger ← mapErr (cfg.xcmTransferMulticurrencies s.ledger cfg.entranceAccount
      [(c, amount), (bnc, cfg.getMoonbeamTransferToFee s.ledger)] 1 dest) Fault.external
    pure { s with ledger := ledger }
  else do
    let ledger ← mapErr (cfg.xcmTransfer s.ledger cfg.entranceAccount c amount dest)
      Fault.external
    pure { s with ledger := ledger }

/-- `transfer_to_by_redeem_type` where the entrance account has the whole amount. -/
def payWhole (s : State cfg) (redeemer : AccountId) (c : CurrencyId) (amount : ℕ) :
    RedeemType AccountId → Except Fault (ℕ × RedeemTo AccountId × State cfg)
  | .native =>
    if cfg.currency.minimumBalance c ≤ amount then do
      let s ← s.transfer c cfg.entranceAccount redeemer amount
      pure (amount, .native redeemer, s)
    else pure (amount, .native redeemer, s)
  | .hyperBridge dest receiver => do
    let (payer, fee) ← mapErr (cfg.getHyperbridgePayerAndFee s.ledger dest) Fault.external
    let ledger ← mapErr (cfg.sendAndCall s.ledger c cfg.entranceAccount receiver dest amount payer
      fee) Fault.external
    pure (amount, .hyperBridge dest receiver, { s with ledger := ledger })
  | redeemType =>
    match parachainDest cfg redeemType with
    | none => pure (amount, .native redeemer, s)
    | some (dest, redeemTo) => do
      let s ← sendByXcm s c amount dest
      pure (amount, redeemTo, s)

/-- `transfer_to_by_redeem_type` where it has less: only a local redemption is paid, as far
as the balance goes. -/
def payPart (s : State cfg) (redeemer : AccountId) (c : CurrencyId) (entranceBalance : ℕ) :
    RedeemType AccountId → Except Fault (ℕ × RedeemTo AccountId × State cfg)
  | .native =>
    if cfg.currency.minimumBalance c ≤ entranceBalance then do
      let s ← s.transfer c cfg.entranceAccount redeemer entranceBalance
      pure (entranceBalance, .native redeemer, s)
    else pure (0, .native redeemer, s)
  | _ => pure (0, .native redeemer, s)

def transferToByRedeemType (s : State cfg) (redeemer : AccountId) (c : CurrencyId)
    (amount entranceBalance : ℕ) (redeemType : RedeemType AccountId) :
    Except Fault (ℕ × RedeemTo AccountId × State cfg) :=
  if amount ≤ entranceBalance then payWhole s redeemer c amount redeemType
  else payPart s redeemer c entranceBalance redeemType

def processRedeem (s : State cfg) (c : CurrencyId) (redeemer : AccountId) (unlockId amount
    entranceBalance : ℕ) (timeUnit : TimeUnit) (redeemType : RedeemType AccountId) :
    Except Fault (State cfg) := do
  let (amount, redeemTo, s) ←
    transferToByRedeemType s redeemer c amount entranceBalance redeemType
  if amount = 0 then pure s
  else
    let (_, s) ← s.updateUnlockLedger redeemer c amount unlockId timeUnit none .sub
    let s := { s with ledger := cfg.onRedeemSuccess s.ledger c redeemer amount }
    pure (s.depositEvent (.redeemSuccess redeemer unlockId c redeemTo amount))

def State.entranceBalance (s : State cfg) (c : CurrencyId) : ℕ :=
  cfg.currency.freeBalance s.ledger c cfg.entranceAccount

/-- The loop of `handle_ledger_by_currency` over the ids of the time unit. -/
def processRecords (c : CurrencyId) : List ℕ → State cfg → Except Fault (State cfg)
  | [], s => pure s
  | unlockId :: ids, s =>
    match (s.unlockLedgers c).token.get unlockId with
    | none => processRecords c ids s
    | some r =>
      if s.entranceBalance c = 0 then pure s
      else do
        let s ← processRedeem s c r.redeemer unlockId r.amount (s.entranceBalance c) r.timeUnit
          r.redeemType
        processRecords c ids s

def handleLedgerByCurrency (s : State cfg) (c : CurrencyId) : Except Fault (State cfg) :=
  let timeUnit := s.minTimeUnit c
  match (s.unlockLedgers c).timeUnit.get timeUnit with
  | some g => processRecords c (g.ids.take s.hookIterationLimit) s
  | none => do
    let duration ← okOr (s.unlockDuration c) (.pallet .unlockDurationNotFound)
    let ongoing ← okOr (s.ongoingTimeUnit.get c) (.pallet .ongoingTimeUnitNotSet)
    let result ← okOr (ongoing.saturatingAdd duration) (.pallet .calculationOverflow)
    if result.gt timeUnit then
      pure { s with minTimeUnit := Function.update s.minTimeUnit c timeUnit.addOne }
    else pure s

/-- One currency of `on_idle`: the handling is transactional and its failure an event. -/
def handleOrFail (s : State cfg) (c : CurrencyId) : State cfg :=
  match handleLedgerByCurrency s c with
  | .ok s => s
  | .error err => s.depositEvent (.fastRedeemFailed err)

/-- `on_idle` with weight left. `order` is the order in which `iter_keys` yields the keys of
`OngoingTimeUnit`. -/
def onIdle (s : State cfg) (order : List CurrencyId) : Except Fault (State cfg) := do
  ensure (order.Perm s.ongoingTimeUnit.keys) (.external 0)
  pure (order.foldl handleOrFail s)

/-! The multi map. -/

/-- The tokens of the list get the same entry in `TokenToVToken`. -/
def setEntries (m : CurrencyId → Option CurrencyId) (tokens : List CurrencyId)
    (entry : Option CurrencyId) : CurrencyId → Option CurrencyId :=
  tokens.foldl (fun m t => Function.update m t entry) m

def setVtokenMultimap (s : State cfg) (vtoken : CurrencyId)
    (tokenConfigs : List VTokenTokenConfig) : Except Fault (State cfg) := do
  ensure vtoken.isVtoken (.pallet .notSupportTokenType)
  ensure (tokenConfigs.all fun config => (s.tokenToVToken config.token).getD vtoken = vtoken)
    (.pallet .tokenAlreadyMapped)
  let tokens := tokenConfigs.map VTokenTokenConfig.token
  let old := ((s.vTokenToTokens vtoken).getD []).map VTokenTokenConfig.token
  let s :=
    if tokenConfigs = [] then
      { s with
        vTokenToTokens := Function.update s.vTokenToTokens vtoken none
        tokenToVToken := setEntries s.tokenToVToken old none }
    else
      { s with
        vTokenToTokens := Function.update s.vTokenToTokens vtoken (some tokenConfigs)
        tokenToVToken := setEntries
          (setEntries s.tokenToVToken (old.filter (· ∉ tokens)) none) tokens (some vtoken) }
  pure (s.depositEvent (.vTokenMultiMapSet vtoken tokenConfigs))

/-- The calls of the pallet, the operations other pallets have on its storage, and what
happens outside: `world` is any change of the storage outside the pallet. -/
inductive Call (cfg : Config AccountId) where
  | mint (minter : AccountId) (currencyId : CurrencyId) (currencyAmount : ℕ)
      (channelId : Option ℕ)
  | redeem (redeemer : AccountId) (currencyId : Option CurrencyId) (vCurrencyId : CurrencyId)
      (vCurrencyAmount : ℕ) (redeemType : RedeemType AccountId)
  | rebond (rebonder : AccountId) (currencyId : CurrencyId) (currencyAmount : ℕ)
  | rebondByUnlockId (rebonder : AccountId) (currencyId : CurrencyId) (unlockId : ℕ)
  | onIdle (order : List CurrencyId)
  | setUnlockDuration (currencyId : CurrencyId) (unlockDuration : TimeUnit)
  | setMinimumMint (currencyId : CurrencyId) (minimumAmount : ℕ)
  | setMinimumRedeem (currencyId : CurrencyId) (minimumAmount : ℕ)
  | addSupportRebondToken (currencyId : CurrencyId)
  | removeSupportRebondToken (currencyId : CurrencyId)
  | setFees (mintFee redeemFee : Permill)
  | setHookIterationLimit (limit : ℕ)
  | setUnlockingTotal (currencyId : CurrencyId) (currencyAmount : ℕ)
  | setMinTimeUnit (currencyId : CurrencyId) (timeUnit : TimeUnit)
  | setOngoingTimeUnit (currencyId : CurrencyId) (timeUnit : TimeUnit)
  | setVtokenMultimap (vtoken : CurrencyId) (tokenConfigs : List VTokenTokenConfig)
  | setVCurrencyIssuance (vCurrencyId : CurrencyId) (adjustment : ℤ)
  | increaseTokenPool (currencyId : CurrencyId) (currencyAmount : ℕ)
  | decreaseTokenPool (currencyId : CurrencyId) (currencyAmount : ℕ)
  | world (ledger : cfg.currency.Ledger)

def step (s : State cfg) : Call cfg → Except Fault (State cfg)
  | .mint who c n channel => do
    let (_, _, s) ← doMint s who c n channel
    pure s
  | .redeem who c v n redeemType => doRedeem s who c v n redeemType
  | .rebond who c n => rebond s who c n
  | .rebondByUnlockId who c id => rebondByUnlockId s who c id
  | .onIdle order => onIdle s order
  | .setUnlockDuration c d =>
    pure { s with unlockDuration := Function.update s.unlockDuration c (some d) }
  | .setMinimumMint c n => pure { s with minimumMint := Function.update s.minimumMint c (some n) }
  | .setMinimumRedeem c n =>
    pure { s with minimumRedeem := Function.update s.minimumRedeem c (some n) }
  | .addSupportRebondToken c => do
    ensure (s.tokenToRebond c = none) (.pallet .invalidRebondToken)
    pure { s with tokenToRebond := Function.update s.tokenToRebond c (some 0) }
  | .removeSupportRebondToken c => do
    ensure (s.tokenToRebond c ≠ none) (.pallet .invalidRebondToken)
    pure { s with tokenToRebond := Function.update s.tokenToRebond c none }
  | .setFees mintFee redeemFee => pure { s with fees := (mintFee, redeemFee) }
  | .setHookIterationLimit limit => pure { s with hookIterationLimit := limit }
  | .setUnlockingTotal c n => do
    let total ← mapErr (updateTotal (s.unlockLedgers c).unlockingTotal n .set) Fault.pallet
    let ledgers := { s.unlockLedgers c with unlockingTotal := total }
    pure { s with unlockLedgers := Function.update s.unlockLedgers c ledgers }
  | .setMinTimeUnit c t => pure { s with minTimeUnit := Function.update s.minTimeUnit c t }
  | .setOngoingTimeUnit c t =>
    pure { s with ongoingTimeUnit := s.ongoingTimeUnit.write c (some t) }
  | .setVtokenMultimap v configs => setVtokenMultimap s v configs
  | .setVCurrencyIssuance v adjustment => s.setVCurrencyIssuanceInner v adjustment
  | .increaseTokenPool c n => s.updateTokenPool c n .add
  | .decreaseTokenPool c n => s.updateTokenPool c n .sub
  | .world ledger => pure { s with ledger := ledger }

def genesis (cfg : Config AccountId) (ledger : cfg.currency.Ledger) : State cfg where
  fees := (.zero, .zero)
  tokenPool := fun _ => 0
  unlockDuration := fun _ => none
  ongoingTimeUnit := ∅
  minimumMint := fun _ => none
  minimumRedeem := fun _ => none
  tokenUnlockNextId := fun _ => 0
  unlockLedgers := fun _ => ∅
  tokenToRebond := fun _ => none
  minTimeUnit := fun _ => default
  vtokenIssuance := fun _ => 0
  hookIterationLimit := 0
  vTokenToTokens := fun _ => none
  tokenToVToken := fun _ => none
  ledger := ledger
  events := []

end Calls

end Bifrost.VtokenMinting
