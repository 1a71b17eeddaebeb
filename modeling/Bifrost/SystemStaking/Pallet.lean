import Bifrost.Lib.Attempt
import Bifrost.VtokenMinting.Pallet

/-!
# The system-staking pallet

`pallets/system-staking` deposits tokens out of nothing, mints vTokens with them and later redeems
the vTokens and withdraws the tokens. Its storage lies outside vtoken-minting, next to the token
accounts, and vtoken-minting calls the pallet back when a redemption is made or paid.

A block hook is no transaction. What a mint or a redemption that is refused there leaves in the
storage of vtoken-minting is left open; neither reaches a callback.
-/

namespace Bifrost.SystemStaking

open Result
set_option autoImplicit false

structure TokenConfig where
  execDelay : ℕ
  systemStakableBase : ℕ
deriving DecidableEq, Inhabited

structure TokenInfo where
  systemStakableAmount : ℕ
  systemShadowAmount : ℕ
  pendingRedeemAmount : ℕ
  currentConfig : TokenConfig
  newConfig : TokenConfig
deriving DecidableEq

instance : Inhabited TokenInfo := ⟨⟨0, 0, 0, ⟨0, 0⟩, ⟨0, 0⟩⟩⟩

namespace TokenInfo

def checkConfigChange (info : TokenInfo) : Bool := info.currentConfig ≠ info.newConfig

def updateConfig (info : TokenInfo) : TokenInfo := { info with currentConfig := info.newConfig }

/-- `system_shadow_amount.saturating_sub(pending_redeem_amount)`. -/
def active (info : TokenInfo) : ℕ := info.systemShadowAmount - info.pendingRedeemAmount

end TokenInfo

structure RoundInfo where
  current : ℕ
  first : ℕ
  length : ℕ
deriving DecidableEq

namespace RoundInfo

def shouldUpdate (r : RoundInfo) (now : ℕ) : Bool := r.length ≤ now - r.first

def update (r : RoundInfo) (now : ℕ) : RoundInfo :=
  { r with current := U32.saturatingAdd r.current 1, first := now }

def checkDelay (r : RoundInfo) (now delay : ℕ) : Bool := now - r.first = delay ∧ delay ≠ 0

end RoundInfo

inductive Error where
  | invalidTokenConfig
  | exceedMaxTokenLen
  | tokenInfoNotFound
  | payoutFailed
deriving DecidableEq

inductive Fault where
  | pallet (e : Error)
  | minting (e : VtokenMinting.Fault)
  | token (e : TokenError)
  | badOrigin
deriving DecidableEq

/-- The storage of the pallet and the block. `created` and `destroyed` are not stored: they add up
what `process_token_info` deposits and what `on_redeem_success` withdraws. -/
structure Storage where
  round : Option RoundInfo
  tokenStatus : CurrencyId → Option TokenInfo
  tokenList : List CurrencyId
  blockNumber : ℕ
  created : CurrencyId → ℕ
  destroyed : CurrencyId → ℕ

namespace Storage

variable (st : Storage)

def info (c : CurrencyId) : TokenInfo := (st.tokenStatus c).getD default

def setStatus (c : CurrencyId) (info : TokenInfo) : Storage :=
  { st with tokenStatus := Function.update st.tokenStatus c (some info) }

def create (c : CurrencyId) (n : ℕ) : Storage :=
  { st with created := Function.update st.created c (st.created c + n) }

def destroy (c : CurrencyId) (n : ℕ) : Storage :=
  { st with destroyed := Function.update st.destroyed c (st.destroyed c + n) }

end Storage

variable {AccountId : Type}

/-- The runtime's choices. `outside` are those of vtoken-minting and its traits, over the storage
outside both pallets; its callbacks are not used. -/
structure Runtime (AccountId : Type) where
  outside : VtokenMinting.Config AccountId
  palletAccount : AccountId
  benefitReceivingAccount : AccountId
  blocksPerRound : ℕ
  maxTokenLen : ℕ

/-- The storage outside vtoken-minting. -/
abbrev Runtime.World (R : Runtime AccountId) := R.outside.currency.Ledger × Storage

section Callbacks

variable [DecidableEq AccountId] (R : Runtime AccountId) (w : R.World)

def onRedeemed (address : AccountId) (tokenId : CurrencyId) (tokenAmount : ℕ) : R.World :=
  if R.palletAccount ≠ address then w
  else
    let info := w.2.info tokenId
    let pending := U128.saturatingAdd info.pendingRedeemAmount tokenAmount
    (w.1, w.2.setStatus tokenId { info with pendingRedeemAmount := pending })

def onRedeemSuccess (tokenId : CurrencyId) (to_ : AccountId) (tokenAmount : ℕ) : R.World :=
  if R.palletAccount ≠ to_ then w
  else
    let info := w.2.info tokenId
    let info := { info with pendingRedeemAmount := info.pendingRedeemAmount - tokenAmount }
    match R.outside.currency.withdraw w.1 tokenId to_ tokenAmount with
    | .ok L =>
      let shadow := info.systemShadowAmount - tokenAmount
      (L, (w.2.destroy tokenId tokenAmount).setStatus tokenId
        { info with systemShadowAmount := shadow })
    | .error _ => (w.1, w.2.setStatus tokenId info)

end Callbacks

/-- A trait acts on what is outside both pallets. -/
def Runtime.outer {R : Runtime AccountId} {ε : Type} (w : R.World)
    (r : Except ε R.outside.currency.Ledger) : Except ε R.World :=
  r.map (·, w.2)

/-- vtoken-minting with the callbacks of this pallet. -/
def Runtime.minting [DecidableEq AccountId] (R : Runtime AccountId) :
    VtokenMinting.Config AccountId where
  currency := R.outside.currency.alongside Storage
  entranceAccount := R.outside.entranceAccount
  feeAccount := R.outside.feeAccount
  redeemFeeAccount := R.outside.redeemFeeAccount
  limits := R.outside.limits
  moonbeamChainId := R.outside.moonbeamChainId
  getHyperbridgePayerAndFee := fun (w : R.World) => R.outside.getHyperbridgePayerAndFee w.1
  getMoonbeamTransferToFee := fun (w : R.World) => R.outside.getMoonbeamTransferToFee w.1
  sendAndCall := fun (w : R.World) c source receiver dest n payer fee =>
    R.outer w (R.outside.sendAndCall w.1 c source receiver dest n payer fee)
  xcmTransfer := fun (w : R.World) source c n dest =>
    R.outer w (R.outside.xcmTransfer w.1 source c n dest)
  xcmTransferMulticurrencies := fun (w : R.World) source assets feeItem dest =>
    R.outer w (R.outside.xcmTransferMulticurrencies w.1 source assets feeItem dest)
  onRedeemSuccess := onRedeemSuccess R
  onRedeemed := fun w address c n _ _ => onRedeemed R w address c n
  recordMintAmount := fun (w : R.World) channel v n =>
    R.outer w (R.outside.recordMintAmount w.1 channel v n)
  recordRedeemAmount := fun (w : R.World) v n => R.outer w (R.outside.recordRedeemAmount w.1 v n)

/-- `refusedMint` and `refusedRedeem` leave what a mint or a redemption wrote before it was
refused. -/
structure Config (AccountId : Type) [DecidableEq AccountId] extends Runtime AccountId where
  refusedMint : VtokenMinting.State toRuntime.minting → CurrencyId → ℕ →
    VtokenMinting.State toRuntime.minting
  refusedRedeem : VtokenMinting.State toRuntime.minting → CurrencyId → ℕ →
    VtokenMinting.State toRuntime.minting

variable [DecidableEq AccountId]

/-- The storage of vtoken-minting, outside of which lies that of the pallet. -/
abbrev State (cfg : Config AccountId) := VtokenMinting.State cfg.minting

namespace State

variable {cfg : Config AccountId} (s : State cfg)

def world : cfg.World := s.ledger

def tokens : cfg.outside.currency.Ledger := s.world.1

def storage : Storage := s.world.2

def withWorld (w : cfg.World) : State cfg := { s with ledger := w }

def withStorage (st : Storage) : State cfg := s.withWorld (s.tokens, st)

def setStatus (c : CurrencyId) (info : TokenInfo) : State cfg :=
  s.withStorage (s.storage.setStatus c info)

end State

section Pallet

variable {cfg : Config AccountId} (s : State cfg)

/-- What a mint that is refused leaves: it touches no unlock ledger. -/
def afterRefusedMint (c : CurrencyId) (n : ℕ) : State cfg :=
  let left : State cfg := { cfg.refusedMint s c n with unlockLedgers := s.unlockLedgers }
  left.withStorage s.storage

def afterRefusedRedeem (v : CurrencyId) (n : ℕ) : State cfg :=
  let left : State cfg := cfg.refusedRedeem s v n
  left.withStorage s.storage

def topUp (info : TokenInfo) (tokenId : CurrencyId) (mintAmount : ℕ) :
    Attempt Fault (State cfg) :=
  match cfg.outside.currency.deposit s.tokens tokenId cfg.palletAccount mintAmount with
  | .error e => (s, some (.token e))
  | .ok L =>
    let s := s.withWorld (L, s.storage.create tokenId mintAmount)
    match VtokenMinting.doMint s cfg.palletAccount tokenId mintAmount none with
    | .error e => (afterRefusedMint s tokenId mintAmount, some (.minting e))
    | .ok (_, _, s) =>
      let shadow := U128.saturatingAdd info.systemShadowAmount mintAmount
      (State.setStatus s tokenId { info with systemShadowAmount := shadow }, none)

def redeemExcess (info : TokenInfo) (tokenId : CurrencyId) (redeemAmount : ℕ) :
    Attempt Fault (State cfg) :=
  match VtokenMinting.State.convertToVtoken s tokenId with
  | .error _ => (s.setStatus tokenId info, none)
  | .ok v =>
    match VtokenMinting.State.getVCurrencyAmountByCurrencyAmount s tokenId v redeemAmount with
    | .error e => (s, some (.minting e))
    | .ok vAmount =>
      if vAmount = 0 then (s.setStatus tokenId info, none)
      else
        match VtokenMinting.doRedeem s cfg.palletAccount none v vAmount .native with
        | .error e => (afterRefusedRedeem s v vAmount, some (.minting e))
        | .ok s =>
          let pending := ((State.storage s).info tokenId).pendingRedeemAmount
          (State.setStatus s tokenId { info with pendingRedeemAmount := pending }, none)

def processTokenInfo (info : TokenInfo) (tokenId : CurrencyId) : Attempt Fault (State cfg) :=
  let stakable := info.currentConfig.systemStakableBase
  let info := { info with systemStakableAmount := stakable }
  let s := s.setStatus tokenId info
  if info.active < stakable then topUp s info tokenId (stakable - info.active)
  else if stakable < info.active then redeemExcess s info tokenId (info.active - stakable)
  else (s.setStatus tokenId info, none)

def doPayout (token : CurrencyId) : Except Fault (State cfg) := do
  let info ← okOr (s.storage.tokenStatus token) (.pallet .tokenInfoNotFound)
  let v ← mapErr (VtokenMinting.State.convertToVtoken s token)
    fun _ => .pallet .tokenInfoNotFound
  let vfree := cfg.outside.currency.freeBalance s.tokens v cfg.palletAccount
  let free ← mapErr (VtokenMinting.State.getCurrencyAmountByVCurrencyAmount s token v vfree)
    .minting
  let vAmount ← mapErr (VtokenMinting.State.getVCurrencyAmountByCurrencyAmount s token v
    (free - info.systemShadowAmount)) .minting
  let L ← mapErr (cfg.outside.currency.transfer s.tokens v cfg.palletAccount
    cfg.benefitReceivingAccount vAmount) fun _ => .pallet .payoutFailed
  pure (s.withWorld (L, s.storage))

/-! The block hook. -/

def updateConfig (c : CurrencyId) : State cfg :=
  match s.storage.tokenStatus c with
  | none => s
  | some info => if info.checkConfigChange then s.setStatus c info.updateConfig else s

def newRound (round : RoundInfo) : State cfg :=
  let s := s.withStorage { s.storage with round := some round }
  s.storage.tokenList.foldl updateConfig s

def payoutOrFail (c : CurrencyId) : State cfg :=
  match doPayout s c with
  | .ok s => s
  | .error _ => s

/-- The token is due in a block that is its delay after the start of the round. -/
def processDue (round : RoundInfo) (c : CurrencyId) : State cfg :=
  match s.storage.tokenStatus c with
  | none => s
  | some info =>
    if round.checkDelay s.storage.blockNumber info.currentConfig.execDelay then
      payoutOrFail (processTokenInfo s info c).1 c
    else s

def currentRound : RoundInfo :=
  let round := s.storage.round.getD ⟨0, 0, cfg.blocksPerRound⟩
  if round.shouldUpdate s.storage.blockNumber then round.update s.storage.blockNumber else round

def roundStarted : State cfg :=
  if (s.storage.round.getD ⟨0, 0, cfg.blocksPerRound⟩).shouldUpdate s.storage.blockNumber then
    newRound s (currentRound s)
  else s

def onInitialize : State cfg :=
  s.storage.tokenList.foldl (fun s' c => processDue s' (currentRound s) c) (roundStarted s)

def advance : State cfg :=
  s.withStorage { s.storage with blockNumber := s.storage.blockNumber + 1 }

def nextBlock : State cfg := onInitialize (advance s)

/-! The calls. -/

def tokenConfig (token : CurrencyId) (execDelay systemStakableBase : Option ℕ) :
    Except Fault (State cfg) := do
  let info := s.storage.info token
  ensure (execDelay ≠ some 0) (.pallet .invalidTokenConfig)
  let newConfig : TokenConfig := ⟨execDelay.getD info.currentConfig.execDelay,
    systemStakableBase.getD info.currentConfig.systemStakableBase⟩
  let st := s.storage.setStatus token { info with newConfig }
  match s.storage.tokenStatus token with
  | some _ => pure (s.withStorage st)
  | none => do
    ensure (st.tokenList.length < cfg.maxTokenLen) (.pallet .exceedMaxTokenLen)
    pure (s.withStorage { st with tokenList := st.tokenList ++ [token] })

def deleteToken (token : CurrencyId) : State cfg :=
  s.withStorage
    { s.storage with
      tokenStatus := Function.update s.storage.tokenStatus token none
      tokenList := s.storage.tokenList.filter (· ≠ token) }

def refreshTokenInfo (token : CurrencyId) : Except Fault (State cfg) := do
  let info ← okOr (s.storage.tokenStatus token) (.pallet .tokenInfoNotFound)
  let info := if info.checkConfigChange then info.updateConfig else info
  (processTokenInfo s info token).commit

end Pallet

inductive Origin where
  | signed
  | control
deriving DecidableEq

def ensureControl : Origin → Except Fault PUnit
  | .signed => .error .badOrigin
  | .control => pure .unit

/-- The calls of the pallet, those of vtoken-minting, and a new block. -/
inductive Call (cfg : Config AccountId) where
  | tokenConfig (token : CurrencyId) (execDelay systemStakableBase : Option ℕ)
  | deleteToken (token : CurrencyId)
  | refreshTokenInfo (token : CurrencyId)
  | payout (token : CurrencyId)
  | minting (call : VtokenMinting.Call cfg.minting)
  | nextBlock

/-- What happens outside vtoken-minting happens outside this pallet too. -/
def within {cfg : Config AccountId} (s : State cfg) :
    VtokenMinting.Call cfg.minting → VtokenMinting.Call cfg.minting
  | .world w => .world (show cfg.World from ((show cfg.World from w).1, s.storage))
  | call => call

def step {cfg : Config AccountId} (s : State cfg) : Origin × Call cfg → Except Fault (State cfg)
  | (origin, .tokenConfig token execDelay systemStakableBase) => do
    ensureControl origin
    tokenConfig s token execDelay systemStakableBase
  | (origin, .deleteToken token) => do
    ensureControl origin
    pure (deleteToken s token)
  | (origin, .refreshTokenInfo token) => do
    ensureControl origin
    refreshTokenInfo s token
  | (origin, .payout token) => do
    ensureControl origin
    doPayout s token
  | (_, .minting call) => mapErr (VtokenMinting.step s (within s call)) .minting
  | (_, .nextBlock) => pure (nextBlock s)

def genesis (cfg : Config AccountId) (L : cfg.outside.currency.Ledger) : State cfg :=
  VtokenMinting.genesis cfg.minting
    (show cfg.World from (L, ⟨none, fun _ => none, [], 0, fun _ => 0, fun _ => 0⟩))

end Bifrost.SystemStaking
