import Bifrost.Lib.Machine
import Bifrost.Lib.Result
import Bifrost.Lib.Table
import Bifrost.Primitives.Integers
import Bifrost.Primitives.MultiCurrency
import Bifrost.Primitives.PerThing

/-!
# The buy-back pallet

Each configured vToken has two schedules. A price is asked for in the block before the work and
stored; in the next block the work is done at that price, and the cursor of the schedule moves on.
Both steps wait for one block number. The block of a buy-back lies at a pseudo-random place in its
cycle.
-/

namespace Bifrost.BuyBack

open Result
set_option autoImplicit false

structure Info where
  minSwapValue : ℕ
  ifAuto : Bool
  proportion : Permill
  buybackDuration : ℕ
  lastBuyback : ℕ
  lastBuybackCycle : ℕ
  addLiquidityDuration : ℕ
  lastAddLiquidity : ℕ
  destructionRatio : Option Permill
  bias : Permill

namespace Info

def liquidityAdded (info : Info) : Info :=
  { info with
    lastAddLiquidity := U32.wrappingAdd info.lastAddLiquidity info.addLiquidityDuration }

def boughtBack (info : Info) (n : ℕ) : Info :=
  { info with
    lastBuybackCycle := U32.saturatingAdd info.lastBuybackCycle info.buybackDuration
    lastBuyback := n }

end Info

inductive Error where
  | notEnoughBalance
  | currencyIdNotExists
  | currencyIdError
  | zeroDuration
  | zeroMinSwapValue
deriving DecidableEq

inductive Fault where
  | pallet (e : Error)
  | conversion
  | token (e : TokenError)
  | dex
  | noMoreBlocks
  | badOrigin
deriving DecidableEq

/-- The currencies, the exchange and the registry of assets; `World` is what they hold. -/
structure Config (AccountId : Type) where
  World : Type
  freeBalance : World → CurrencyId → AccountId → ℕ
  transfer : World → CurrencyId → AccountId → AccountId → ℕ → Except Fault World
  withdraw : World → CurrencyId → AccountId → ℕ → Except Fault World
  AssetId : Type
  tryConvertFrom : CurrencyId → Option AssetId
  /-- The last of the amounts along the path. -/
  getAmountOutByPath : World → ℕ → AssetId × AssetId → Except Fault ℕ
  innerSwapExactAssetsForAssets : World → AccountId → ℕ → ℕ → AssetId × AssetId →
    Except Fault World
  innerAddLiquidity : World → AccountId → AssetId × AssetId → ℕ → ℕ → Except Fault World
  checkVtokenRegistered : TokenSymbol → Bool
  checkVtoken2Registered : UInt8 → Bool
  encode : CurrencyId → List UInt8
  buyBackAccount : AccountId
  /-- The sub-account of the buy-back account that what was bought goes to. -/
  buybackTo : AccountId
  liquidityAccount : AccountId
  /-- The map in the order of its hashed keys. -/
  iter : Table CurrencyId Info → List (CurrencyId × Info)
  iter_perm : ∀ t, (iter t).Perm t.entries

/-- The events of the hook. -/
inductive Event where
  | buyBackFailed (currency : CurrencyId) (block : ℕ)
  | buyBackSuccess (currency : CurrencyId) (block : ℕ)
  | addLiquidityFailed (currency : CurrencyId) (block : ℕ)
  | addLiquiditySuccess (currency : CurrencyId) (block : ℕ)
  | setSwapOutMinFailed (currency : CurrencyId) (block : ℕ)
  | setSwapOutMinSuccess (currency : CurrencyId) (block : ℕ)
deriving DecidableEq

/-- `events` has the last event first. -/
structure State {AccountId : Type} (cfg : Config AccountId) where
  infos : Table CurrencyId Info
  swapOutMin : Table CurrencyId ℕ
  addLiquiditySwapOutMin : Table CurrencyId ℕ
  events : List Event
  world : cfg.World
  now : ℕ

inductive Origin (AccountId : Type) where
  | signed (who : AccountId)
  | control

variable {AccountId : Type} (cfg : Config AccountId)

def bnc : CurrencyId := .native .BNC

def getPath (currency : CurrencyId) : Except Fault (cfg.AssetId × cfg.AssetId) := do
  let assetId ← okOr (cfg.tryConvertFrom currency) .conversion
  let bncAssetId ← okOr (cfg.tryConvertFrom bnc) .conversion
  pure (assetId, bncAssetId)

def checkCurrencyId : CurrencyId → Except Fault PUnit
  | .vToken symbol => ensure (cfg.checkVtokenRegistered symbol) (.pallet .currencyIdNotExists)
  | .vToken2 id => ensure (cfg.checkVtoken2Registered id) (.pallet .currencyIdNotExists)
  | _ => .error (.pallet .currencyIdError)

def currencySeed (currency : CurrencyId) : ℕ :=
  ((cfg.encode currency).take 4).zipIdx.foldl
    (fun seed byte => seed ||| byte.1.toNat <<< (byte.2 * 8)) 0

/-- The block of the next buy-back, counted from the start of the cycle. -/
def getTargetBlock (lastBlockNumber : ℕ) (currency : CurrencyId) (duration : ℕ) : ℕ :=
  let combinedSeed := U32.saturatingAdd lastBlockNumber (currencySeed cfg currency)
  let effectiveDuration := duration - 1
  if effectiveDuration = 0 then 1 else combinedSeed % effectiveDuration + 1

def amountOutMin (info : Info) (swapOutMin : ℕ) : ℕ := swapOutMin - info.bias.mul swapOutMin

def buyBack (world : cfg.World) (currency : CurrencyId) (info : Info) (swapOutMin : ℕ) :
    Except Fault cfg.World := do
  let balance := cfg.freeBalance world currency cfg.buyBackAccount
  ensure (info.minSwapValue ≤ balance) (.pallet .notEnoughBalance)
  let path ← getPath cfg currency
  let world ← cfg.innerSwapExactAssetsForAssets world cfg.buyBackAccount info.minSwapValue
    (amountOutMin info swapOutMin) path
  let world ← match info.destructionRatio with
    | some ratio =>
      let destructionAmount := ratio.mul (cfg.freeBalance world bnc cfg.buyBackAccount)
      cfg.withdraw world bnc cfg.buyBackAccount destructionAmount
    | none => pure world
  let bncBalance := cfg.freeBalance world bnc cfg.buyBackAccount
  cfg.transfer world bnc cfg.buyBackAccount cfg.buybackTo bncBalance

def addLiquidity (world : cfg.World) (currency : CurrencyId) (info : Info) (swapOutMin : ℕ) :
    Except Fault cfg.World := do
  let path ← getPath cfg currency
  let balance := cfg.freeBalance world currency cfg.liquidityAccount
  let tokenBalance := info.proportion.mul balance
  ensure (0 < tokenBalance) (.pallet .notEnoughBalance)
  let world ← cfg.innerSwapExactAssetsForAssets world cfg.liquidityAccount tokenBalance
    (amountOutMin info swapOutMin) path
  let remainingBalance := cfg.freeBalance world currency cfg.liquidityAccount
  let bncBalance := cfg.freeBalance world bnc cfg.liquidityAccount
  cfg.innerAddLiquidity world cfg.liquidityAccount path remainingBalance bncBalance

def quoteBuyBack (world : cfg.World) (currency : CurrencyId) (info : Info) : Except Fault ℕ := do
  let path ← getPath cfg currency
  cfg.getAmountOutByPath world info.minSwapValue path

def quoteAddLiquidity (world : cfg.World) (currency : CurrencyId) (info : Info) :
    Except Fault ℕ := do
  let path ← getPath cfg currency
  let balance := cfg.freeBalance world currency cfg.liquidityAccount
  let tokenBalance := info.proportion.mul balance
  ensure (0 < tokenBalance) (.pallet .notEnoughBalance)
  cfg.getAmountOutByPath world tokenBalance path

variable {cfg}

namespace State

variable (s : State cfg)

def depositEvent (e : Event) : State cfg := { s with events := e :: s.events }

def setSwapOutMin (currency : CurrencyId) (info : Info) : Except Fault (State cfg) := do
  let amount ← quoteBuyBack cfg s.world currency info
  pure { s with swapOutMin := s.swapOutMin.write currency (some amount) }

def setAddLiquiditySwapOutMin (currency : CurrencyId) (info : Info) : Except Fault (State cfg) := do
  let amount ← quoteAddLiquidity cfg s.world currency info
  let quotes := s.addLiquiditySwapOutMin.write currency (some amount)
  pure { s with addLiquiditySwapOutMin := quotes }

/-- The work in a block; where it fails, only its event is left. -/
def tryAddLiquidity (n : ℕ) (currency : CurrencyId) (info : Info) (swapOutMin : ℕ) : State cfg :=
  match addLiquidity cfg s.world currency info swapOutMin with
  | .error _ => s.depositEvent (.addLiquidityFailed currency n)
  | .ok world => { s with world }.depositEvent (.addLiquiditySuccess currency n)

def tryBuyBack (n : ℕ) (currency : CurrencyId) (info : Info) (swapOutMin : ℕ) : State cfg :=
  match buyBack cfg s.world currency info swapOutMin with
  | .error _ => s.depositEvent (.buyBackFailed currency n)
  | .ok world => { s with world }.depositEvent (.buyBackSuccess currency n)

/-- The first `match` of the hook; the schedule it leaves goes on to the second. -/
def serviceLiquidity (n : ℕ) (currency : CurrencyId) (info : Info) : State cfg × Info :=
  let targetBlock := U32.wrappingAdd info.lastAddLiquidity info.addLiquidityDuration
  if targetBlock - 1 = n then
    match s.setAddLiquiditySwapOutMin currency info with
    | .error _ => (s.depositEvent (.setSwapOutMinFailed currency n), info)
    | .ok s' => (s'.depositEvent (.setSwapOutMinSuccess currency n), info)
  else if targetBlock = n then
    match s.addLiquiditySwapOutMin.get currency with
    | some swapOutMin =>
      let s' := s.tryAddLiquidity n currency info swapOutMin
      ({ s' with
        infos := s'.infos.write currency (some info.liquidityAdded)
        addLiquiditySwapOutMin := s'.addLiquiditySwapOutMin.write currency none },
        info.liquidityAdded)
    | none => (s, info)
  else (s, info)

def serviceBuyback (n : ℕ) (currency : CurrencyId) (info : Info) : State cfg :=
  if n ≤ info.lastBuybackCycle then s
  else
    let targetBlock := getTargetBlock cfg info.lastBuyback currency info.buybackDuration
    if targetBlock = n - info.lastBuybackCycle then
      match s.setSwapOutMin currency info with
      | .error _ => s.depositEvent (.setSwapOutMinFailed currency n)
      | .ok s' => s'.depositEvent (.setSwapOutMinSuccess currency n)
    else if targetBlock = n - info.lastBuybackCycle - 1 then
      match s.swapOutMin.get currency with
      | some swapOutMin =>
        let s' := s.tryBuyBack n currency info swapOutMin
        { s' with
          infos := s'.infos.write currency (some (info.boughtBack n))
          swapOutMin := s'.swapOutMin.write currency none }
      | none => s
    else s

def service (n : ℕ) (s : State cfg) (e : CurrencyId × Info) : State cfg :=
  if e.2.ifAuto then
    let r := s.serviceLiquidity n e.1 e.2
    r.1.serviceBuyback n e.1 r.2
  else s

def onInitialize : State cfg := (cfg.iter s.infos).foldl (service s.now) s

/-! The calls. -/

def setVtoken (currency : CurrencyId) (minSwapValue : ℕ) (proportion : Permill)
    (buybackDuration addLiquidityDuration : ℕ) (ifAuto : Bool) (destructionRatio : Option Permill)
    (bias : Permill) : Except Fault (State cfg) := do
  checkCurrencyId cfg currency
  ensure (0 < minSwapValue) (.pallet .zeroMinSwapValue)
  ensure (0 < buybackDuration) (.pallet .zeroDuration)
  ensure (0 < addLiquidityDuration) (.pallet .zeroDuration)
  let info : Info := {
    minSwapValue, ifAuto, proportion, buybackDuration, addLiquidityDuration, destructionRatio, bias
    lastBuyback := s.now
    lastBuybackCycle := s.now
    lastAddLiquidity := s.now }
  pure { s with infos := s.infos.write currency (some info) }

def charge (exchanger : AccountId) (currency : CurrencyId) (value : ℕ) :
    Except Fault (State cfg) := do
  checkCurrencyId cfg currency
  let world ← cfg.transfer s.world currency exchanger cfg.buyBackAccount value
  pure { s with world }

def removeVtoken (currency : CurrencyId) : Except Fault (State cfg) := do
  ensure ((s.infos.get currency).isSome) (.pallet .currencyIdNotExists)
  pure { s with infos := s.infos.write currency none }

end State

variable (cfg)

/-- Durations are block numbers. -/
inductive Call where
  | setVtoken (currency : CurrencyId) (minSwapValue : ℕ) (proportion : Permill)
      (buybackDuration addLiquidityDuration : UInt32) (ifAuto : Bool)
      (destructionRatio : Option Permill) (bias : Permill)
  | charge (currency : CurrencyId) (value : ℕ)
  | removeVtoken (currency : CurrencyId)
  /-- The next block begins. -/
  | block
  /-- Balances and pools move on. -/
  | outside (world : cfg.World)

variable {cfg}

/-- A call by an origin; a call that fails changes nothing. -/
def step (s : State cfg) (call : Origin AccountId × Call cfg) : Except Fault (State cfg) :=
  match call with
  | (.control, .setVtoken currency minSwapValue proportion buybackDuration addLiquidityDuration
      ifAuto destructionRatio bias) =>
    s.setVtoken currency minSwapValue proportion buybackDuration.toNat addLiquidityDuration.toNat
      ifAuto destructionRatio bias
  | (.signed who, .charge currency value) => s.charge who currency value
  | (.control, .removeVtoken currency) => s.removeVtoken currency
  | (_, .block) => do
    let now ← okOr (U32.checkedAdd s.now 1) .noMoreBlocks
    pure { s with now }.onInitialize
  | (_, .outside world) => pure { s with world }
  | _ => .error .badOrigin

def State.start (cfg : Config AccountId) (world : cfg.World) (now : UInt32) : State cfg :=
  ⟨∅, ∅, ∅, [], world, now.toNat⟩

end Bifrost.BuyBack
