import Bifrost.Lib.Result
import Bifrost.Primitives.Currencies
import Bifrost.StableAsset.Curve

/-!
# Storage and quotes of the stable-asset pallet

The pools of `pallets/stable-asset` and what a call on one of them computes before it moves
anything. The lists of a pool have one length, so the loops over them run over pairs.
-/

namespace Bifrost.StableAsset

open Result
set_option autoImplicit false

inductive Error where
  | inconsistentStorage
  | invalidPoolAsset
  | argumentsMismatch
  | argumentsError
  | poolNotFound
  | math
  | invalidPoolValue
  | mintUnderMin
  | swapUnderMin
  | redeemUnderMin
  | redeemOverMax
  | tokenRateNotCleared
deriving DecidableEq, Repr

inductive Fault where
  | pallet (e : Error)
  | overflow
  | token (e : TokenError)
deriving DecidableEq, Repr

/-- The runtime's choices. `subAccount` derives the account of a pool from its id. -/
structure Config (AccountId : Type) where
  currencies : Currencies AccountId
  feePrecision : ℕ
  aPrecision : ℕ
  poolAssetLimit : ℕ
  subAccount : ℕ → AccountId
  validatePoolAsset : CurrencyId → Bool

structure PoolInfo (AccountId : Type) where
  poolId : ℕ
  poolAsset : CurrencyId
  assets : List CurrencyId
  precisions : List ℕ
  mintFee : ℕ
  swapFee : ℕ
  redeemFee : ℕ
  totalSupply : ℕ
  a : ℕ
  aBlock : ℕ
  futureA : ℕ
  futureABlock : ℕ
  balances : List ℕ
  feeRecipient : AccountId
  accountId : AccountId
  yieldRecipient : AccountId
deriving DecidableEq

variable {AccountId : Type}

/-- The storage, with the block number and the accounts the pallet reads. A token rate is a
denominator and a numerator. -/
structure State (cfg : Config AccountId) where
  blockNumber : ℕ
  ledger : cfg.currencies.Ledger
  poolCount : ℕ
  pools : ℕ → Option (PoolInfo AccountId)
  tokenRateCaches : ℕ → CurrencyId → Option (ℕ × ℕ)

def genesis (cfg : Config AccountId) (ledger : cfg.currencies.Ledger) (blockNumber : ℕ) :
    State cfg :=
  ⟨blockNumber, ledger, 0, fun _ => none, fun _ _ => none⟩

variable {cfg : Config AccountId}

namespace State

def transfer (s : State cfg) (asset : CurrencyId) (source dest : AccountId) (amount : ℕ) :
    Except Fault (State cfg) := do
  let ledger ← mapErr (cfg.currencies.transfer s.ledger asset source dest amount) .token
  pure { s with ledger := ledger }

def deposit (s : State cfg) (asset : CurrencyId) (who : AccountId) (amount : ℕ) :
    Except Fault (State cfg) := do
  let ledger ← mapErr (cfg.currencies.deposit s.ledger asset who amount) .token
  pure { s with ledger := ledger }

def withdraw (s : State cfg) (asset : CurrencyId) (who : AccountId) (amount : ℕ) :
    Except Fault (State cfg) := do
  let ledger ← mapErr (cfg.currencies.withdraw s.ledger asset who amount) .token
  pure { s with ledger := ledger }

/-- An amount of zero is skipped. -/
def depositNonzero (s : State cfg) (asset : CurrencyId) (who : AccountId) (amount : ℕ) :
    Except Fault (State cfg) :=
  if 0 < amount then s.deposit asset who amount else pure s

def transferNonzero (s : State cfg) (asset : CurrencyId) (source dest : AccountId) (amount : ℕ) :
    Except Fault (State cfg) :=
  if 0 < amount then s.transfer asset source dest amount else pure s

def currentA (s : State cfg) (info : PoolInfo AccountId) : Except Fault ℕ :=
  okOr (getA s.blockNumber info.a info.aBlock info.futureA info.futureABlock) (.pallet .math)

/-- What the pool account holds of an asset, at the rate of its token and in the precision of
the pool. -/
def balanceOf (s : State cfg) (info : PoolInfo AccountId) (asset : CurrencyId)
    (precision : ℕ) : Option ℕ := do
  let balance := cfg.currencies.freeBalance s.ledger asset info.accountId
  let balance ← match s.tokenRateCaches info.poolId asset with
    | some (denominator, numerator) => U128.mulDiv balance numerator denominator
    | none => some balance
  U128.checkedMul balance precision

def currentBalances (s : State cfg) (info : PoolInfo AccountId) : Option (List ℕ) :=
  (info.assets.zip info.precisions).mapM fun (asset, precision) =>
    s.balanceOf info asset precision

def getBalanceUpdateAmount (s : State cfg) (info : PoolInfo AccountId) :
    Except Fault (PoolInfo AccountId) := do
  let balances ← okOr (s.currentBalances info) (.pallet .math)
  pure { info with balances := balances }

def invariantOf (s : State cfg) (info : PoolInfo AccountId) (balances : List ℕ) :
    Except Fault ℕ := do
  let a ← s.currentA info
  okOr (getD cfg.aPrecision balances a) (.pallet .math)

def getCollectYieldAmount (s : State cfg) (info : PoolInfo AccountId) :
    Except Fault (PoolInfo AccountId) := do
  let newD ← s.invariantOf info info.balances
  pure { info with totalSupply := newD }

/-- What every quote begins with: "update pool balances and total supply to avoid stale data". -/
def refresh (s : State cfg) (info : PoolInfo AccountId) : Except Fault (PoolInfo AccountId) := do
  let info ← s.getBalanceUpdateAmount info
  s.getCollectYieldAmount info

end State

/-- A fee in parts of `FeePrecision`; no fee is computed at the rate zero. -/
def feeOn (cfg : Config AccountId) (fee amount : ℕ) : Except Fault ℕ :=
  if 0 < fee then okOr (U128.mulDiv amount fee cfg.feePrecision) (.pallet .math) else pure 0

structure MintResult where
  mintAmount : ℕ
  feeAmount : ℕ
  balances : List ℕ
  totalSupply : ℕ
deriving DecidableEq, Repr

/-- The balance an asset has after `amount` of it is put in. An amount of zero is refused in the
first mint only. -/
def addAmount (oldD balance amount precision : ℕ) : Except Fault ℕ :=
  if amount = 0 then do
    ensure (oldD ≠ 0) (.pallet .argumentsError)
    pure balance
  else
    okOr ((U128.checkedMul amount precision).bind (U128.checkedAdd balance)) (.pallet .math)

def getMintAmount (s : State cfg) (info : PoolInfo AccountId) (amounts : List ℕ) :
    Except Fault MintResult := do
  let info ← s.refresh info
  ensure (info.balances.length = amounts.length) (.pallet .argumentsMismatch)
  let oldD := info.totalSupply
  let balances ← (info.balances.zip (amounts.zip info.precisions)).mapM
    fun (balance, amount, precision) => addAmount oldD balance amount precision
  let newD ← s.invariantOf info balances
  let mintAmount ← okOr (U128.checkedSub newD oldD) (.pallet .math)
  let feeAmount ← feeOn cfg info.mintFee mintAmount
  let mintAmount ← okOr (U128.checkedSub mintAmount feeAmount) (.pallet .math)
  pure ⟨mintAmount, feeAmount, balances, newD⟩

/-- What a solved balance leaves to pay out, "in case there was rounding errors" one less. -/
def paidOut (balance y precision : ℕ) : Except Fault ℕ := do
  let dy ← okOr (U128.checkedSub balance y) (.pallet .math)
  let dy ← okOr (U128.checkedSub dy 1) (.pallet .math)
  okOr (U128.checkedDiv dy precision) (.pallet .math)

structure SwapResult where
  dx : ℕ
  dy : ℕ
  y : ℕ
  balanceI : ℕ
deriving DecidableEq, Repr

def getSwapAmount (s : State cfg) (info : PoolInfo AccountId) (inputIndex outputIndex dx : ℕ) :
    Except Fault SwapResult := do
  let info ← s.refresh info
  ensure (inputIndex ≠ outputIndex) (.pallet .argumentsError)
  ensure (0 < dx) (.pallet .argumentsError)
  let balanceIn ← okOr info.balances[inputIndex]? (.pallet .argumentsError)
  let precisionIn ← okOr info.precisions[inputIndex]? (.pallet .argumentsError)
  let balanceOut ← okOr info.balances[outputIndex]? (.pallet .argumentsError)
  let precisionOut ← okOr info.precisions[outputIndex]? (.pallet .argumentsError)
  let a ← s.currentA info
  let d := info.totalSupply
  let balanceI ← okOr ((U128.checkedMul dx precisionIn).bind (U128.checkedAdd balanceIn))
    (.pallet .math)
  let balances := info.balances.set inputIndex balanceI
  let y ← okOr (getY cfg.aPrecision balances outputIndex d a) (.pallet .math)
  let dy ← paidOut balanceOut y precisionOut
  let feeAmount ← feeOn cfg info.swapFee dy
  let dy ← okOr (U128.checkedSub dy feeAmount) (.pallet .math)
  pure ⟨dx, dy, y, balanceI⟩

/-- What has to be paid out for `dy` to be left of it after the fee. -/
def beforeSwapFee (cfg : Config AccountId) (swapFee dy : ℕ) : Option ℕ :=
  if 0 < swapFee then do
    let diff ← U128.checkedSub cfg.feePrecision swapFee
    U128.mulDiv dy cfg.feePrecision diff
  else some dy

/-- The runtime's `SwapExactOverAmount` is read here only. -/
def getSwapAmountExact (s : State cfg) (info : PoolInfo AccountId)
    (swapExactOverAmount inputIndex outputIndex dy : ℕ) : Option SwapResult := do
  let info ← (s.refresh info).toOption
  if inputIndex = outputIndex ∨ dy = 0 then none
  else
    let balanceIn ← info.balances[inputIndex]?
    let precisionIn ← info.precisions[inputIndex]?
    let balanceOut ← info.balances[outputIndex]?
    let precisionOut ← info.precisions[outputIndex]?
    let paid ← beforeSwapFee cfg info.swapFee dy
    let a ← getA s.blockNumber info.a info.aBlock info.futureA info.futureABlock
    let d := info.totalSupply
    let taken ← U128.checkedMul paid precisionOut
    let rest ← U128.checkedSub balanceOut taken
    let balances := info.balances.set outputIndex rest
    let y ← getY cfg.aPrecision balances inputIndex d a
    let dx ← U128.checkedSub y balanceIn
    let dx ← U128.checkedSub dx 1
    let dx ← U128.checkedDiv dx precisionIn
    let dx ← U128.checkedAdd dx swapExactOverAmount
    pure ⟨dx, dy, y, balanceIn⟩

structure RedeemProportionResult where
  amounts : List ℕ
  balances : List ℕ
  feeAmount : ℕ
  totalSupply : ℕ
  redeemAmount : ℕ
deriving DecidableEq, Repr

/-- The share `amount / d` of a balance: what stays of it, and what is paid in the asset. -/
def shareOf (amount d balance precision : ℕ) : Option (ℕ × ℕ) := do
  let diff ← U128.mulDiv balance amount d
  let rest ← U128.checkedSub balance diff
  let paid ← U128.checkedDiv diff precision
  pure (rest, paid)

def getRedeemProportionAmount (s : State cfg) (info : PoolInfo AccountId) (amount : ℕ) :
    Except Fault RedeemProportionResult := do
  let info ← s.refresh info
  ensure (0 < amount) (.pallet .argumentsError)
  let d := info.totalSupply
  let feeAmount ← feeOn cfg info.redeemFee amount
  let amount ← okOr (U128.checkedSub amount feeAmount) (.pallet .math)
  let shares ← okOr ((info.balances.zip info.precisions).mapM fun (balance, precision) =>
    shareOf amount d balance precision) (.pallet .math)
  let totalSupply ← okOr (U128.checkedSub d amount) (.pallet .math)
  pure ⟨shares.map Prod.snd, shares.map Prod.fst, feeAmount, totalSupply, amount⟩

structure RedeemSingleResult where
  dy : ℕ
  feeAmount : ℕ
  totalSupply : ℕ
  balances : List ℕ
  redeemAmount : ℕ
deriving DecidableEq, Repr

def getRedeemSingleAmount (s : State cfg) (info : PoolInfo AccountId) (amount i : ℕ) :
    Except Fault RedeemSingleResult := do
  let info ← s.refresh info
  ensure (0 < amount) (.pallet .argumentsError)
  let balance ← okOr info.balances[i]? (.pallet .argumentsError)
  let precision ← okOr info.precisions[i]? (.pallet .argumentsError)
  let a ← s.currentA info
  let d := info.totalSupply
  let feeAmount ← feeOn cfg info.redeemFee amount
  let amount ← okOr (U128.checkedSub amount feeAmount) (.pallet .math)
  let totalSupply ← okOr (U128.checkedSub d amount) (.pallet .math)
  let y ← okOr (getY cfg.aPrecision info.balances i totalSupply a) (.pallet .math)
  let dy ← paidOut balance y precision
  pure ⟨dy, feeAmount, totalSupply, info.balances.set i y, amount⟩

structure RedeemMultiResult where
  redeemAmount : ℕ
  feeAmount : ℕ
  balances : List ℕ
  totalSupply : ℕ
  burnAmount : ℕ
deriving DecidableEq, Repr

/-- The balance an asset has after `amount` of it is taken out. -/
def subAmount (balance amount precision : ℕ) : Option ℕ :=
  if amount = 0 then some balance
  else (U128.checkedMul amount precision).bind (U128.checkedSub balance)

/-- What is redeemed for a change of `D`, with the fee that comes on top of it. -/
def withRedeemFee (cfg : Config AccountId) (redeemFee change : ℕ) : Except Fault (ℕ × ℕ) :=
  if 0 < redeemFee then do
    let divAmount ← okOr (U128.checkedSub cfg.feePrecision redeemFee) (.pallet .math)
    let redeemAmount ← okOr (U128.mulDiv change cfg.feePrecision divAmount) (.pallet .math)
    let feeAmount ← okOr (U128.checkedSub redeemAmount change) (.pallet .math)
    pure (redeemAmount, feeAmount)
  else pure (change, 0)

def getRedeemMultiAmount (s : State cfg) (info : PoolInfo AccountId) (amounts : List ℕ) :
    Except Fault RedeemMultiResult := do
  let info ← s.refresh info
  ensure (amounts.length = info.balances.length) (.pallet .argumentsError)
  let oldD := info.totalSupply
  let balances ← okOr ((info.balances.zip (amounts.zip info.precisions)).mapM
    fun (balance, amount, precision) => subAmount balance amount precision) (.pallet .math)
  let newD ← s.invariantOf info balances
  let change ← okOr (U128.checkedSub oldD newD) (.pallet .math)
  let (redeemAmount, feeAmount) ← withRedeemFee cfg info.redeemFee change
  let burnAmount ← okOr (U128.checkedSub redeemAmount feeAmount) (.pallet .math)
  let totalSupply ← okOr (U128.checkedSub oldD burnAmount) (.pallet .math)
  pure ⟨redeemAmount, feeAmount, balances, totalSupply, burnAmount⟩

end Bifrost.StableAsset
