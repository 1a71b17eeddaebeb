import Bifrost.Lib.Machine
import Bifrost.StableAsset.Quotes

/-!
# The calls of the stable-asset pallet

An operation on a pool collects the yield first, then moves currencies by a quote, and collects
the fee last; `mintOn` and its like are the part before the fee. A failed call is rolled back.
Events, and the values computed for them alone, are left out. `ListingOrigin` is an origin that
governance has; its calls take no account.
-/

namespace Bifrost.StableAsset

open Result
set_option autoImplicit false

variable {AccountId : Type} {cfg : Config AccountId}

structure PendingFeeResult where
  feeAmount : ℕ
  balances : List ℕ
  totalSupply : ℕ
deriving DecidableEq, Repr

/-- A `D` up to a hundredth below the supply passes: "this is due to rounding issues for token
balance conversion". -/
def getPendingFeeAmount (s : State cfg) (info : PoolInfo AccountId) :
    Except Fault PendingFeeResult := do
  let oldD := info.totalSupply
  let balances ← okOr (s.currentBalances info) (.pallet .math)
  let newD ← s.invariantOf info balances
  if oldD < newD then pure ⟨newD - oldD, balances, newD⟩
  else if oldD - oldD / 100 ≤ newD then pure ⟨0, balances, newD⟩
  else .error (.pallet .math)

def collectYield (s : State cfg) (info : PoolInfo AccountId) :
    Except Fault (State cfg × PoolInfo AccountId) := do
  let oldD := info.totalSupply
  let info ← s.getBalanceUpdateAmount info
  let updated ← s.getCollectYieldAmount info
  let newD := updated.totalSupply
  ensure (oldD ≤ newD) (.pallet .invalidPoolValue)
  if oldD < newD then
    let s ← s.deposit info.poolAsset info.yieldRecipient (newD - oldD)
    pure (s, { info with totalSupply := newD })
  else pure (s, info)

def collectFee (s : State cfg) (info : PoolInfo AccountId) :
    Except Fault (State cfg × PoolInfo AccountId) := do
  let r ← getPendingFeeAmount s info
  let s ← s.depositNonzero info.poolAsset info.feeRecipient r.feeAmount
  pure (s, { info with totalSupply := r.totalSupply, balances := r.balances })

def State.mutatePool (s : State cfg) (poolId : ℕ)
    (f : PoolInfo AccountId → Except Fault (State cfg × PoolInfo AccountId)) :
    Except Fault (State cfg) := do
  let info ← okOr (s.pools poolId) (.pallet .poolNotFound)
  let (s, info) ← f info
  pure { s with pools := Function.update s.pools poolId (some info) }

/-! The operations, up to the fee. -/

def mintOn (s : State cfg) (info : PoolInfo AccountId) (who : AccountId) (amounts : List ℕ)
    (minMintAmount : ℕ) : Except Fault (State cfg × PoolInfo AccountId) := do
  let (s, info) ← collectYield s info
  let r ← getMintAmount s info amounts
  ensure (minMintAmount ≤ r.mintAmount) (.pallet .mintUnderMin)
  let s ← (info.assets.zip amounts).foldlM (fun s (asset, amount) =>
    s.transferNonzero asset who info.accountId amount) s
  let s ← s.depositNonzero info.poolAsset info.feeRecipient r.feeAmount
  let s ← s.deposit info.poolAsset who r.mintAmount
  pure (s, { info with totalSupply := r.totalSupply, balances := r.balances })

/-- The supply and the balances of the pool are left to the collection of the fee. -/
def swapOn (s : State cfg) (info : PoolInfo AccountId) (who : AccountId)
    (i j dx minDy assetLength : ℕ) : Except Fault (State cfg × PoolInfo AccountId) := do
  ensure (assetLength = info.assets.length) (.pallet .argumentsError)
  let (s, info) ← collectYield s info
  let r ← getSwapAmount s info i j dx
  ensure (minDy ≤ r.dy) (.pallet .swapUnderMin)
  let assetI ← okOr info.assets[i]? (.pallet .argumentsError)
  let assetJ ← okOr info.assets[j]? (.pallet .argumentsError)
  let s ← s.transfer assetI who info.accountId dx
  let s ← s.transfer assetJ info.accountId who r.dy
  pure (s, info)

def redeemProportionOn (s : State cfg) (info : PoolInfo AccountId) (who : AccountId)
    (amount : ℕ) (minRedeemAmounts : List ℕ) :
    Except Fault (State cfg × PoolInfo AccountId) := do
  let (s, info) ← collectYield s info
  ensure (minRedeemAmounts.length = info.assets.length) (.pallet .argumentsMismatch)
  let r ← getRedeemProportionAmount s info amount
  let s ← (info.assets.zip (r.amounts.zip minRedeemAmounts)).foldlM
    (fun s (asset, amount, minAmount) => do
      ensure (minAmount ≤ amount) (.pallet .redeemUnderMin)
      s.transfer asset info.accountId who amount) s
  let s ← s.transferNonzero info.poolAsset who info.feeRecipient r.feeAmount
  let s ← s.withdraw info.poolAsset who r.redeemAmount
  pure (s, { info with totalSupply := r.totalSupply, balances := r.balances })

def redeemSingleOn (s : State cfg) (info : PoolInfo AccountId) (who : AccountId)
    (amount i minRedeemAmount assetLength : ℕ) :
    Except Fault (State cfg × PoolInfo AccountId) := do
  let (s, info) ← collectYield s info
  let r ← getRedeemSingleAmount s info amount i
  ensure (assetLength = info.assets.length) (.pallet .argumentsError)
  ensure (minRedeemAmount ≤ r.dy) (.pallet .redeemUnderMin)
  let asset ← okOr info.assets[i]? (.pallet .argumentsError)
  let s ← s.transferNonzero info.poolAsset who info.feeRecipient r.feeAmount
  let s ← s.transfer asset info.accountId who r.dy
  let s ← s.withdraw info.poolAsset who r.redeemAmount
  pure (s, { info with totalSupply := r.totalSupply, balances := r.balances })

def redeemMultiOn (s : State cfg) (info : PoolInfo AccountId) (who : AccountId)
    (amounts : List ℕ) (maxRedeemAmount : ℕ) :
    Except Fault (State cfg × PoolInfo AccountId) := do
  let (s, info) ← collectYield s info
  let r ← getRedeemMultiAmount s info amounts
  ensure (r.redeemAmount ≤ maxRedeemAmount) (.pallet .redeemOverMax)
  let s ← s.transferNonzero info.poolAsset who info.feeRecipient r.feeAmount
  let s ← (info.assets.zip amounts).foldlM (fun s (asset, amount) =>
    s.transferNonzero asset info.accountId who amount) s
  let s ← s.withdraw info.poolAsset who r.burnAmount
  pure (s, { info with totalSupply := r.totalSupply, balances := r.balances })

inductive Operation where
  | mint (amounts : List ℕ) (minMintAmount : ℕ)
  | swap (i j dx minDy assetLength : ℕ)
  | redeemProportion (amount : ℕ) (minRedeemAmounts : List ℕ)
  | redeemSingle (amount i minRedeemAmount assetLength : ℕ)
  | redeemMulti (amounts : List ℕ) (maxRedeemAmount : ℕ)
deriving DecidableEq, Repr

def Operation.on (s : State cfg) (info : PoolInfo AccountId) (who : AccountId) :
    Operation → Except Fault (State cfg × PoolInfo AccountId)
  | .mint amounts minMintAmount => mintOn s info who amounts minMintAmount
  | .swap i j dx minDy assetLength => swapOn s info who i j dx minDy assetLength
  | .redeemProportion amount mins => redeemProportionOn s info who amount mins
  | .redeemSingle amount i minAmount assetLength =>
    redeemSingleOn s info who amount i minAmount assetLength
  | .redeemMulti amounts maxRedeemAmount => redeemMultiOn s info who amounts maxRedeemAmount

/-- `mint`, `swap`, `redeem_proportion`, `redeem_single` and `redeem_multi`. -/
def operate (s : State cfg) (who : AccountId) (poolId : ℕ) (op : Operation) :
    Except Fault (State cfg) :=
  s.mutatePool poolId fun info => do
    let (s, info) ← op.on s info who
    collectFee s info

/-! The calls of governance. -/

def createPool (s : State cfg) (poolAsset : CurrencyId) (assets : List CurrencyId)
    (precisions : List ℕ) (mintFee swapFee redeemFee initialA : ℕ)
    (feeRecipient yieldRecipient : AccountId) : Except Fault (State cfg) := do
  ensure (cfg.validatePoolAsset poolAsset = true) (.pallet .invalidPoolAsset)
  ensure (1 < assets.length) (.pallet .argumentsError)
  ensure (assets.length ≤ cfg.poolAssetLimit) (.pallet .argumentsError)
  ensure (assets.length = precisions.length) (.pallet .argumentsMismatch)
  let poolId := s.poolCount
  ensure (s.pools poolId = none) (.pallet .inconsistentStorage)
  ensure (poolId + 1 < 2 ^ 32) .overflow
  let info : PoolInfo AccountId :=
    { poolId := poolId
      poolAsset := poolAsset
      assets := assets
      precisions := precisions
      mintFee := mintFee
      swapFee := swapFee
      redeemFee := redeemFee
      totalSupply := 0
      a := initialA
      aBlock := s.blockNumber
      futureA := initialA
      futureABlock := s.blockNumber
      balances := List.replicate assets.length 0
      feeRecipient := feeRecipient
      accountId := cfg.subAccount poolId
      yieldRecipient := yieldRecipient }
  pure { s with
    pools := Function.update s.pools poolId (some info)
    poolCount := poolId + 1 }

/-- The new ramp begins at the current block with the value of the old one. -/
def modifyAOn (s : State cfg) (info : PoolInfo AccountId) (a futureABlock : ℕ) :
    Except Fault (State cfg × PoolInfo AccountId) := do
  ensure (info.aBlock < futureABlock) (.pallet .argumentsError)
  let initialA ← s.currentA info
  pure (s, { info with
    a := initialA
    aBlock := s.blockNumber
    futureA := a
    futureABlock := futureABlock })

def modifyA (s : State cfg) (poolId a futureABlock : ℕ) : Except Fault (State cfg) :=
  s.mutatePool poolId fun info => modifyAOn s info a futureABlock

def modifyFees (s : State cfg) (poolId : ℕ) (mintFee swapFee redeemFee : Option ℕ) :
    Except Fault (State cfg) :=
  s.mutatePool poolId fun info => pure (s, { info with
    mintFee := mintFee.getD info.mintFee
    swapFee := swapFee.getD info.swapFee
    redeemFee := redeemFee.getD info.redeemFee })

def modifyRecipients (s : State cfg) (poolId : ℕ)
    (feeRecipient yieldRecipient : Option AccountId) : Except Fault (State cfg) :=
  s.mutatePool poolId fun info => pure (s, { info with
    feeRecipient := feeRecipient.getD info.feeRecipient
    yieldRecipient := yieldRecipient.getD info.yieldRecipient })

/-- An empty list clears the rates of the pool; `clear_prefix` has no limit here, so
`TokenRateNotCleared` cannot occur. -/
def setTokenRate (s : State cfg) (poolId : ℕ) (tokenRateInfo : List (CurrencyId × ℕ × ℕ)) :
    Except Fault (State cfg) := do
  ensure (poolId < s.poolCount) (.pallet .argumentsError)
  let rates := if tokenRateInfo = [] then fun _ => none
    else tokenRateInfo.foldl (fun rates entry => Function.update rates entry.1 (some entry.2))
      (s.tokenRateCaches poolId)
  pure { s with tokenRateCaches := Function.update s.tokenRateCaches poolId rates }

/-- The calls, and what happens around them: balances change through other pallets and blocks
pass. -/
inductive Call (cfg : Config AccountId) where
  | createPool (poolAsset : CurrencyId) (assets : List CurrencyId) (precisions : List ℕ)
      (mintFee swapFee redeemFee initialA : ℕ) (feeRecipient yieldRecipient : AccountId)
  | operate (who : AccountId) (poolId : ℕ) (op : Operation)
  | modifyA (poolId a futureABlock : ℕ)
  | modifyFees (poolId : ℕ) (mintFee swapFee redeemFee : Option ℕ)
  | modifyRecipients (poolId : ℕ) (feeRecipient yieldRecipient : Option AccountId)
  | setTokenRate (poolId : ℕ) (tokenRateInfo : List (CurrencyId × ℕ × ℕ))
  | environment (ledger : cfg.currencies.Ledger)
  | advance (blocks : ℕ)

def step (s : State cfg) : Call cfg → Except Fault (State cfg)
  | .createPool poolAsset assets precisions mintFee swapFee redeemFee initialA fr yr =>
    createPool s poolAsset assets precisions mintFee swapFee redeemFee initialA fr yr
  | .operate who poolId op => operate s who poolId op
  | .modifyA poolId a futureABlock => modifyA s poolId a futureABlock
  | .modifyFees poolId mintFee swapFee redeemFee => modifyFees s poolId mintFee swapFee redeemFee
  | .modifyRecipients poolId fr yr => modifyRecipients s poolId fr yr
  | .setTokenRate poolId tokenRateInfo => setTokenRate s poolId tokenRateInfo
  | .environment ledger => pure { s with ledger := ledger }
  | .advance blocks => pure { s with blockNumber := s.blockNumber + blocks }

end Bifrost.StableAsset
