import Bifrost.Farming.Types

/-!
# Shares and rewards

`rewards.rs`. What a call computes for one currency of a pool depends on that currency alone, so
each function first says what becomes of one currency and then changes the maps at every key. A
failed call is rolled back, so the transfers can be made after the amounts are known. A product
of two `u128` fits `U256`.
-/

namespace Bifrost.Farming

open Result
set_option autoImplicit false

variable {AccountId : Type} [DecidableEq AccountId] {cfg : Config AccountId}

def saturatingAdd (a b : ℕ) : ℕ := min (a + b) u128Max

def State.setPool (s : State cfg) (pid : ℕ) (pool : Option (PoolInfo AccountId)) : State cfg :=
  { s with poolInfos := Function.update s.poolInfos pid pool }

def State.setShare (s : State cfg) (pid : ℕ) (who : AccountId) (info : Option ShareInfo) :
    State cfg :=
  { s with shares := Function.update s.shares pid ((s.shares pid).write who info) }

def State.shareOf (s : State cfg) (pid : ℕ) (who : AccountId) : Option ShareInfo :=
  (s.shares pid).get who

/-- "If the total shares is zero or reward amount overflow, the reward inflation is zero." -/
def rewardInflation (addAmount totalReward initialTotalShares : ℕ) : ℕ :=
  if initialTotalShares = 0 then 0
  else if addAmount * totalReward / initialTotalShares ≤ u128Max then
    addAmount * totalReward / initialTotalShares
  else 0

/-- The pool and the record after `add_amount` more shares. -/
def PoolInfo.inflated (pool : PoolInfo AccountId) (addAmount : ℕ) : PoolInfo AccountId :=
  { pool with
    totalShares := saturatingAdd pool.totalShares addAmount
    rewards := pool.rewards.update pool.rewards fun _ r _ =>
      some (saturatingAdd r.1 (rewardInflation addAmount r.1 pool.totalShares),
        saturatingAdd r.2 (rewardInflation addAmount r.1 pool.totalShares)) }

def ShareInfo.inflated (info : ShareInfo) (pool : PoolInfo AccountId) (addAmount : ℕ) :
    ShareInfo :=
  { info with
    share := saturatingAdd info.share addAmount
    withdrawnRewards := info.withdrawnRewards.update pool.rewards fun _ r withdrawn =>
      let inflation := rewardInflation addAmount r.1 pool.totalShares
      some (withdrawn.elim inflation fun w => saturatingAdd w inflation) }

def addShare (s : State cfg) (who : AccountId) (pid : ℕ) (pool : PoolInfo AccountId)
    (addAmount : ℕ) : State cfg :=
  if addAmount = 0 then s
  else
    let info := (s.shareOf pid who).getD (ShareInfo.new s.blockNumber)
    (s.setShare pid who (some (info.inflated pool addAmount))).setPool pid
      (some (pool.inflated addAmount))

/-- What `claim_rewards` pays in one currency. -/
def rewardToWithdraw (share totalShares totalReward totalWithdrawn withdrawn : ℕ) : ℕ :=
  min (share * totalReward / totalShares - withdrawn) (totalReward - totalWithdrawn)

def ShareInfo.withdrawn (info : ShareInfo) (c : CurrencyId) : ℕ :=
  (info.withdrawnRewards.get c).getD 0

def ShareInfo.claimable (info : ShareInfo) (pool : PoolInfo AccountId) (c : CurrencyId)
    (r : ℕ × ℕ) : ℕ :=
  rewardToWithdraw info.share pool.totalShares r.1 r.2 (info.withdrawn c)

def PoolInfo.claimed (pool : PoolInfo AccountId) (info : ShareInfo) : PoolInfo AccountId :=
  { pool with
    rewards := pool.rewards.update pool.rewards fun c r _ =>
      some (r.1, saturatingAdd r.2 (info.claimable pool c r)) }

def ShareInfo.claimed (info : ShareInfo) (pool : PoolInfo AccountId) (now : ℕ) : ShareInfo :=
  { info with
    withdrawnRewards := info.withdrawnRewards.update pool.rewards fun c r withdrawn =>
      if info.claimable pool c r = 0 then withdrawn
      else some (saturatingAdd (info.withdrawn c) (info.claimable pool c r))
    claimLastBlock := now }

/-- An amount below the existential deposit goes to the treasury where it would leave the
receiver below it. -/
def payOut (cfg : Config AccountId) (ledger : cfg.currencies.Ledger) (c : CurrencyId)
    (source who : AccountId) (amount : ℕ) : Except Fault cfg.currencies.Ledger := do
  let ed := cfg.currencies.minimumBalance c
  let after := cfg.totalBalance ledger c who + amount
  ensure (amount < ed → after ≤ u128Max) .overflow
  let accountToSend := if amount < ed ∧ after < ed then cfg.treasuryAccount else who
  mapErr (cfg.currencies.transfer ledger c source accountToSend amount) .token

def claimRewards (s : State cfg) (who : AccountId) (pid : ℕ) : Except Fault (State cfg) :=
  match s.shareOf pid who with
  | none => pure s
  | some info =>
    if info.share = 0 then pure s
    else do
      let pool ← okOr (s.poolInfos pid) (.pallet .poolDoesNotExist)
      let ledger ← pool.rewards.entries.foldlM (fun ledger (c, r) => do
        ensure (info.share * r.1 / pool.totalShares ≤ u128Max) .overflow
        if info.claimable pool c r = 0 then pure ledger
        else payOut cfg ledger c pool.rewardIssuer who (info.claimable pool c r)) s.ledger
      pure (({ s with ledger := ledger }.setShare pid who
        (some (info.claimed pool s.blockNumber))).setPool pid (some (pool.claimed info)))

/-- The part of what was withdrawn in one currency that leaves with the shares; at most what was
withdrawn, so that its conversion to `u128` does not fail. -/
def withdrawnToRemove (removeAmount withdrawn share : ℕ) : ℕ := removeAmount * withdrawn / share

def PoolInfo.deflated (pool : PoolInfo AccountId) (info : ShareInfo) (removeAmount : ℕ) :
    PoolInfo AccountId :=
  { pool with
    totalShares := pool.totalShares - removeAmount
    rewards := pool.rewards.update info.withdrawnRewards fun _ withdrawn reward =>
      let gone := withdrawnToRemove removeAmount withdrawn info.share
      reward.bind fun r => if r.1 - gone = 0 then none else some (r.1 - gone, r.2 - gone) }

/-- The units are paid out from the block `dest` on. -/
def ShareInfo.deflated (info : ShareInfo) (removeAmount dest : ℕ) : ShareInfo :=
  { info with
    share := info.share - removeAmount
    withdrawnRewards := info.withdrawnRewards.update info.withdrawnRewards fun _ withdrawn _ =>
      some (withdrawn - withdrawnToRemove removeAmount withdrawn info.share)
    withdrawList := info.withdrawList ++ [(dest, removeAmount)] }

/-- The part of `remove_share` after the claim. The record is taken out of the map; an amount of
zero returns before it is put back. -/
def takeShare (s : State cfg) (who : AccountId) (pid : ℕ) (removeAmountInput : Option ℕ)
    (withdrawLimitTime : ℕ) : Except Fault (State cfg) :=
  match s.shareOf pid who with
  | none => pure s
  | some info => do
    let removeAmount := removeAmountInput.getD info.share
    ensure (removeAmount ≤ info.share) (.pallet .invalidRemoveAmount)
    if removeAmount = 0 then pure (s.setShare pid who none)
    else
      let pool ← okOr (s.poolInfos pid) (.pallet .poolDoesNotExist)
      let dest := (s.blockNumber + withdrawLimitTime) % 2 ^ 32
      pure ((s.setShare pid who (some (info.deflated removeAmount dest))).setPool pid
        (some (pool.deflated info removeAmount)))

def removeShare (s : State cfg) (who : AccountId) (pid : ℕ) (removeAmountInput : Option ℕ)
    (withdrawLimitTime : ℕ) : Except Fault (State cfg) :=
  if removeAmountInput = some 0 then pure s
  else do
    let s ← claimRewards s who pid
    takeShare s who pid removeAmountInput withdrawLimitTime

/-- The tokens of the basket that go with some units of a pool. -/
def PoolInfo.basket (pool : PoolInfo AccountId) (units : ℕ) :
    Except Fault (List (CurrencyId × ℕ)) := do
  let native ← okOr (pool.basicToken.2.saturatingReciprocalMul units) .divisionByZero
  pure (pool.tokensProportion.entries.map fun e => (e.1, e.2.mul native))

def Principal.payIn (p : Principal) (units : ℕ) (tokens : List (CurrencyId × ℕ)) : Principal :=
  { p with
    deposited := p.deposited + units
    tokensIn := tokens.foldl (fun m e => Function.update m e.1 (m e.1 + e.2)) p.tokensIn }

def Principal.payOut (p : Principal) (units : ℕ) (tokens : List (CurrencyId × ℕ)) : Principal :=
  { p with
    paid := p.paid + units
    tokensOut := tokens.foldl (fun m e => Function.update m e.1 (m e.1 + e.2)) p.tokensOut }

def State.setPrincipal (s : State cfg) (pid : ℕ) (who : AccountId) (p : Principal) : State cfg :=
  { s with principal :=
      Function.update s.principal pid (Function.update (s.principal pid) who p) }

def payUnits (s : State cfg) (who : AccountId) (pid : ℕ) (pool : PoolInfo AccountId)
    (units : ℕ) : Except Fault (State cfg) := do
  let tokens ← pool.basket units
  let ledger ← tokens.foldlM (fun ledger e => payOut cfg ledger e.1 pool.keeper who e.2) s.ledger
  pure ({ s with ledger := ledger }.setPrincipal pid who
    ((s.principal pid who).payOut units tokens))

def ShareInfo.due (info : ShareInfo) (now : ℕ) : List ℕ :=
  (info.withdrawList.filter fun e => e.1 ≤ now).map Prod.snd

def ShareInfo.pending (info : ShareInfo) (now : ℕ) : ShareInfo :=
  { info with withdrawList := info.withdrawList.filter fun e => now < e.1 }

/-- "if withdraw_list and share both are empty, and if_remove is true, remove it." -/
def processWithdrawList (s : State cfg) (who : AccountId) (pid : ℕ) (pool : PoolInfo AccountId)
    (ifRemove : Bool) : Except Fault (State cfg) :=
  match s.shareOf pid who with
  | none => pure s
  | some info => do
    let s ← (info.due s.blockNumber).foldlM (fun s units => payUnits s who pid pool units) s
    let rest := info.pending s.blockNumber
    if rest.withdrawList ≠ [] ∨ rest.share ≠ 0 ∨ ifRemove = false then
      pure (s.setShare pid who (some rest))
    else pure (s.setShare pid who none)

def updateGaugeShare (s : State cfg) (exchanger : AccountId) (gid gaugeNewValue share : ℕ)
    (gaugePool : PoolInfo AccountId) : Except Fault (State cfg) :=
  if gaugeNewValue < share then
    removeShare s exchanger gid (some (share - gaugeNewValue)) gaugePool.withdrawLimitTime
  else pure (addShare s exchanger gid gaugePool (gaugeNewValue - share))

/-- `BbBNC::balance_of(exchanger, None)?.checked_mul(units)`. -/
def gaugeValue (s : State cfg) (exchanger : AccountId) (units : ℕ) : Except Fault ℕ := do
  let balance ← okOr (s.bbBalance exchanger) .bbBnc
  okOr (U128.checkedMul balance units) .overflow

/-- The gauge share of a pool follows the units of the account: the part that `deposit`,
`refresh_inner` and `refresh_gauge_pool` have in common. -/
def setGaugeShare (s : State cfg) (exchanger : AccountId) (pid units : ℕ) :
    Except Fault (State cfg) :=
  match s.poolInfos (gaugePid pid) with
  | none => pure s
  | some gaugePool => do
    let gaugeNewValue ← gaugeValue s exchanger units
    match s.shareOf (gaugePid pid) exchanger with
    | some info => updateGaugeShare s exchanger (gaugePid pid) gaugeNewValue info.share gaugePool
    | none => pure (addShare s exchanger (gaugePid pid) gaugePool gaugeNewValue)

def refreshInner (s : State cfg) (exchanger : AccountId) (pid : ℕ) : Except Fault (State cfg) :=
  match s.shareOf pid exchanger with
  | some info => setGaugeShare s exchanger pid info.share
  | none =>
    let pids := (s.userFarmingPool exchanger).filter fun x => x ≠ pid
    pure ({ s with userFarmingPool := Function.update s.userFarmingPool exchanger pids }.setShare
      (gaugePid pid) exchanger none)

/-- The list that the source writes back after the loop is the one that the removals of
`refresh_inner` leave. -/
def refreshGaugePool (s : State cfg) (exchanger : AccountId) : Except Fault (State cfg) :=
  (s.userFarmingPool exchanger).foldlM (fun s pid => refreshInner s exchanger pid) s

end Bifrost.Farming
