import Bifrost.Farming.Boost

/-!
# The calls of the farming pallet

`lib.rs` and `gauge.rs`. A pool is read at the beginning of a call and written back where the
source writes it back. Events are left out.
-/

namespace Bifrost.Farming

open Result
set_option autoImplicit false

variable {AccountId : Type} [DecidableEq AccountId] {cfg : Config AccountId}

def State.pool (s : State cfg) (pid : ℕ) : Except Fault (PoolInfo AccountId) :=
  okOr (s.poolInfos pid) (.pallet .poolDoesNotExist)

def transfers (cfg : Config AccountId) (ledger : cfg.currencies.Ledger) (source dest : AccountId)
    (amounts : List (CurrencyId × ℕ)) : Except Fault cfg.currencies.Ledger :=
  amounts.foldlM (fun ledger e =>
    mapErr (cfg.currencies.transfer ledger e.1 source dest e.2) .token) ledger

/-! Gauge pools. -/

/-- `PoolInfo::new_gauge`: a gauge pool has the keeper and the basket of its pool. -/
def newGauge (pool : PoolInfo AccountId) (rewardIssuer : AccountId)
    (basicRewards : Table CurrencyId ℕ) : PoolInfo AccountId :=
  { tokensProportion := pool.tokensProportion
    basicToken := pool.basicToken
    totalShares := 0
    basicRewards := basicRewards
    rewards := ∅
    state := .ongoing
    keeper := pool.keeper
    rewardIssuer := rewardIssuer
    gauge := none
    blockStartup := none
    minDepositToStart := 0
    afterBlockToStart := 0
    withdrawLimitTime := 0
    claimLimitTime := 0
    withdrawLimitCount := 0 }

def resetGaugePool (s : State cfg) (pid : ℕ) (pool : PoolInfo AccountId)
    (gaugeBasicRewards : Table CurrencyId ℕ) : State cfg × PoolInfo AccountId :=
  let gid := gaugePid pid
  (s.setPool gid (some (newGauge pool (cfg.rewardIssuer gid) gaugeBasicRewards)),
    { pool with gauge := some gid })

/-- A gauge pool that is there keeps its shares. -/
def createGaugePool (s : State cfg) (pid : ℕ) (pool : PoolInfo AccountId)
    (gaugeBasicRewards : Table CurrencyId ℕ) : State cfg × PoolInfo AccountId :=
  match s.poolInfos (gaugePid pid) with
  | some gaugePool =>
    (s.setPool (gaugePid pid) (some { gaugePool with basicRewards := gaugeBasicRewards }),
      { pool with gauge := some (gaugePid pid) })
  | none => resetGaugePool s pid pool gaugeBasicRewards

/-! The life of a pool. -/

def newPool (cfg : Config AccountId) (pid : ℕ) (basicToken : CurrencyId × Perbill)
    (tokensProportion : List (CurrencyId × Perbill)) (basicRewards : List (CurrencyId × ℕ))
    (minDepositToStart afterBlockToStart withdrawLimitTime claimLimitTime
      withdrawLimitCount : ℕ) : PoolInfo AccountId :=
  { tokensProportion := Table.ofList tokensProportion
    basicToken := basicToken
    totalShares := 0
    basicRewards := Table.ofList basicRewards
    rewards := ∅
    state := .unCharged
    keeper := cfg.keeper pid
    rewardIssuer := cfg.rewardIssuer pid
    gauge := none
    blockStartup := none
    minDepositToStart := minDepositToStart
    afterBlockToStart := afterBlockToStart
    withdrawLimitTime := withdrawLimitTime
    claimLimitTime := claimLimitTime
    withdrawLimitCount := withdrawLimitCount }

def createFarmingPool (s : State cfg) (tokensProportion : List (CurrencyId × Perbill))
    (basicRewards : List (CurrencyId × ℕ)) (gaugeInit : Option (List (CurrencyId × ℕ)))
    (minDepositToStart afterBlockToStart withdrawLimitTime claimLimitTime
      withdrawLimitCount : ℕ) : Except Fault (State cfg) := do
  let pid := s.poolNextId
  let basicToken ← okOr tokensProportion.head? (.pallet .notNullable)
  let pool := newPool cfg pid basicToken tokensProportion basicRewards minDepositToStart
    afterBlockToStart withdrawLimitTime claimLimitTime withdrawLimitCount
  let (s, pool) := match gaugeInit with
    | some gaugeBasicRewards => createGaugePool s pid pool (Table.ofList gaugeBasicRewards)
    | none => (s, pool)
  ensure (pid + 1 < poolIds) .overflow
  pure { s.setPool pid (some pool) with poolNextId := pid + 1 }

def charge (s : State cfg) (exchanger : AccountId) (pid : ℕ) (rewards : List (CurrencyId × ℕ)) :
    Except Fault (State cfg) := do
  let pool ← s.pool pid
  ensure (pool.state = .unCharged ∨ pool.state = .ongoing) (.pallet .invalidPoolState)
  let ledger ← transfers cfg s.ledger exchanger pool.rewardIssuer rewards
  let state := if pool.state = .unCharged then .charged else pool.state
  pure ({ s with ledger := ledger }.setPool pid (some { pool with state := state }))

/-- The basket is paid to the keeper and the shares are given for it. -/
def payShare (s : State cfg) (exchanger : AccountId) (pid : ℕ) (pool : PoolInfo AccountId)
    (addValue : ℕ) : Except Fault (State cfg) := do
  let tokens ← pool.basket addValue
  let ledger ← transfers cfg s.ledger exchanger pool.keeper tokens
  let s := { s with ledger := ledger }.setPrincipal pid exchanger
    ((s.principal pid exchanger).payIn addValue tokens)
  pure (addShare s exchanger pid pool addValue)

def deposit (s : State cfg) (exchanger : AccountId) (pid addValue : ℕ) :
    Except Fault (State cfg) := do
  let pool ← s.pool pid
  ensure (pool.state = .ongoing ∨ pool.state = .charged) (.pallet .invalidPoolState)
  ensure (pool.state = .charged → pool.afterBlockToStart ≤ s.blockNumber)
    (.pallet .canNotDeposit)
  let s ← payShare s exchanger pid pool addValue
  let s ← setGaugeShare s exchanger pid addValue
  let pids := s.userFarmingPool exchanger
  if pid ∈ pids then pure s
  else
    ensure (pids.length < 256) (.pallet .userFarmingPoolOverflow)
    pure { s with
      userFarmingPool := Function.update s.userFarmingPool exchanger (pids ++ [pid]) }

/-- The gauge share follows what is left, if there is one. -/
def withdrawGauge (s : State cfg) (exchanger : AccountId) (pid units : ℕ) :
    Except Fault (State cfg) :=
  match s.poolInfos (gaugePid pid) with
  | none => pure s
  | some gaugePool => do
    let gaugeNewValue ← gaugeValue s exchanger units
    match s.shareOf (gaugePid pid) exchanger with
    | some info => updateGaugeShare s exchanger (gaugePid pid) gaugeNewValue info.share gaugePool
    | none => pure s

def withdraw (s : State cfg) (exchanger : AccountId) (pid : ℕ) (removeValue : Option ℕ) :
    Except Fault (State cfg) := do
  let pool ← s.pool pid
  ensure (pool.state = .ongoing ∨ pool.state = .charged ∨ pool.state = .dead)
    (.pallet .invalidPoolState)
  let info ← okOr (s.shareOf pid exchanger) (.pallet .shareInfoNotExists)
  ensure (info.withdrawList.length < pool.withdrawLimitCount)
    (.pallet .withdrawLimitCountExceeded)
  let s ← removeShare s exchanger pid removeValue pool.withdrawLimitTime
  withdrawGauge s exchanger pid (info.share - removeValue.getD info.share)

def claim (s : State cfg) (exchanger : AccountId) (pid : ℕ) : Except Fault (State cfg) := do
  let pool ← s.pool pid
  ensure (pool.state = .ongoing ∨ pool.state = .dead) (.pallet .invalidPoolState)
  let info ← okOr (s.shareOf pid exchanger) (.pallet .shareInfoNotExists)
  ensure (min (info.claimLastBlock + pool.claimLimitTime) (2 ^ 32 - 1) ≤ s.blockNumber)
    (.pallet .canNotClaim)
  let s ← claimRewards s exchanger pid
  let s ← claimRewards s exchanger (gaugePid pid)
  let s ← processWithdrawList s exchanger pid pool true
  refreshInner s exchanger pid

def withdrawClaim (s : State cfg) (exchanger : AccountId) (pid : ℕ) :
    Except Fault (State cfg) := do
  let pool ← s.pool pid
  let s ← processWithdrawList s exchanger pid pool false
  refreshInner s exchanger pid

def retireShare (pid : ℕ) (pool : PoolInfo AccountId) (s : State cfg) (who : AccountId) :
    Except Fault (State cfg) := do
  let s ← removeShare s who pid none 0
  processWithdrawList s who pid pool true

/-- The pool that is written back at the end is the one that was read at the beginning. -/
def forceRetirePool (s : State cfg) (pid : ℕ) : Except Fault (State cfg) := do
  let pool ← s.pool pid
  ensure (pool.state = .dead) (.pallet .invalidPoolState)
  let accounts := cfg.accountOrder.arrange (s.shares pid).keys
  let s' ← (accounts.take s.retireLimit).foldlM (retireShare pid pool) s
  if accounts.length ≤ s.retireLimit then
    pure (s'.setPool pid (some { pool with state := .retired, gauge := none }))
  else pure s'

def closePool (s : State cfg) (pid : ℕ) : Except Fault (State cfg) := do
  let pool ← s.pool pid
  ensure (pool.state = .ongoing) (.pallet .invalidPoolState)
  pure (s.setPool pid (some { pool with state := .dead }))

/-- The settings of a pool that a call may change. -/
structure Settings where
  basicRewards : Option (List (CurrencyId × ℕ))
  minDepositToStart : Option ℕ
  afterBlockToStart : Option ℕ
  withdrawLimitTime : Option ℕ
  claimLimitTime : Option ℕ
  withdrawLimitCount : Option ℕ

def PoolInfo.configured (pool : PoolInfo AccountId) (settings : Settings) : PoolInfo AccountId :=
  { pool with
    basicRewards := (settings.basicRewards.map Table.ofList).getD pool.basicRewards
    minDepositToStart := settings.minDepositToStart.getD pool.minDepositToStart
    afterBlockToStart := settings.afterBlockToStart.getD pool.afterBlockToStart
    withdrawLimitTime := settings.withdrawLimitTime.getD pool.withdrawLimitTime
    claimLimitTime := settings.claimLimitTime.getD pool.claimLimitTime
    withdrawLimitCount := settings.withdrawLimitCount.getD pool.withdrawLimitCount }

def resetPool (s : State cfg) (pid : ℕ) (settings : Settings)
    (gaugeInit : Option (List (CurrencyId × ℕ))) : Except Fault (State cfg) := do
  let pool ← s.pool pid
  ensure (pool.state = .retired) (.pallet .invalidPoolState)
  let pool := pool.configured settings
  let (s, pool) := match gaugeInit with
    | some gaugeBasicRewards => resetGaugePool s pid pool (Table.ofList gaugeBasicRewards)
    | none => (s, pool)
  pure (s.setPool pid (some { pool with
    totalShares := 0
    rewards := ∅
    state := .unCharged
    blockStartup := none }))

/-- `clear_prefix` has no limit here, so `PoolNotCleared` cannot occur. -/
def killPool (s : State cfg) (pid : ℕ) : Except Fault (State cfg) := do
  let pool ← s.pool pid
  ensure (pool.state = .retired ∨ pool.state = .unCharged) (.pallet .invalidPoolState)
  pure ({ s with shares := Function.update s.shares pid ∅ }.setPool pid none)

/-- The two limits on the start of a pool are not among the settings of this call. -/
def editPool (s : State cfg) (pid : ℕ) (settings : Settings)
    (gaugeBasicRewards : Option (List (CurrencyId × ℕ))) : Except Fault (State cfg) := do
  let pool ← s.pool pid
  ensure (pool.state = .retired ∨ pool.state = .ongoing ∨ pool.state = .charged ∨
    pool.state = .unCharged) (.pallet .invalidPoolState)
  let pool := pool.configured
    { settings with minDepositToStart := none, afterBlockToStart := none }
  let (s, pool) := match gaugeBasicRewards with
    | some gaugeBasicRewards => createGaugePool s pid pool (Table.ofList gaugeBasicRewards)
    | none => (s, pool)
  pure (s.setPool pid (some pool))

/-! Boost. -/

def addBoostPoolWhitelist (s : State cfg) (whitelist : List ℕ) : State cfg :=
  s.setBoost { s.boost with
    whitelist := s.boost.whitelist ∪ whitelist.toFinset
    votingPools := whitelist.foldl (fun pools pid =>
      pools.write pid (some ((pools.get pid).getD 0))) s.boost.votingPools }

def setNextRoundWhitelist (s : State cfg) (whitelist : List ℕ) : State cfg :=
  s.setBoost { s.boost with nextRoundWhitelist := whitelist.toFinset }

def chargeBoost (s : State cfg) (exchanger : AccountId) (rewards : List (CurrencyId × ℕ)) :
    Except Fault (State cfg) := do
  let ledger ← transfers cfg s.ledger exchanger cfg.farmingBoost rewards
  pure { s with ledger := ledger }

/-! The hook. -/

def PoolInfo.accrued (pool : PoolInfo AccountId) (boost : CurrencyId → Option ℕ) :
    PoolInfo AccountId :=
  { pool with
    rewards := pool.rewards.update pool.basicRewards fun c amount reward =>
      let amount := saturatingAdd amount ((boost c).getD 0)
      some (reward.elim (amount, 0) fun r => (saturatingAdd r.1 amount, r.2)) }

def PoolInfo.onBlock (pool : PoolInfo AccountId) (n : ℕ) (boost : CurrencyId → Option ℕ) :
    PoolInfo AccountId :=
  match pool.state with
  | .ongoing => pool.accrued boost
  | .charged =>
    if pool.afterBlockToStart ≤ n ∧ pool.minDepositToStart ≤ pool.totalShares then
      { pool with blockStartup := some n, state := .ongoing }
    else pool
  | _ => pool

/-- The next block, with the loop over the pools. -/
def startBlock (s : State cfg) : State cfg :=
  { s with
    blockNumber := s.blockNumber + 1
    poolInfos := fun pid => (s.poolInfos pid).map fun pool =>
      pool.onBlock (s.blockNumber + 1) (s.boost.basicRewards pid) }

def nextRound (s : State cfg) : State cfg :=
  if s.blockNumber = s.boost.poolInfo.endRound then autoStartBoostRound (endBoostRoundInner s)
  else s

def onInitialize (s : State cfg) : State cfg := nextRound (startBlock s)

/-- The calls, and what happens around them: token accounts and bb-bnc balances change through
other pallets. -/
inductive Call (cfg : Config AccountId) where
  | createFarmingPool (tokensProportion : List (CurrencyId × Perbill))
      (basicRewards : List (CurrencyId × ℕ)) (gaugeInit : Option (List (CurrencyId × ℕ)))
      (minDepositToStart afterBlockToStart withdrawLimitTime claimLimitTime
        withdrawLimitCount : ℕ)
  | charge (exchanger : AccountId) (pid : ℕ) (rewards : List (CurrencyId × ℕ))
  | deposit (exchanger : AccountId) (pid addValue : ℕ)
  | withdraw (exchanger : AccountId) (pid : ℕ) (removeValue : Option ℕ)
  | claim (exchanger : AccountId) (pid : ℕ)
  | withdrawClaim (exchanger : AccountId) (pid : ℕ)
  | forceRetirePool (pid : ℕ)
  | setRetireLimit (limit : ℕ)
  | closePool (pid : ℕ)
  | resetPool (pid : ℕ) (settings : Settings) (gaugeInit : Option (List (CurrencyId × ℕ)))
  | killPool (pid : ℕ)
  | editPool (pid : ℕ) (settings : Settings)
      (gaugeBasicRewards : Option (List (CurrencyId × ℕ)))
  | forceGaugeClaim (gid : ℕ)
  | addBoostPoolWhitelist (whitelist : List ℕ)
  | setNextRoundWhitelist (whitelist : List ℕ)
  | vote (exchanger : AccountId) (voteList : List (ℕ × Percent))
  | startBoostRound (roundLength : ℕ)
  | endBoostRound
  | chargeBoost (exchanger : AccountId) (rewards : List (CurrencyId × ℕ))
  | refresh (exchanger : AccountId)
  | onInitialize
  | environment (ledger : cfg.currencies.Ledger) (bbBalance : AccountId → Option ℕ)

/-- `force_gauge_claim` goes through `GaugeInfos`, which is empty. -/
def step (s : State cfg) : Call cfg → Except Fault (State cfg)
  | .createFarmingPool tokens rewards gaugeInit minDeposit afterBlock withdrawTime claimTime
      withdrawCount =>
    createFarmingPool s tokens rewards gaugeInit minDeposit afterBlock withdrawTime claimTime
      withdrawCount
  | .charge exchanger pid rewards => charge s exchanger pid rewards
  | .deposit exchanger pid addValue => deposit s exchanger pid addValue
  | .withdraw exchanger pid removeValue => withdraw s exchanger pid removeValue
  | .claim exchanger pid => claim s exchanger pid
  | .withdrawClaim exchanger pid => withdrawClaim s exchanger pid
  | .forceRetirePool pid => forceRetirePool s pid
  | .setRetireLimit limit => pure { s with retireLimit := limit }
  | .closePool pid => closePool s pid
  | .resetPool pid settings gaugeInit => resetPool s pid settings gaugeInit
  | .killPool pid => killPool s pid
  | .editPool pid settings gaugeBasicRewards => editPool s pid settings gaugeBasicRewards
  | .forceGaugeClaim _ => pure s
  | .addBoostPoolWhitelist whitelist => pure (addBoostPoolWhitelist s whitelist)
  | .setNextRoundWhitelist whitelist => pure (setNextRoundWhitelist s whitelist)
  | .vote exchanger voteList => voteInner s exchanger voteList
  | .startBoostRound roundLength => startBoostRoundInner s roundLength
  | .endBoostRound => pure (endBoostRoundInner s)
  | .chargeBoost exchanger rewards => chargeBoost s exchanger rewards
  | .refresh exchanger => refreshGaugePool s exchanger
  | .onInitialize => pure (onInitialize s)
  | .environment ledger bbBalance => pure { s with ledger := ledger, bbBalance := bbBalance }

namespace Sample

def order (κ : Type) : KeyOrder κ := ⟨id, fun l => List.Perm.refl l⟩

def config : Config ℕ where
  currencies := Tokens.currencies ℕ
  totalBalance := Tokens.Issued.accounts
  keeper := fun pid => 1000000000000 + pid
  rewardIssuer := fun pid => 2000000000000 + pid
  farmingBoost := 901
  treasuryAccount := 902
  whitelistMaximumLimit := 10
  accountOrder := order ℕ
  poolOrder := order ℕ

def dot : CurrencyId := .token .DOT

def bnc : CurrencyId := .native .BNC

/-- Accounts 0 to 9, and the issuer of pool 0, hold a million of everything. -/
def wealth : Tokens.Issued ℕ :=
  ⟨fun _ who => if who < 10 ∨ who = 2000000000000 then 1000000 else 0, fun _ => 0⟩

/-- Every account has two votes. -/
def start : State config := genesis config wealth (fun _ => some 2) 1

/-- A pool for one token; it runs from the next block on. -/
def opened (gaugeInit : Option (List (CurrencyId × ℕ))) : List (Call config) :=
  [.createFarmingPool [(dot, .one)] [(bnc, 10)] gaugeInit 0 0 0 0 5, .charge 1 0 []]

end Sample

end Bifrost.Farming
