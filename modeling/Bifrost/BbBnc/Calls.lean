import Bifrost.BbBnc.Pallet

/-!
# The hook and the calls

`on_initialize` withdraws the positions that expired, at most a configured number in a block, and
the calls are collected with what happens around them: other pallets move tokens and change their
own storage.
-/

namespace Bifrost.BbBnc

open Result Machine
set_option autoImplicit false

variable {AccountId : Type} [DecidableEq AccountId] {cfg : Config AccountId}

structure Sweep (cfg : Config AccountId) where
  state : State cfg
  processedPositions : List ℕ
  positionsProcessed : ℕ
  blocksExhausted : Bool

def Sweep.processed (w : Sweep cfg) (position : ℕ) : Sweep cfg :=
  { w with
    processedPositions := w.processedPositions ++ [position]
    positionsProcessed := w.positionsProcessed + 1 }

/-- One round of the inner loop. Once the limit is reached, the rest of the list is left out. A
withdrawal that fails leaves the state as it was. -/
def sweepPosition (limit : ℕ) (w : Sweep cfg) (position : ℕ) : Sweep cfg :=
  let s := w.state
  if w.blocksExhausted then w
  else if limit ≤ w.positionsProcessed then { w with blocksExhausted := true }
  else if (s.locked position).endBlock ≤ s.blockNumber ∧ (s.locked position).amount ≠ 0 then
    match s.positionOwner position with
    | some owner =>
      match withdrawNoEnsure s owner position (s.locked position) none with
      | .ok s => { w with state := s }.processed position
      | .error _ => w
    | none => w.processed position
  else w.processed position

def sweepBlock (limit : ℕ) (s : State cfg) (positionsProcessed block : ℕ) : Sweep cfg :=
  let positions := s.expiringPositions block
  let w := positions.foldl (sweepPosition limit) ⟨s, [], positionsProcessed, false⟩
  { w with state := { w.state with
      expiringPositions := Function.update w.state.expiringPositions block
        (if w.processedPositions.length = positions.length then []
        else (w.state.expiringPositions block).filter fun p => p ∉ w.processedPositions) } }

/-- The blocks from `block` on; the second component is the block to go on with. -/
def sweepBlocks (limit : ℕ) : ℕ → State cfg → ℕ → ℕ → State cfg × ℕ
  | 0, s, _, block => (s, block)
  | fuel + 1, s, positionsProcessed, block =>
    let w := sweepBlock limit s positionsProcessed block
    if w.blocksExhausted then (w.state, block + 1)
    else sweepBlocks limit fuel w.state w.positionsProcessed (block + 1)

def withdrawExpired (s : State cfg) : State cfg :=
  let nextExpiring := s.nextExpiringBlock
  if nextExpiring ≠ 0 ∧ nextExpiring ≤ s.blockNumber then
    let swept := sweepBlocks s.bbConfig.maxPositionsPerBlock (s.blockNumber + 1 - nextExpiring) s 0
      nextExpiring
    { swept.1 with nextExpiringBlock := swept.2 }
  else s

def onInitialize (s : State cfg) : State cfg :=
  withdrawExpired (notifyOnBlock { s with blockNumber := s.blockNumber + 1 })

inductive Call (cfg : Config AccountId) where
  | setConfig (minMint minBlock maxPositionsPerBlock : Option ℕ)
  | createLock (who : AccountId) (value unlockTime : ℕ)
  | increaseAmount (who : AccountId) (position value : ℕ)
  | increaseUnlockTime (who : AccountId) (position time : ℕ)
  | withdraw (who : AccountId) (position : ℕ)
  | notifyRewards (incentiveFrom : AccountId) (rewardsDuration : Option ℕ)
      (rewards : List CurrencyId)
  | getRewards (who : AccountId)
  | getGaugeRewards (who : AccountId)
  | redeemUnlock (who : AccountId) (position : ℕ)
  | setMarkupCoefficient (currency : CurrencyId) (markup hardcap rwi : FixedU128)
  | depositMarkup (who : AccountId) (currency : CurrencyId) (value : ℕ)
  | withdrawMarkup (who : AccountId) (currency : CurrencyId)
  | refresh (currency : CurrencyId)
  | onInitialize
  | pay (currency : CurrencyId) (source dest : AccountId) (amount : ℕ)
  | issue (currency : CurrencyId) (who : AccountId) (amount : ℕ)
  | burn (currency : CurrencyId) (who : AccountId) (amount : ℕ)
  | elsewhere (outside : cfg.Outside)

def State.setConfig (s : State cfg) (minMint minBlock maxPositionsPerBlock : Option ℕ) :
    State cfg :=
  { s with bbConfig := ⟨minMint.getD s.bbConfig.minMint, minBlock.getD s.bbConfig.minBlock,
      maxPositionsPerBlock.getD s.bbConfig.maxPositionsPerBlock⟩ }

def State.moveTokens (s : State cfg) (moved : Except TokenError cfg.currencies.Ledger) :
    Except Fault (State cfg) := do
  let ledger ← mapErr moved .token
  pure { s with ledger := ledger }

def step (s : State cfg) : Call cfg → Except Fault (State cfg)
  | .setConfig minMint minBlock maxPositionsPerBlock =>
    pure (s.setConfig minMint minBlock maxPositionsPerBlock)
  | .createLock who value unlockTime => createLockInner s who value unlockTime
  | .increaseAmount who position value =>
    ownPosition s who position (increaseAmountInner s who position value)
  | .increaseUnlockTime who position time =>
    ownPosition s who position (increaseUnlockTimeInner s who position time)
  | .withdraw who position => ownPosition s who position (withdrawInner s who position)
  | .notifyRewards incentiveFrom rewardsDuration rewards =>
    notifyRewards s incentiveFrom rewardsDuration rewards
  | .getRewards who => getRewards s who
  | .getGaugeRewards who => getGaugeRewards s who
  | .redeemUnlock who position => ownPosition s who position (redeemUnlockInner s who position)
  | .setMarkupCoefficient currency markup hardcap rwi =>
    pure (setMarkupCoefficient s currency markup hardcap rwi)
  | .depositMarkup who currency value => depositMarkupInner s who currency value
  | .withdrawMarkup who currency => withdrawMarkupInner s who currency
  | .refresh currency => refreshInner s currency
  | .onInitialize => pure (onInitialize s)
  | .pay currency source dest amount =>
    s.moveTokens (cfg.currencies.transfer s.ledger currency source dest amount)
  | .issue currency who amount => s.moveTokens (cfg.currencies.deposit s.ledger currency who amount)
  | .burn currency who amount => s.moveTokens (cfg.currencies.withdraw s.ledger currency who amount)
  | .elsewhere outside => pure { s with outside := outside }

namespace Sample

/-- A runtime with weeks of ten blocks over plain accounts with locks. -/
def config : Config ℕ where
  currencies := Tokens.lockable ℕ LockIdentifier
  tokenType := .vToken .BNC
  incentiveAccount := 901
  buyBackAccount := 902
  week := 10
  maxBlock := 40
  oneYear := 10
  fiveYears := 50
  multiplier := 1000000000000
  voteWeightMultiplier := ⟨750000000000000000⟩
  maxPositions := 10
  markupRefreshLimit := 100
  accountOrder := ⟨id, fun l => List.Perm.refl l⟩
  Outside := Unit
  refreshGaugePool := fun o L _ _ => some (o, L)
  mintVtoken := fun o L _ _ => some (o, L)
  vCurrencyIssuance := fun _ _ => 1000000
  refreshGaugePool_moves := by
    intro o o' L L' balanceOf who h
    rw [Option.some_inj, Prod.mk_inj] at h
    exact h.2 ▸ .refl _
  mintVtoken_moves := by
    intro o o' L L' who n h
    rw [Option.some_inj, Prod.mk_inj] at h
    exact h.2 ▸ .refl _

def vdot : CurrencyId := .vToken .DOT

def wealth : Unlocked config where
  ledger := ⟨⟨fun _ who => if who < 10 then 1000000 else 0, fun _ => 1000000⟩, fun _ _ _ => 0⟩
  unlocked := fun _ _ _ => rfl

abbrev start : State config := genesis config wealth () 1

end Sample

end Bifrost.BbBnc
