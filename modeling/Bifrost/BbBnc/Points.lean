import Bifrost.BbBnc.Types

/-!
# Voting power

The point functions of `lib.rs`: the line of a lock, the weekly steps of the global point, the
balance of a position and the total supply.
-/

namespace Bifrost.BbBnc

open Result
set_option autoImplicit false

variable {AccountId : Type} [DecidableEq AccountId] {cfg : Config AccountId}

/-- What `checkpoint` does for each of the two locks; block and amount are filled in later. -/
def linePoint (cfg : Config AccountId) (now : ℕ) (locked : LockedBalance) :
    Except Fault Point :=
  if now < locked.endBlock ∧ 0 < locked.amount then do
    let slope ← okOr (U128.checkedDiv locked.amount cfg.maxBlock) .overflow
    let bias ← okOr (I128.checkedMul (I128.saturatedOfNat slope)
      ((locked.endBlock : ℤ) - now)) .overflow
    pure ⟨bias, I128.saturatedOfNat slope, 0, 0⟩
  else pure .zero

/-- One step down the slope, to the block `t`. -/
def Point.decayTo (point : Point) (t : ℕ) : Except Fault ℤ := do
  let elapsed ← okOr (U128.checkedSub t point.block) .overflow
  let fallen ← okOr (I128.checkedMul point.slope elapsed) .overflow
  okOr (I128.checkedSub point.bias fallen) .overflow

structure Walk where
  epoch : ℕ
  point : Point
  history : ℕ → Point

/-- One round of the loop: to the next week or to `now`. `last_checkpoint` is the block of the
point. -/
def walkStep (slopeChanges : ℕ → ℤ) (now next : ℕ) (w : Walk) : Except Fault Walk := do
  let t := if now < next then now else next
  let dSlope := if now < next then 0 else slopeChanges next
  let bias ← w.point.decayTo t
  let slope ← okOr (I128.checkedAdd w.point.slope dSlope) .overflow
  pure { w with
    epoch := w.epoch + 1
    point := ⟨max bias 0, max slope 0, t, w.point.amount⟩ }

/-- `for _i in 0..255`, with `t_i` as an argument. -/
def walk (week : ℕ) (slopeChanges : ℕ → ℤ) (supply now : ℕ) :
    ℕ → ℕ → Walk → Except Fault Walk
  | 0, _, w => pure w
  | fuel + 1, t, w => do
    let next ← okOr (U32.checkedAdd t week) .overflow
    let w ← walkStep slopeChanges now next w
    if w.point.block = now then pure { w with point := { w.point with amount := supply } }
    else
      walk week slopeChanges supply now fuel w.point.block
        { w with history := Function.update w.history w.epoch w.point }

/-- The global point before a checkpoint. -/
def State.lastPoint (s : State cfg) : Point :=
  if 0 < s.epoch then s.pointHistory s.epoch else ⟨0, 0, s.blockNumber, s.supply⟩

def weekStart (week block : ℕ) : Except Fault ℕ := do
  let n ← okOr (U128.checkedDiv block week) .overflow
  okOr (U32.checkedMul n week) .overflow

def Point.exchange (point uOld uNew : Point) : Except Fault Point := do
  let slope ← okOr (I128.checkedAdd uNew.slope point.slope) .overflow
  let slope ← okOr (I128.checkedSub slope uOld.slope) .overflow
  let bias ← okOr (I128.checkedAdd point.bias uNew.bias) .overflow
  let bias ← okOr (I128.checkedSub bias uOld.bias) .overflow
  pure { point with bias := max bias 0, slope := max slope 0 }

def moveGlobal (s : State cfg) (uOld uNew : Point) : Except Fault (State cfg) := do
  let t ← weekStart cfg.week s.lastPoint.block
  let w ← walk cfg.week s.slopeChanges s.supply s.blockNumber 255 t
    ⟨s.epoch, s.lastPoint, s.pointHistory⟩
  let point ← w.point.exchange uOld uNew
  pure { s with epoch := w.epoch, pointHistory := Function.update w.history w.epoch point }

/-- The slope that ends with the old lock. -/
def oldDslope (slopeChanges : ℕ → ℤ) (oldLocked newLocked : LockedBalance) (uOld uNew : Point) :
    Except Fault ℤ := do
  let dSlope ← okOr (I128.checkedAdd (slopeChanges oldLocked.endBlock) uOld.slope) .overflow
  if newLocked.endBlock = oldLocked.endBlock then
    okOr (I128.checkedSub dSlope uNew.slope) .overflow
  else pure dSlope

def moveOldSlope (slopeChanges : ℕ → ℤ) (now : ℕ) (oldLocked newLocked : LockedBalance)
    (uOld uNew : Point) : Except Fault (ℕ → ℤ) :=
  if now < oldLocked.endBlock then do
    let dSlope ← oldDslope slopeChanges oldLocked newLocked uOld uNew
    pure (Function.update slopeChanges oldLocked.endBlock dSlope)
  else pure slopeChanges

def moveSlopes (slopeChanges : ℕ → ℤ) (now : ℕ) (oldLocked newLocked : LockedBalance)
    (uOld uNew : Point) : Except Fault (ℕ → ℤ) := do
  let newDslope := if newLocked.endBlock ≠ 0 then slopeChanges newLocked.endBlock else 0
  let changes ← moveOldSlope slopeChanges now oldLocked newLocked uOld uNew
  if now < newLocked.endBlock ∧ oldLocked.endBlock < newLocked.endBlock then do
    let dSlope ← okOr (I128.checkedSub newDslope uNew.slope) .overflow
    pure (Function.update changes newLocked.endBlock dSlope)
  else pure changes

/-- The points of a position, the last one at its epoch. -/
def State.recordUserPoint (s : State cfg) (position : ℕ) (point : Point) : State cfg :=
  let epoch := s.userPointEpoch position + 1
  { s with
    userPointEpoch := Function.update s.userPointEpoch position epoch
    userPointHistory := Function.update s.userPointHistory position
      (Function.update (s.userPointHistory position) epoch point) }

def movePoints (s : State cfg) (position : ℕ) (oldLocked newLocked : LockedBalance) :
    Except Fault (State cfg) := do
  let uOld ← linePoint cfg s.blockNumber oldLocked
  let uNew ← linePoint cfg s.blockNumber newLocked
  let moved ← moveGlobal s uOld uNew
  let changes ← moveSlopes s.slopeChanges s.blockNumber oldLocked newLocked uOld uNew
  pure ({ moved with slopeChanges := changes }.recordUserPoint position
    { uNew with block := s.blockNumber, amount := newLocked.amount })

/-! Balances. -/

/-- A quarter of the amount and the weighted bias. -/
def votingPower (cfg : Config AccountId) (amount : ℕ) (bias : ℤ) : Except Fault ℕ := do
  let weight ← okOr (cfg.voteWeightMultiplier.checkedMulInt bias.toNat) .overflow
  okOr (U128.checkedAdd (amount / 4) weight) .overflow

/-- The balance that a point gives at a block; the block may be before the point. -/
def Point.powerAt (cfg : Config AccountId) (point : Point) (block : ℕ) : Except Fault ℕ := do
  let fallen ← okOr (I128.checkedMul point.slope ((block : ℤ) - point.block)) .overflow
  let bias ← okOr (I128.checkedSub point.bias fallen) .overflow
  votingPower cfg point.amount (max bias 0)

def State.lastUserPoint (s : State cfg) (position : ℕ) : Point :=
  s.userPointHistory position (s.userPointEpoch position)

def balanceOfPositionCurrentBlock (s : State cfg) (position : ℕ) : Except Fault ℕ :=
  if (s.locked position).endBlock ≤ s.blockNumber then pure 0
  else if s.userPointEpoch position = 0 then pure 0
  else (s.lastUserPoint position).powerAt cfg s.blockNumber

def searchEpoch (points : ℕ → Point) (block : ℕ) : ℕ → ℕ → ℕ → ℕ
  | 0, low, _ => low
  | fuel + 1, low, high =>
    if high ≤ low then low
    else
      let mid := (low + high + 1) / 2
      if (points mid).block ≤ block then searchEpoch points block fuel mid high
      else searchEpoch points block fuel low (mid - 1)

def balanceOfPositionAt (s : State cfg) (position block : ℕ) : Except Fault ℕ :=
  if (s.locked position).endBlock ≤ block then pure 0
  else
    let epoch := searchEpoch (s.userPointHistory position) block 128 0 (s.userPointEpoch position)
    (s.userPointHistory position epoch).powerAt cfg block

def sumBalances (balanceOf : ℕ → Except Fault ℕ) (positions : List ℕ) : Except Fault ℕ :=
  positions.foldlM (fun balance position => do
    let amount ← balanceOf position
    okOr (U128.checkedAdd balance amount) .overflow) 0

def balanceOfAt (s : State cfg) (who : AccountId) (block : ℕ) : Except Fault ℕ :=
  sumBalances (fun position => balanceOfPositionAt s position block) (s.userPositions who)

def balanceOfCurrentBlock (s : State cfg) (who : AccountId) : Except Fault ℕ :=
  sumBalances (balanceOfPositionCurrentBlock s) (s.userPositions who)

def balanceOf (s : State cfg) (who : AccountId) : Option ℕ → Except Fault ℕ
  | some t => balanceOfAt s who t
  | none => balanceOfCurrentBlock s who

/-- The loop of `supply_at`; the slope is added without a check. -/
def supplyWalk (week : ℕ) (slopeChanges : ℕ → ℤ) (t : ℕ) : ℕ → ℕ → Point → Except Fault ℤ
  | 0, _, point => pure point.bias
  | fuel + 1, tI, point => do
    let next := tI + week
    let tI := if t < next then t else next
    let dSlope := if t < next then 0 else slopeChanges next
    let bias ← point.decayTo tI
    if tI = t then pure bias
    else
      supplyWalk week slopeChanges t fuel tI
        { point with bias := bias, slope := I128.wrappingAdd point.slope dSlope, block := tI }

def supplyAt (s : State cfg) (point : Point) (t : ℕ) : Except Fault ℕ := do
  let tI ← weekStart cfg.week point.block
  let bias ← supplyWalk cfg.week s.slopeChanges t 255 tI point
  votingPower cfg point.amount (max bias 0)

def totalSupply (s : State cfg) (time : Option ℕ) : Except Fault ℕ :=
  supplyAt s (s.pointHistory s.epoch) (time.getD s.blockNumber)

end Bifrost.BbBnc
