import Bifrost.BbBnc.Incentive

/-!
# The calls of the bb-bnc pallet

`lib.rs`: positions and their locks, markups, and the hook that withdraws expired positions.
Events are left out.
-/

namespace Bifrost.BbBnc

open Result
set_option autoImplicit false

variable {AccountId : Type} [DecidableEq AccountId] {cfg : Config AccountId}

def State.setLocked (s : State cfg) (position : ℕ) (locked : LockedBalance) : State cfg :=
  { s with locked := Function.update s.locked position locked }

/-! Positions. -/

def createPosition (s : State cfg) (who : AccountId) : Except Fault (State cfg) := do
  let position := s.position
  ensure ((s.userPositions who).length < cfg.maxPositions) (.pallet .exceedsMaxPositions)
  pure ({ s with
    userPositions := Function.update s.userPositions who (s.userPositions who ++ [position])
    position := position + 1
    positionOwner := Function.update s.positionOwner position (some who) }.setLocked position .zero)

def removePosition (s : State cfg) (who : AccountId) (position : ℕ) : Except Fault (State cfg) := do
  ensure (position ∈ s.userPositions who) (.pallet .lockNotExist)
  pure ({ s with
    userPositions := Function.update s.userPositions who
      ((s.userPositions who).filter fun p => p ≠ position)
    positionOwner := Function.update s.positionOwner position none
    userPointEpoch := Function.update s.userPointEpoch position 0 }.setLocked position .zero)

def recordExpiringPosition (s : State cfg) (position unlockTime : ℕ) :
    Except Fault (State cfg) := do
  let positions := s.expiringPositions unlockTime
  ensure (position ∈ positions ∨ positions.length < 100) (.pallet .exceedsMaxPositions)
  pure { s with
    expiringPositions := Function.update s.expiringPositions unlockTime
      (if position ∈ positions then positions else positions ++ [position])
    nextExpiringBlock :=
      if s.nextExpiringBlock = 0 ∨ unlockTime < s.nextExpiringBlock then unlockTime
      else s.nextExpiringBlock }

def removeExpiringPosition (s : State cfg) (position unlockTime : ℕ) : State cfg :=
  { s with
    expiringPositions := Function.update s.expiringPositions unlockTime
      ((s.expiringPositions unlockTime).filter fun p => p ≠ position) }

/-- A lock cannot be set to zero; it is removed. -/
def setVeLocked (s : State cfg) (who : AccountId) (newLockedBalance : ℕ) :
    Except Fault (State cfg) := do
  let ledger ← mapErr
    (if newLockedBalance = 0 then
      cfg.currencies.removeLock s.ledger .bbLockId cfg.tokenType who
    else
      cfg.currencies.setLock s.ledger .bbLockId cfg.tokenType who newLockedBalance) .token
  pure { s with
    ledger := ledger
    userLocked := Function.update s.userLocked who newLockedBalance }

def refreshGaugePool (s : State cfg) (who : AccountId) : Except Fault (State cfg) := do
  let (outside, ledger) ← okOr (cfg.refreshGaugePool s.outside s.ledger
    (fun who => (balanceOfCurrentBlock s who).toOption) who) .farming
  pure { s with outside := outside, ledger := ledger }

/-! Checkpoints. -/

def checkpoint (s : State cfg) (who : AccountId) (position : ℕ)
    (oldLocked newLocked : LockedBalance) : Except Fault (State cfg) := do
  let s ← updateRewardAll s who
  movePoints s position oldLocked newLocked

def markedUp (coefficient : FixedU128) (locked : LockedBalance) : Except Fault LockedBalance := do
  let markup ← okOr (coefficient.checkedMulInt locked.amount) .overflow
  let amount ← okOr (U128.checkedAdd markup locked.amount) .overflow
  pure { locked with amount := amount }

def markupCalc (s : State cfg) (who : AccountId) (position : ℕ)
    (oldLocked newLocked : LockedBalance) (userMarkupInfo : Option UserMarkupInfo) :
    Except Fault (State cfg) :=
  match userMarkupInfo with
  | some info => do
    let oldLocked ← markedUp info.oldMarkupCoefficient oldLocked
    let newLocked ← markedUp info.markupCoefficient newLocked
    checkpoint s who position oldLocked newLocked
  | none => checkpoint s who position oldLocked newLocked

def lockValue (s : State cfg) (who : AccountId) (value : ℕ) : Except Fault (State cfg) :=
  if value = 0 then pure s
  else do
    let newLockedBalance ← okOr (U128.checkedAdd (s.userLocked who) value) .overflow
    ensure (newLockedBalance ≤ cfg.currencies.freeBalance s.ledger cfg.tokenType who)
      (.pallet .notEnoughBalance)
    setVeLocked s who newLockedBalance

def depositForInner (s : State cfg) (who : AccountId) (position value unlockTime : ℕ)
    (locked : LockedBalance) : Except Fault (State cfg) := do
  let supply ← okOr (U128.checkedAdd s.supply value) .overflow
  let oldLocked := locked
  let amount ← okOr (U128.checkedAdd locked.amount value) .overflow
  let locked : LockedBalance :=
    ⟨amount, if unlockTime ≠ 0 then unlockTime else locked.endBlock⟩
  let s := { s with supply := supply }.setLocked position locked
  let s ← lockValue s who value
  markupCalc s who position oldLocked locked (s.userMarkupInfos who)

/-! Locks. -/

def weekAfter (week time : ℕ) : Except Fault ℕ := do
  let n ← okOr (U128.checkedDiv time week) .overflow
  okOr (U32.checkedMul (U32.saturatingAdd n 1) week) .overflow

/-- The bounds on an unlock time, which both calls check. -/
def checkUnlockTime (s : State cfg) (realUnlockTime : ℕ) : Except Fault PUnit := do
  ensure (U32.saturatingAdd s.bbConfig.minBlock s.blockNumber ≤ realUnlockTime)
    (.pallet .argumentsError)
  let maxBlock ← weekAfter cfg.week (U32.saturatingAdd cfg.maxBlock s.blockNumber)
  ensure (realUnlockTime ≤ maxBlock) (.pallet .argumentsError)

/-- The new position has no lock yet, so `LockExist` cannot occur. -/
def createLockInner (s : State cfg) (who : AccountId) (value unlockTime : ℕ) :
    Except Fault (State cfg) := do
  let newPosition := s.position
  let s ← createPosition s who
  ensure (s.bbConfig.minMint ≤ value) (.pallet .belowMinimumMint)
  let locked := s.locked newPosition
  let realUnlockTime ← weekAfter cfg.week (U32.saturatingAdd unlockTime s.blockNumber)
  checkUnlockTime s realUnlockTime
  ensure (locked.amount = 0) (.pallet .lockExist)
  let s ← recordExpiringPosition s newPosition realUnlockTime
  let s ← depositForInner s who newPosition value realUnlockTime locked
  refreshGaugePool s who

def increaseUnlockTimeInner (s : State cfg) (who : AccountId) (position unlockTime : ℕ) :
    Except Fault (State cfg) := do
  let locked := s.locked position
  ensure (s.blockNumber < locked.endBlock) (.pallet .expired)
  let realUnlockTime ← weekAfter cfg.week (U32.saturatingAdd unlockTime locked.endBlock)
  checkUnlockTime s realUnlockTime
  ensure (0 < locked.amount) (.pallet .lockNotExist)
  let s := removeExpiringPosition s position locked.endBlock
  let s ← recordExpiringPosition s position realUnlockTime
  let s ← depositForInner s who position 0 realUnlockTime locked
  refreshGaugePool s who

def increaseAmountInner (s : State cfg) (who : AccountId) (position value : ℕ) :
    Except Fault (State cfg) := do
  ensure (s.bbConfig.minMint ≤ value) (.pallet .belowMinimumMint)
  let locked := s.locked position
  ensure (0 < locked.amount) (.pallet .lockNotExist)
  ensure (s.blockNumber < locked.endBlock) (.pallet .expired)
  let s ← depositForInner s who position value 0 locked
  refreshGaugePool s who

def payCommission (s : State cfg) (who : AccountId) (value : ℕ) :
    Option FixedU128 → Except Fault (State cfg)
  | none => pure s
  | some fast =>
    if fast = .zero then pure s
    else do
      let commission ← okOr (fast.checkedMulInt value) .overflow
      let ledger ← mapErr (cfg.currencies.transfer s.ledger cfg.tokenType who cfg.buyBackAccount
        commission) .token
      pure { s with ledger := ledger }

def withdrawNoEnsure (s : State cfg) (who : AccountId) (position : ℕ) (locked : LockedBalance)
    (ifFast : Option FixedU128) : Except Fault (State cfg) := do
  let value := locked.amount
  let s := s.setLocked position .zero
  let supply ← okOr (U128.checkedSub s.supply value) .underflow
  let s := { s with supply := supply }
  let newLockedBalance ← okOr (U128.checkedSub (s.userLocked who) value) .underflow
  let s ← setVeLocked s who newLockedBalance
  let s ← payCommission s who value ifFast
  let s ← checkpoint s who position locked .zero
  let s ← refreshGaugePool s who
  removePosition s who position

/-- The square of the remaining years and one, in fifths. -/
def redeemCommission (cfg : Config AccountId) (remainingBlocks : ℕ) : Except Fault FixedU128 := do
  let remaining ← okOr ((U128.checkedMul remainingBlocks FixedU128.accuracy).map FixedU128.mk)
    .overflow
  let oneYear ← okOr ((U128.checkedMul cfg.oneYear FixedU128.accuracy).map FixedU128.mk) .overflow
  let fiveYears ← okOr ((U128.checkedMul cfg.fiveYears FixedU128.accuracy).map FixedU128.mk)
    .overflow
  let sum ← okOr (remaining.checkedAdd oneYear) .overflow
  let part ← okOr (sum.checkedDiv fiveYears) .overflow
  pure ⟨min (part.saturatingPow 2).inner FixedU128.one.inner⟩

def redeemUnlockInner (s : State cfg) (who : AccountId) (position : ℕ) :
    Except Fault (State cfg) := do
  let locked := s.locked position
  ensure (s.blockNumber < locked.endBlock) (.pallet .expired)
  let s := removeExpiringPosition s position locked.endBlock
  let fast ← redeemCommission cfg (locked.endBlock - s.blockNumber)
  withdrawNoEnsure s who position locked (some fast)

def withdrawInner (s : State cfg) (who : AccountId) (position : ℕ) : Except Fault (State cfg) := do
  let locked := s.locked position
  ensure (locked.endBlock ≤ s.blockNumber) (.pallet .expired)
  let s := removeExpiringPosition s position locked.endBlock
  withdrawNoEnsure s who position locked none

/-- The calls on a position are for its owner. -/
def ownPosition (s : State cfg) (who : AccountId) (position : ℕ)
    (call : Except Fault (State cfg)) : Except Fault (State cfg) := do
  ensure (position ∈ s.userPositions who) (.pallet .lockNotExist)
  call

/-! Markups. -/

def setMarkupCoefficient (s : State cfg) (currency : CurrencyId) (markup hardcap rwi : FixedU128) :
    State cfg :=
  { s with
    markupCoefficient := Function.update s.markupCoefficient currency
      (some ⟨markup, hardcap, s.blockNumber, rwi⟩) }

def updateMarkupInfo (s : State cfg) (who : AccountId) (newMarkupCoefficient : FixedU128)
    (info : UserMarkupInfo) : State cfg × UserMarkupInfo :=
  let info : UserMarkupInfo := ⟨info.markupCoefficient, newMarkupCoefficient⟩
  ({ s with userMarkupInfos := Function.update s.userMarkupInfos who (some info) }, info)

def newMarkup (info : MarkupCoefficientInfo) (amount totalLock issuance : ℕ) :
    Except Fault FixedU128 := do
  let ri ← okOr (U128.mulDiv FixedU128.accuracy amount totalLock) .overflow
  let left ← okOr (info.rwi.checkedMul ⟨ri⟩) .overflow
  let ni ← okOr (U128.mulDiv FixedU128.accuracy amount issuance) .overflow
  let right ← okOr ((FixedU128.mk ni).checkedMul info.markupCoefficient) .overflow
  let b ← okOr (left.checkedAdd right) .overflow
  pure ⟨min info.hardcap.inner b.inner⟩

def markupIssuance (s : State cfg) (currency : CurrencyId) : ℕ :=
  if currency.isVtoken then cfg.vCurrencyIssuance s.outside currency
  else cfg.currencies.totalIssuance s.ledger currency

/-- `saturating_sub` and `saturating_add` of what one currency adds to a coefficient. -/
def exchangeCoefficient (coefficient old new : FixedU128) : FixedU128 :=
  ⟨U128.saturatingAdd (coefficient.inner - old.inner) new.inner⟩

def remarkPosition (who : AccountId) (info : UserMarkupInfo) (s : State cfg) (position : ℕ) :
    Except Fault (State cfg) := do
  let locked := s.locked position
  ensure (locked.amount ≠ 0) (.pallet .argumentsError)
  markupCalc s who position locked locked (some info)

def remarkPositions (s : State cfg) (who : AccountId) (info : UserMarkupInfo) :
    Except Fault (State cfg) :=
  (s.userPositions who).foldlM (remarkPosition who info) s

def State.setLockedToken (s : State cfg) (currency : CurrencyId) (who : AccountId)
    (token : Option LockedToken) : State cfg :=
  { s with
    lockedTokens := Function.update s.lockedTokens currency
      ((s.lockedTokens currency).write who token) }

def depositMarkupInner (s : State cfg) (who : AccountId) (currency : CurrencyId) (value : ℕ) :
    Except Fault (State cfg) := do
  let coefficient ← okOr (s.markupCoefficient currency) (.pallet .argumentsError)
  ensure (value ≠ 0) (.pallet .argumentsError)
  let total ← okOr (U128.checkedAdd (s.totalLock currency) value) .overflow
  let s := { s with totalLock := Function.update s.totalLock currency total }
  let token := ((s.lockedTokens currency).get who).getD ⟨0, .zero, s.blockNumber⟩
  let amount := U128.saturatingAdd token.amount value
  let newMarkupCoefficient ← newMarkup coefficient amount total (markupIssuance s currency)
  let userMarkupInfo := (s.userMarkupInfos who).getD .zero
  let (s, userMarkupInfo) := updateMarkupInfo s who
    (exchangeCoefficient userMarkupInfo.markupCoefficient token.markupCoefficient
      newMarkupCoefficient) userMarkupInfo
  let ledger ← mapErr (cfg.currencies.setLock s.ledger .markupLockId currency who amount) .token
  let s := { s with ledger := ledger }.setLockedToken currency who
    (some ⟨amount, newMarkupCoefficient, s.blockNumber⟩)
  let s ← remarkPositions s who userMarkupInfo
  pure { s with
    markupCoefficient := Function.update s.markupCoefficient currency
      (some { coefficient with updateBlock := s.blockNumber }) }

def withdrawMarkupInner (s : State cfg) (who : AccountId) (currency : CurrencyId) :
    Except Fault (State cfg) := do
  let coefficient ← okOr (s.markupCoefficient currency) (.pallet .argumentsError)
  let s := { s with
    markupCoefficient := Function.update s.markupCoefficient currency
      (some { coefficient with updateBlock := s.blockNumber }) }
  let userMarkupInfo := (s.userMarkupInfos who).getD .zero
  let token ← okOr ((s.lockedTokens currency).get who) (.pallet .lockNotExist)
  let (s, userMarkupInfo) := updateMarkupInfo s who
    ⟨userMarkupInfo.markupCoefficient.inner - token.markupCoefficient.inner⟩ userMarkupInfo
  let total ← okOr (U128.checkedSub (s.totalLock currency) token.amount) .overflow
  let s := { s with totalLock := Function.update s.totalLock currency total }
  let ledger ← mapErr (cfg.currencies.removeLock s.ledger .markupLockId currency who) .token
  let s := { s with ledger := ledger }.setLockedToken currency who none
  remarkPositions s who userMarkupInfo

def refreshAccount (currency : CurrencyId) (coefficient : MarkupCoefficientInfo) (s : State cfg)
    (e : AccountId × LockedToken) : Except Fault (State cfg) := do
  let (who, token) := e
  let userMarkupInfo ← okOr (s.userMarkupInfos who) (.pallet .lockNotExist)
  let newMarkupCoefficient ← newMarkup coefficient token.amount (s.totalLock currency)
    (markupIssuance s currency)
  let (s, userMarkupInfo) := updateMarkupInfo s who
    (exchangeCoefficient userMarkupInfo.markupCoefficient token.markupCoefficient
      newMarkupCoefficient) userMarkupInfo
  let s := s.setLockedToken currency who
    (some ⟨token.amount, newMarkupCoefficient, s.blockNumber⟩)
  remarkPositions s who userMarkupInfo

/-- The accounts that `refresh_inner` comes to before its limit. -/
def dueTokens (s : State cfg) (currency : CurrencyId) (coefficient : MarkupCoefficientInfo) :
    List (AccountId × LockedToken) :=
  ((cfg.accountOrder.arrange (s.lockedTokens currency).keys).filterMap fun who =>
    ((s.lockedTokens currency).get who).bind fun token =>
      if token.refreshBlock ≤ coefficient.updateBlock then some (who, token) else none).take
    cfg.markupRefreshLimit

def refreshInner (s : State cfg) (currency : CurrencyId) : Except Fault (State cfg) := do
  let coefficient ← okOr (s.markupCoefficient currency) (.pallet .argumentsError)
  (dueTokens s currency coefficient).foldlM (refreshAccount currency coefficient) s

end Bifrost.BbBnc
