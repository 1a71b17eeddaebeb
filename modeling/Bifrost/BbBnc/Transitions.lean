import Bifrost.BbBnc.Calls

/-!
# What each function changes

A checkpoint changes the reward records and the points, the farming pallet and the payment of a
commission move tokens; everything else a call writes is written out here, once for each function.
-/

namespace Bifrost.BbBnc

open Result Machine
set_option autoImplicit false

variable {AccountId : Type} [DecidableEq AccountId] {cfg : Config AccountId}
  {s s' s₁ s₂ : State cfg} {who : AccountId} {p : ℕ} {currency : CurrencyId}
  {oldLocked newLocked : LockedBalance}

def RewardsOnly (s s' : State cfg) : Prop :=
  ∃ incentive paid rewards history, s' = { s with
    incentive := incentive
    userRewardPerTokenPaid := paid
    rewards := rewards
    history := history }

def PointsOnly (s s' : State cfg) : Prop :=
  ∃ epoch pointHistory slopeChanges userPointEpoch userPointHistory, s' = { s with
    epoch := epoch
    pointHistory := pointHistory
    slopeChanges := slopeChanges
    userPointEpoch := userPointEpoch
    userPointHistory := userPointHistory }

def RecordsOnly (s s' : State cfg) : Prop := ∃ s₁, RewardsOnly s s₁ ∧ PointsOnly s₁ s'

/-- Tokens move and the other pallets change their storage. -/
def OutsideOnly (s s' : State cfg) : Prop :=
  ∃ outside ledger, cfg.currencies.Moves s.ledger ledger ∧
    s' = { s with outside := outside, ledger := ledger }

theorem RewardsOnly.refl (s : State cfg) : RewardsOnly s s := ⟨_, _, _, _, rfl⟩

theorem RewardsOnly.trans (h : RewardsOnly s s₁) (h' : RewardsOnly s₁ s₂) : RewardsOnly s s₂ := by
  obtain ⟨_, _, _, _, rfl⟩ := h
  obtain ⟨_, _, _, _, rfl⟩ := h'
  exact ⟨_, _, _, _, rfl⟩

theorem RecordsOnly.refl (s : State cfg) : RecordsOnly s s :=
  ⟨s, .refl s, _, _, _, _, _, rfl⟩

theorem RecordsOnly.trans (h : RecordsOnly s s₁) (h' : RecordsOnly s₁ s₂) : RecordsOnly s s₂ := by
  obtain ⟨_, ⟨_, _, _, _, rfl⟩, _, _, _, _, _, rfl⟩ := h
  obtain ⟨_, ⟨_, _, _, _, rfl⟩, _, _, _, _, _, rfl⟩ := h'
  exact ⟨_, ⟨_, _, _, _, rfl⟩, _, _, _, _, _, rfl⟩

theorem OutsideOnly.refl (s : State cfg) : OutsideOnly s s := ⟨_, _, .refl _, rfl⟩

/-! Rewards. -/

theorem rewardPerToken_ok (h : rewardPerToken s = .ok s') :
    ∃ conf, calculateRewardPerToken s = .ok conf ∧ s' = s.setIncentive conf := by
  simp only [rewardPerToken, bind_eq_ok, pure_eq_ok] at h
  obtain ⟨conf, hconf, rfl⟩ := h
  exact ⟨conf, hconf, rfl⟩

theorem settlePool_rewardsOnly (h : settlePool s = .ok s') : RewardsOnly s s' := by
  simp only [settlePool, bind_eq_ok, pure_eq_ok] at h
  obtain ⟨s₁, h₁, rfl⟩ := h
  obtain ⟨conf, -, rfl⟩ := rewardPerToken_ok h₁
  exact ⟨_, _, _, _, rfl⟩

theorem credit_rewardsOnly (s : State cfg) (who : AccountId) (earned : Table CurrencyId ℕ) :
    RewardsOnly s (s.credit who earned) := by
  unfold State.credit
  split
  · exact .refl s
  · exact ⟨_, _, _, _, rfl⟩

theorem updateReward_rewardsOnly {account : Option AccountId} (h : updateReward s account = .ok s') :
    RewardsOnly s s' := by
  simp only [updateReward, bind_eq_ok] at h
  obtain ⟨s₁, hsettle, h⟩ := h
  have h₁ := settlePool_rewardsOnly hsettle
  cases account with
  | none =>
    rw [pure_eq_ok] at h
    exact h ▸ h₁
  | some account =>
    simp only [bind_eq_ok, pure_eq_ok] at h
    obtain ⟨⟨s₂, total⟩, hearned, rfl⟩ := h
    simp only [BbBnc.earned, bind_eq_ok, pure_eq_ok] at hearned
    obtain ⟨s₃, h₃, _, _, _, _, hpair⟩ := hearned
    rw [Prod.mk_inj] at hpair
    obtain ⟨rfl, -⟩ := hpair
    obtain ⟨conf, -, rfl⟩ := rewardPerToken_ok h₃
    have h₂ : RewardsOnly s (s₁.setIncentive conf) := h₁.trans ⟨_, _, _, _, rfl⟩
    obtain ⟨_, _, _, _, hcredit⟩ := h₂.trans (credit_rewardsOnly _ account total)
    rw [hcredit]
    exact ⟨_, _, _, _, rfl⟩

/-! Points. -/

theorem moveGlobal_ok {uOld uNew : Point} (h : moveGlobal s uOld uNew = .ok s') :
    ∃ t w point, weekStart cfg.week s.lastPoint.block = .ok t ∧
      walk cfg.week s.slopeChanges s.supply s.blockNumber 255 t
        ⟨s.epoch, s.lastPoint, s.pointHistory⟩ = .ok w ∧
      w.point.exchange uOld uNew = .ok point ∧
      s' = { s with
        epoch := w.epoch, pointHistory := Function.update w.history w.epoch point } := by
  simp only [moveGlobal, bind_eq_ok, pure_eq_ok] at h
  obtain ⟨t, ht, w, hw, point, hpoint, rfl⟩ := h
  exact ⟨t, w, point, ht, hw, hpoint, rfl⟩

theorem movePoints_ok (h : movePoints s p oldLocked newLocked = .ok s') :
    ∃ uOld uNew moved changes, linePoint cfg s.blockNumber oldLocked = .ok uOld ∧
      linePoint cfg s.blockNumber newLocked = .ok uNew ∧ moveGlobal s uOld uNew = .ok moved ∧
      moveSlopes s.slopeChanges s.blockNumber oldLocked newLocked uOld uNew = .ok changes ∧
      s' = { moved with slopeChanges := changes }.recordUserPoint p
        { uNew with block := s.blockNumber, amount := newLocked.amount } := by
  simp only [movePoints, bind_eq_ok, pure_eq_ok] at h
  obtain ⟨uOld, hOld, uNew, hNew, moved, hmoved, changes, hchanges, rfl⟩ := h
  exact ⟨uOld, uNew, moved, changes, hOld, hNew, hmoved, hchanges, rfl⟩

theorem movePoints_pointsOnly
    (h : movePoints s p oldLocked newLocked = .ok s') : PointsOnly s s' := by
  obtain ⟨uOld, uNew, moved, changes, -, -, hmoved, -, rfl⟩ := movePoints_ok h
  obtain ⟨t, w, point, -, -, -, rfl⟩ := moveGlobal_ok hmoved
  exact ⟨_, _, _, _, _, rfl⟩

theorem checkpoint_ok (h : checkpoint s who p oldLocked newLocked = .ok s') :
    ∃ s₁, updateReward s (some who) = .ok s₁ ∧ movePoints s₁ p oldLocked newLocked = .ok s' := by
  simp only [checkpoint, updateRewardAll, bind_eq_ok] at h
  exact h

theorem checkpoint_recordsOnly
    (h : checkpoint s who p oldLocked newLocked = .ok s') : RecordsOnly s s' := by
  obtain ⟨s₁, hupdate, hmove⟩ := checkpoint_ok h
  exact ⟨s₁, updateReward_rewardsOnly hupdate, movePoints_pointsOnly hmove⟩

/-- What a markup coefficient makes of an amount. -/
def marked (coefficient : FixedU128) (amount : ℕ) : ℕ :=
  coefficient.inner * amount / FixedU128.accuracy + amount

theorem markedUp_ok {coefficient : FixedU128} {locked locked' : LockedBalance}
    (h : markedUp coefficient locked = .ok locked') :
    locked' = ⟨marked coefficient locked.amount, locked.endBlock⟩ := by
  simp only [markedUp, FixedU128.checkedMulInt, bind_eq_ok, okOr_eq_ok, U128.mulDiv_eq_some,
    U128.checkedAdd_eq_some, pure_eq_ok] at h
  obtain ⟨_, ⟨-, rfl, -⟩, _, ⟨rfl, -⟩, rfl⟩ := h
  rfl

/-- The coefficients that `markup_calc` applies to the old and to the new lock. -/
def oldCoefficient (info : Option UserMarkupInfo) : FixedU128 :=
  info.elim .zero UserMarkupInfo.oldMarkupCoefficient

def newCoefficient (info : Option UserMarkupInfo) : FixedU128 :=
  info.elim .zero UserMarkupInfo.markupCoefficient

@[simp] theorem marked_zero (amount : ℕ) : marked .zero amount = amount := by
  simp [marked, FixedU128.zero]

theorem markupCalc_ok {info : Option UserMarkupInfo}
    (h : markupCalc s who p oldLocked newLocked info = .ok s') :
    checkpoint s who p ⟨marked (oldCoefficient info) oldLocked.amount, oldLocked.endBlock⟩
      ⟨marked (newCoefficient info) newLocked.amount, newLocked.endBlock⟩ = .ok s' := by
  cases info with
  | none =>
    simp only [oldCoefficient, newCoefficient, Option.elim_none, marked_zero]
    exact h
  | some info =>
    simp only [markupCalc, bind_eq_ok] at h
    obtain ⟨old, hold, new, hnew, h⟩ := h
    rw [markedUp_ok hold, markedUp_ok hnew] at h
    exact h

theorem markupCalc_recordsOnly
    {info : Option UserMarkupInfo} (h : markupCalc s who p oldLocked newLocked info = .ok s') :
    RecordsOnly s s' :=
  checkpoint_recordsOnly (markupCalc_ok h)

theorem remarkPosition_ok {info : UserMarkupInfo} (h : remarkPosition who info s p = .ok s') :
    (s.locked p).amount ≠ 0 ∧ checkpoint s who p
      ⟨marked info.oldMarkupCoefficient (s.locked p).amount, (s.locked p).endBlock⟩
      ⟨marked info.markupCoefficient (s.locked p).amount, (s.locked p).endBlock⟩ = .ok s' := by
  simp only [remarkPosition, bind_eq_ok, ensure_eq_ok] at h
  obtain ⟨-, hne, h⟩ := h
  exact ⟨hne, markupCalc_ok h⟩

theorem remarkPositions_recordsOnly {info : UserMarkupInfo}
    (h : remarkPositions s who info = .ok s') : RecordsOnly s s' := by
  refine foldlM_rel (R := RecordsOnly) .refl .trans ?_ h
  intro s p s' h
  exact checkpoint_recordsOnly (remarkPosition_ok h).2

/-! Tokens. -/

theorem refreshGaugePool_outsideOnly (h : refreshGaugePool s who = .ok s') : OutsideOnly s s' := by
  simp only [refreshGaugePool, bind_eq_ok, okOr_eq_ok, pure_eq_ok] at h
  obtain ⟨⟨outside, ledger⟩, hrefresh, rfl⟩ := h
  exact ⟨outside, ledger, cfg.refreshGaugePool_moves hrefresh, rfl⟩

theorem payCommission_outsideOnly {value : ℕ} {ifFast : Option FixedU128}
    (h : payCommission s who value ifFast = .ok s') : OutsideOnly s s' := by
  unfold payCommission at h
  split at h
  · rw [pure_eq_ok] at h
    exact h ▸ .refl s
  · split at h
    · rw [pure_eq_ok] at h
      exact h ▸ .refl s
    · simp only [bind_eq_ok, mapErr_eq_ok, pure_eq_ok] at h
      obtain ⟨_, _, ledger, htransfer, rfl⟩ := h
      exact ⟨s.outside, ledger, (.transfer (.refl _) htransfer), rfl⟩

/-- The lock of an account becomes its new locked balance. -/
def LocksSet (s : State cfg) (who : AccountId) (n : ℕ) (ledger : cfg.currencies.Ledger) : Prop :=
  cfg.currencies.freeBalance ledger = cfg.currencies.freeBalance s.ledger ∧
  ∀ i c w, cfg.currencies.lock ledger i c w =
    if i = .bbLockId ∧ c = cfg.tokenType ∧ w = who then n else cfg.currencies.lock s.ledger i c w

theorem setVeLocked_ok {n : ℕ} (h : setVeLocked s who n = .ok s') :
    ∃ ledger, LocksSet s who n ledger ∧ s' = { s with
      ledger := ledger, userLocked := Function.update s.userLocked who n } := by
  simp only [setVeLocked, bind_eq_ok, mapErr_eq_ok, pure_eq_ok] at h
  obtain ⟨ledger, hlock, rfl⟩ := h
  refine ⟨ledger, ?_, rfl⟩
  split at hlock
  · rename_i hzero
    subst n
    exact ⟨cfg.currencies.removeLock_free hlock, cfg.currencies.removeLock_lock hlock⟩
  · rename_i hne
    exact ⟨cfg.currencies.setLock_free hlock, cfg.currencies.setLock_lock hlock hne⟩

/-! Positions. -/

def State.created (s : State cfg) (who : AccountId) : State cfg :=
  { s with
    userPositions := Function.update s.userPositions who (s.userPositions who ++ [s.position])
    position := s.position + 1
    positionOwner := Function.update s.positionOwner s.position (some who) }.setLocked s.position
      .zero

theorem createPosition_ok (h : createPosition s who = .ok s') :
    (s.userPositions who).length < cfg.maxPositions ∧ s' = s.created who := by
  simp only [createPosition, bind_eq_ok, ensure_eq_ok, pure_eq_ok] at h
  obtain ⟨-, hlength, rfl⟩ := h
  exact ⟨hlength, rfl⟩

def State.removed (s : State cfg) (who : AccountId) (p : ℕ) : State cfg :=
  { s with
    userPositions := Function.update s.userPositions who
      ((s.userPositions who).filter fun q => q ≠ p)
    positionOwner := Function.update s.positionOwner p none
    userPointEpoch := Function.update s.userPointEpoch p 0 }.setLocked p .zero

theorem removePosition_ok (h : removePosition s who p = .ok s') :
    p ∈ s.userPositions who ∧ s' = s.removed who p := by
  simp only [removePosition, bind_eq_ok, ensure_eq_ok, pure_eq_ok] at h
  obtain ⟨-, hmem, rfl⟩ := h
  exact ⟨hmem, rfl⟩

def State.recorded (s : State cfg) (p unlockTime : ℕ) : State cfg :=
  { s with
    expiringPositions := Function.update s.expiringPositions unlockTime
      (if p ∈ s.expiringPositions unlockTime then s.expiringPositions unlockTime
      else s.expiringPositions unlockTime ++ [p])
    nextExpiringBlock :=
      if s.nextExpiringBlock = 0 ∨ unlockTime < s.nextExpiringBlock then unlockTime
      else s.nextExpiringBlock }

theorem recordExpiringPosition_ok {unlockTime : ℕ}
    (h : recordExpiringPosition s p unlockTime = .ok s') : s' = s.recorded p unlockTime := by
  simp only [recordExpiringPosition, bind_eq_ok, pure_eq_ok] at h
  obtain ⟨-, -, rfl⟩ := h
  rfl

def State.lockMore (s : State cfg) (who : AccountId) (p value : ℕ) (newLocked : LockedBalance)
    (ledger : cfg.currencies.Ledger) : State cfg :=
  { s with
    supply := s.supply + value
    ledger := ledger
    userLocked := Function.update s.userLocked who (s.userLocked who + value) }.setLocked p newLocked

theorem depositForInner_ok {value unlockTime : ℕ} {locked : LockedBalance}
    (h : depositForInner s who p value unlockTime locked = .ok s') :
    ∃ newLocked : LockedBalance, newLocked.amount = locked.amount + value ∧
      newLocked.endBlock = (if unlockTime ≠ 0 then unlockTime else locked.endBlock) ∧
      ∃ ledger, cfg.currencies.freeBalance ledger = cfg.currencies.freeBalance s.ledger ∧
        (value = 0 → ledger = s.ledger) ∧
        (value ≠ 0 → LocksSet s who (s.userLocked who + value) ledger) ∧
        markupCalc (s.lockMore who p value newLocked ledger) who p locked newLocked
          (s.userMarkupInfos who) = .ok s' := by
  simp only [depositForInner, bind_eq_ok, okOr_eq_ok, U128.checkedAdd_eq_some] at h
  obtain ⟨_, ⟨rfl, -⟩, _, ⟨rfl, -⟩, s₁, hlock, h⟩ := h
  refine ⟨⟨locked.amount + value, if unlockTime ≠ 0 then unlockTime else locked.endBlock⟩, rfl,
    rfl, ?_⟩
  unfold lockValue at hlock
  by_cases hvalue : value = 0
  · subst value
    rw [if_pos rfl, pure_eq_ok] at hlock
    subst s₁
    refine ⟨s.ledger, rfl, fun _ => rfl, fun hne => absurd rfl hne, ?_⟩
    have hsame : s.lockMore who p 0 ⟨locked.amount + 0,
        if unlockTime ≠ 0 then unlockTime else locked.endBlock⟩ s.ledger =
        { s with supply := s.supply + 0 }.setLocked p ⟨locked.amount + 0,
          if unlockTime ≠ 0 then unlockTime else locked.endBlock⟩ := by
      simp [State.lockMore]
    rw [hsame]
    exact h
  · rw [if_neg hvalue] at hlock
    simp only [bind_eq_ok, okOr_eq_ok, U128.checkedAdd_eq_some, ensure_eq_ok] at hlock
    obtain ⟨_, ⟨rfl, -⟩, -, -, hset⟩ := hlock
    obtain ⟨ledger, hlocks, rfl⟩ := setVeLocked_ok hset
    exact ⟨ledger, hlocks.1, fun hzero => absurd hzero hvalue, fun _ => hlocks, h⟩

def State.lockLess (s : State cfg) (who : AccountId) (p value : ℕ)
    (ledger : cfg.currencies.Ledger) : State cfg :=
  { s with
    supply := s.supply - value
    ledger := ledger
    userLocked := Function.update s.userLocked who (s.userLocked who - value) }.setLocked p .zero

theorem withdrawNoEnsure_ok {locked : LockedBalance} {ifFast : Option FixedU128}
    (h : withdrawNoEnsure s who p locked ifFast = .ok s') :
    locked.amount ≤ s.supply ∧ locked.amount ≤ s.userLocked who ∧
      ∃ ledger s₁ s₂ s₃, LocksSet s who (s.userLocked who - locked.amount) ledger ∧
        OutsideOnly (s.lockLess who p locked.amount ledger) s₁ ∧
        checkpoint s₁ who p locked .zero = .ok s₂ ∧ refreshGaugePool s₂ who = .ok s₃ ∧
        removePosition s₃ who p = .ok s' := by
  simp only [withdrawNoEnsure, bind_eq_ok, okOr_eq_ok, U128.checkedSub_eq_some] at h
  obtain ⟨_, ⟨hsupply, rfl⟩, _, ⟨huser, rfl⟩, s₀, hset, s₁, hpay, s₂, hcheck, s₃, hrefresh, h⟩ := h
  obtain ⟨ledger, hlocks, rfl⟩ := setVeLocked_ok hset
  exact ⟨hsupply, huser, ledger, s₁, s₂, s₃, hlocks, payCommission_outsideOnly hpay, hcheck,
    hrefresh, h⟩

/-! Locks. -/

/-- An unlock time is the end of a week. -/
structure WeekEnd (week unlockTime : ℕ) : Prop where
  week_pos : 0 < week
  dvd : week ∣ unlockTime
  pos : 0 < unlockTime
  le : unlockTime ≤ u32Max

theorem weekAfter_ok {week time unlockTime : ℕ} (h : weekAfter week time = .ok unlockTime) :
    WeekEnd week unlockTime ∧ (time ≤ u32Max → time ≤ unlockTime) := by
  simp only [weekAfter, bind_eq_ok, okOr_eq_ok, U128.checkedDiv_eq_some,
    U32.checkedMul_eq_some] at h
  obtain ⟨n, ⟨hweek, rfl⟩, rfl, hle⟩ := h
  refine ⟨⟨hweek, Nat.dvd_mul_left _ _, Nat.mul_pos ?_ hweek, hle⟩, fun htime => ?_⟩
  · exact lt_min (Nat.succ_pos _) (by decide)
  · unfold U32.saturatingAdd
    rcases le_total (time / week + 1) u32Max with hn | hn
    · rw [Nat.min_eq_left hn]
      exact (Nat.lt_div_mul_add hweek).le.trans_eq (Nat.succ_mul _ _).symm
    · rw [Nat.min_eq_right hn]
      exact htime.trans (Nat.le_mul_of_pos_right _ hweek)

/-- A lock of `value` more is checkpointed for a position, and the farming pallet is told. -/
def Deposits (s : State cfg) (who : AccountId) (p value : ℕ) (old new : LockedBalance)
    (s' : State cfg) : Prop :=
  new.amount = old.amount + value ∧ ∃ ledger s₁,
    cfg.currencies.freeBalance ledger = cfg.currencies.freeBalance s.ledger ∧
    (value = 0 → ledger = s.ledger) ∧
    (value ≠ 0 → LocksSet s who (s.userLocked who + value) ledger) ∧
    markupCalc (s.lockMore who p value new ledger) who p old new (s.userMarkupInfos who) = .ok s₁ ∧
    OutsideOnly s₁ s'

theorem depositForInner_deposits {value unlockTime : ℕ} {locked : LockedBalance}
    (h : depositForInner s who p value unlockTime locked = .ok s₁)
    (hrefresh : refreshGaugePool s₁ who = .ok s') :
    Deposits s who p value locked ⟨locked.amount + value,
      if unlockTime ≠ 0 then unlockTime else locked.endBlock⟩ s' := by
  obtain ⟨new, hamount, hend, ledger, hfree, hzero, hset, hmarkup⟩ := depositForInner_ok h
  have hnew : new = ⟨locked.amount + value,
      if unlockTime ≠ 0 then unlockTime else locked.endBlock⟩ := by
    rw [← hamount, ← hend]
  subst new
  exact ⟨rfl, ledger, s₁, hfree, hzero, hset, hmarkup, refreshGaugePool_outsideOnly hrefresh⟩

theorem createLockInner_ok {value unlockTime : ℕ}
    (h : createLockInner s who value unlockTime = .ok s') :
    ∃ endBlock, WeekEnd cfg.week endBlock ∧
      Deposits ((s.created who).recorded s.position endBlock) who s.position value .zero
        ⟨value, endBlock⟩ s' := by
  simp only [createLockInner, bind_eq_ok] at h
  obtain ⟨s₁, hcreate, -, -, endBlock, hend, -, -, -, -, s₂, hrecord, s₃, hdeposit, hrefresh⟩ := h
  obtain ⟨-, rfl⟩ := createPosition_ok hcreate
  obtain ⟨hweek, -⟩ := weekAfter_ok hend
  refine ⟨endBlock, hweek, ?_⟩
  rw [recordExpiringPosition_ok hrecord] at hdeposit
  have hzero : (s.created who).locked s.position = .zero := by
    simp [State.created, State.setLocked]
  rw [hzero] at hdeposit
  have hdeposits := depositForInner_deposits hdeposit hrefresh
  rw [if_pos (Nat.ne_of_gt hweek.pos)] at hdeposits
  simpa [LockedBalance.zero] using hdeposits

theorem increaseAmountInner_ok {value : ℕ} (h : increaseAmountInner s who p value = .ok s') :
    0 < (s.locked p).amount ∧ s.blockNumber < (s.locked p).endBlock ∧
      Deposits s who p value (s.locked p)
        ⟨(s.locked p).amount + value, (s.locked p).endBlock⟩ s' := by
  simp only [increaseAmountInner, bind_eq_ok, ensure_eq_ok] at h
  obtain ⟨-, -, -, hamount, -, hend, s₁, hdeposit, hrefresh⟩ := h
  have hdeposits := depositForInner_deposits hdeposit hrefresh
  simp only [ne_eq, not_true_eq_false, if_false] at hdeposits
  exact ⟨hamount, hend, hdeposits⟩

theorem increaseUnlockTimeInner_ok {time : ℕ}
    (h : increaseUnlockTimeInner s who p time = .ok s') :
    ∃ endBlock, WeekEnd cfg.week endBlock ∧ min (s.locked p).endBlock u32Max ≤ endBlock ∧
      0 < (s.locked p).amount ∧ s.blockNumber < (s.locked p).endBlock ∧
      Deposits ((removeExpiringPosition s p (s.locked p).endBlock).recorded p endBlock) who p 0
        (s.locked p) ⟨(s.locked p).amount, endBlock⟩ s' := by
  simp only [increaseUnlockTimeInner, bind_eq_ok, ensure_eq_ok] at h
  obtain ⟨-, hlive, endBlock, hend, -, -, -, hamount, s₁, hrecord, s₂, hdeposit, hrefresh⟩ := h
  obtain ⟨hweek, hle⟩ := weekAfter_ok hend
  have hlater : min (s.locked p).endBlock u32Max ≤ endBlock :=
    (min_le_min_right _ (Nat.le_add_left _ _)).trans (hle (Nat.min_le_right _ _))
  refine ⟨endBlock, hweek, hlater, hamount, hlive, ?_⟩
  rw [recordExpiringPosition_ok hrecord] at hdeposit
  have hdeposits := depositForInner_deposits hdeposit hrefresh
  rw [if_pos (Nat.ne_of_gt hweek.pos), Nat.add_zero] at hdeposits
  exact hdeposits

theorem withdrawInner_ok (h : withdrawInner s who p = .ok s') :
    (s.locked p).endBlock ≤ s.blockNumber ∧
      withdrawNoEnsure (removeExpiringPosition s p (s.locked p).endBlock) who p (s.locked p) none =
        .ok s' := by
  simp only [withdrawInner, bind_eq_ok, ensure_eq_ok] at h
  obtain ⟨-, hend, h⟩ := h
  exact ⟨hend, h⟩

theorem redeemUnlockInner_ok (h : redeemUnlockInner s who p = .ok s') :
    s.blockNumber < (s.locked p).endBlock ∧ ∃ fast,
      withdrawNoEnsure (removeExpiringPosition s p (s.locked p).endBlock) who p (s.locked p)
        (some fast) = .ok s' := by
  simp only [redeemUnlockInner, bind_eq_ok, ensure_eq_ok] at h
  obtain ⟨-, hend, fast, -, h⟩ := h
  exact ⟨hend, fast, h⟩

theorem ownPosition_ok {call : Except Fault (State cfg)} (h : ownPosition s who p call = .ok s') :
    p ∈ s.userPositions who ∧ call = .ok s' := by
  simp only [ownPosition, bind_eq_ok, ensure_eq_ok] at h
  obtain ⟨-, hmem, h⟩ := h
  exact ⟨hmem, h⟩

/-! Markups. -/

/-- What a markup call writes before the positions of the account are marked anew. -/
def State.remarked (s : State cfg) (currency : CurrencyId) (who : AccountId)
    (token : Option LockedToken) (total : ℕ) (ledger : cfg.currencies.Ledger)
    (info : UserMarkupInfo) : State cfg :=
  { s with
    totalLock := Function.update s.totalLock currency total
    userMarkupInfos := Function.update s.userMarkupInfos who (some info)
    ledger := ledger }.setLockedToken currency who token

def State.touched (s : State cfg) (currency : CurrencyId) (coefficient : MarkupCoefficientInfo) :
    State cfg :=
  { s with
    markupCoefficient := Function.update s.markupCoefficient currency
      (some { coefficient with updateBlock := s.blockNumber }) }

def State.lockedToken (s : State cfg) (currency : CurrencyId) (who : AccountId) : LockedToken :=
  ((s.lockedTokens currency).get who).getD ⟨0, .zero, s.blockNumber⟩

def State.coefficientOf (s : State cfg) (who : AccountId) : FixedU128 :=
  ((s.userMarkupInfos who).getD .zero).markupCoefficient

theorem depositMarkupInner_ok {value : ℕ} (h : depositMarkupInner s who currency value = .ok s') :
    ∃ coefficient new ledger s₁, s.markupCoefficient currency = some coefficient ∧ value ≠ 0 ∧
      s.totalLock currency + value ≤ u128Max ∧
      newMarkup coefficient (U128.saturatingAdd (s.lockedToken currency who).amount value)
        (s.totalLock currency + value) (markupIssuance s currency) = .ok new ∧
      cfg.currencies.setLock s.ledger .markupLockId currency who
        (U128.saturatingAdd (s.lockedToken currency who).amount value) = .ok ledger ∧
      remarkPositions (s.remarked currency who
        (some ⟨U128.saturatingAdd (s.lockedToken currency who).amount value, new, s.blockNumber⟩)
        (s.totalLock currency + value) ledger ⟨s.coefficientOf who, exchangeCoefficient
          (s.coefficientOf who) (s.lockedToken currency who).markupCoefficient new⟩) who
        ⟨s.coefficientOf who, exchangeCoefficient (s.coefficientOf who)
          (s.lockedToken currency who).markupCoefficient new⟩ = .ok s₁ ∧
      s' = s₁.touched currency coefficient := by
  simp only [depositMarkupInner, bind_eq_ok, okOr_eq_ok, ensure_eq_ok, mapErr_eq_ok,
    U128.checkedAdd_eq_some, pure_eq_ok, updateMarkupInfo] at h
  obtain ⟨coefficient, hcoefficient, -, hvalue, _, ⟨rfl, htotal⟩, new, hnew, ledger, hset, s₁, hmark,
    rfl⟩ := h
  exact ⟨coefficient, new, ledger, s₁, hcoefficient, hvalue, htotal, hnew, hset, hmark, rfl⟩

theorem withdrawMarkupInner_ok (h : withdrawMarkupInner s who currency = .ok s') :
    ∃ coefficient token ledger, s.markupCoefficient currency = some coefficient ∧
      (s.lockedTokens currency).get who = some token ∧ token.amount ≤ s.totalLock currency ∧
      cfg.currencies.removeLock s.ledger .markupLockId currency who = .ok ledger ∧
      remarkPositions ((s.touched currency coefficient).remarked currency who none
        (s.totalLock currency - token.amount) ledger ⟨s.coefficientOf who,
          ⟨(s.coefficientOf who).inner - token.markupCoefficient.inner⟩⟩) who
        ⟨s.coefficientOf who, ⟨(s.coefficientOf who).inner - token.markupCoefficient.inner⟩⟩ =
          .ok s' := by
  simp only [withdrawMarkupInner, bind_eq_ok, okOr_eq_ok, mapErr_eq_ok,
    U128.checkedSub_eq_some, updateMarkupInfo] at h
  obtain ⟨coefficient, hcoefficient, token, htoken, _, ⟨hle, rfl⟩, ledger, hremove, h⟩ := h
  exact ⟨coefficient, token, ledger, hcoefficient, htoken, hle, hremove, h⟩

theorem refreshAccount_ok {coefficient : MarkupCoefficientInfo}
    {e : AccountId × LockedToken} (h : refreshAccount currency coefficient s e = .ok s') :
    ∃ info new, s.userMarkupInfos e.1 = some info ∧
      newMarkup coefficient e.2.amount (s.totalLock currency) (markupIssuance s currency) =
        .ok new ∧
      remarkPositions (s.remarked currency e.1 (some ⟨e.2.amount, new, s.blockNumber⟩)
        (s.totalLock currency) s.ledger ⟨s.coefficientOf e.1, exchangeCoefficient
          (s.coefficientOf e.1) e.2.markupCoefficient new⟩) e.1
        ⟨s.coefficientOf e.1, exchangeCoefficient (s.coefficientOf e.1) e.2.markupCoefficient
          new⟩ = .ok s' := by
  simp only [refreshAccount, bind_eq_ok, okOr_eq_ok, updateMarkupInfo] at h
  obtain ⟨info, hinfo, new, hnew, h⟩ := h
  refine ⟨info, new, hinfo, hnew, ?_⟩
  have hcoefficient : s.coefficientOf e.1 = info.markupCoefficient := by
    simp [State.coefficientOf, hinfo]
  rw [hcoefficient]
  unfold State.remarked
  rw [Function.update_eq_self]
  exact h

/-- A markup call leaves the locks of positions alone. -/
def MarkupOnly (s s' : State cfg) : Prop :=
  ∃ ledger userMarkupInfos lockedTokens totalLock markupCoefficient s₁,
    cfg.currencies.freeBalance ledger = cfg.currencies.freeBalance s.ledger ∧
    (∀ c w, cfg.currencies.lock ledger .bbLockId c w =
      cfg.currencies.lock s.ledger .bbLockId c w) ∧
    RecordsOnly { s with
      ledger := ledger
      userMarkupInfos := userMarkupInfos
      lockedTokens := lockedTokens
      totalLock := totalLock } s₁ ∧
    s' = { s₁ with markupCoefficient := markupCoefficient }

theorem MarkupOnly.refl (s : State cfg) : MarkupOnly s s :=
  ⟨_, _, _, _, _, s, rfl, fun _ _ => rfl, .refl s, rfl⟩

theorem MarkupOnly.trans (h : MarkupOnly s s₁) (h' : MarkupOnly s₁ s₂) : MarkupOnly s s₂ := by
  obtain ⟨_, _, _, _, _, _, hfree, hlock, ⟨_, ⟨_, _, _, _, rfl⟩, _, _, _, _, _, rfl⟩, rfl⟩ := h
  obtain ⟨_, _, _, _, _, _, hfree', hlock', ⟨_, ⟨_, _, _, _, rfl⟩, _, _, _, _, _, rfl⟩, rfl⟩ := h'
  exact ⟨_, _, _, _, _, _, hfree'.trans hfree, fun c w => (hlock' c w).trans (hlock c w),
    ⟨_, ⟨_, _, _, _, rfl⟩, _, _, _, _, _, rfl⟩, rfl⟩

theorem remarked_markupOnly {token : Option LockedToken} {total : ℕ}
    {ledger : cfg.currencies.Ledger} {info info' : UserMarkupInfo}
    (hfree : cfg.currencies.freeBalance ledger = cfg.currencies.freeBalance s.ledger)
    (hlock : ∀ c w, cfg.currencies.lock ledger .bbLockId c w =
      cfg.currencies.lock s.ledger .bbLockId c w)
    (h : remarkPositions (s.remarked currency who token total ledger info) who info' = .ok s') :
    MarkupOnly s s' :=
  ⟨_, _, _, _, _, s', hfree, hlock, remarkPositions_recordsOnly h, rfl⟩

theorem touched_markupOnly (s : State cfg) (currency : CurrencyId)
    (coefficient : MarkupCoefficientInfo) : MarkupOnly s (s.touched currency coefficient) :=
  ⟨_, _, _, _, _, s, rfl, fun _ _ => rfl, .refl s, rfl⟩

theorem depositMarkupInner_markupOnly {value : ℕ}
    (h : depositMarkupInner s who currency value = .ok s') : MarkupOnly s s' := by
  obtain ⟨coefficient, new, ledger, s₁, -, hvalue, -, -, hset, hmark, rfl⟩ :=
    depositMarkupInner_ok h
  have hamount : U128.saturatingAdd (s.lockedToken currency who).amount value ≠ 0 := by
    unfold U128.saturatingAdd u128Max
    omega
  refine (remarked_markupOnly (cfg.currencies.setLock_free hset) (fun c w => ?_) hmark).trans
    (touched_markupOnly s₁ currency coefficient)
  rw [cfg.currencies.setLock_lock hset hamount, if_neg (by simp)]

theorem withdrawMarkupInner_markupOnly
    (h : withdrawMarkupInner s who currency = .ok s') : MarkupOnly s s' := by
  obtain ⟨coefficient, token, ledger, -, -, -, hremove, hmark⟩ := withdrawMarkupInner_ok h
  refine (touched_markupOnly s currency coefficient).trans
    (remarked_markupOnly (cfg.currencies.removeLock_free hremove) (fun c w => ?_) hmark)
  rw [cfg.currencies.removeLock_lock hremove, if_neg (by simp)]
  rfl

theorem refreshInner_ok (h : refreshInner s currency = .ok s') :
    ∃ coefficient, s.markupCoefficient currency = some coefficient ∧
      (dueTokens s currency coefficient).foldlM (refreshAccount currency coefficient) s = .ok s' := by
  simp only [refreshInner, bind_eq_ok, okOr_eq_ok] at h
  exact h

theorem refreshInner_markupOnly (h : refreshInner s currency = .ok s') : MarkupOnly s s' := by
  obtain ⟨coefficient, -, hfold⟩ := refreshInner_ok h
  refine foldlM_rel (R := MarkupOnly) .refl .trans ?_ hfold
  intro s e s' h
  obtain ⟨info, new, -, -, hmark⟩ := refreshAccount_ok h
  exact remarked_markupOnly rfl (fun _ _ => rfl) hmark

/-! Rewards and other pallets. -/

def RewardCall (s s' : State cfg) : Prop :=
  ∃ incentive paid rewards history outside ledger, cfg.currencies.Moves s.ledger ledger ∧
    s' = { s with
      incentive := incentive
      userRewardPerTokenPaid := paid
      rewards := rewards
      history := history
      outside := outside
      ledger := ledger }

theorem RewardCall.trans (h : RewardCall s s₁) (h' : RewardCall s₁ s₂) : RewardCall s s₂ := by
  obtain ⟨_, _, _, _, _, _, hmoves, rfl⟩ := h
  obtain ⟨_, _, _, _, _, _, hmoves', rfl⟩ := h'
  exact ⟨_, _, _, _, _, _, hmoves.trans hmoves', rfl⟩

theorem OutsideOnly.rewardCall (h : OutsideOnly s s') : RewardCall s s' := by
  obtain ⟨_, _, hmoves, rfl⟩ := h
  exact ⟨_, _, _, _, _, _, hmoves, rfl⟩

theorem RewardsOnly.rewardCall (h : RewardsOnly s s') : RewardCall s s' := by
  obtain ⟨_, _, _, _, rfl⟩ := h
  exact ⟨_, _, _, _, _, _, .refl _, rfl⟩

theorem RewardCall.refl (s : State cfg) : RewardCall s s := (OutsideOnly.refl s).rewardCall

theorem payReward_outsideOnly {e : CurrencyId × ℕ} (h : payReward who s e = .ok s') :
    OutsideOnly s s' := by
  simp only [payReward, bind_eq_ok, mapErr_eq_ok] at h
  obtain ⟨ledger, htransfer, h⟩ := h
  have hmoves : cfg.currencies.Moves s.ledger ledger := .transfer (.refl _) htransfer
  split at h
  · simp only [bind_eq_ok, okOr_eq_ok, pure_eq_ok] at h
    obtain ⟨⟨outside, ledger'⟩, hmint, rfl⟩ := h
    exact ⟨outside, ledger', hmoves.trans (cfg.mintVtoken_moves hmint), rfl⟩
  · rw [pure_eq_ok] at h
    exact h ▸ ⟨s.outside, ledger, hmoves, rfl⟩

theorem claimRewards_rewardCall (h : claimRewards s who = .ok s') : RewardCall s s' := by
  simp only [claimRewards, bind_eq_ok] at h
  obtain ⟨balance, -, h⟩ := h
  split at h
  · rw [pure_eq_ok] at h
    exact h ▸ .refl s
  · split at h
    · rw [pure_eq_ok] at h
      exact h ▸ .refl s
    · simp only [bind_eq_ok, pure_eq_ok] at h
      obtain ⟨s₁, hfold, rfl⟩ := h
      have h₁ : RewardCall s s₁ := foldlM_rel (R := RewardCall) .refl .trans
        (fun _ _ _ h => (payReward_outsideOnly h).rewardCall) hfold
      exact h₁.trans (RewardsOnly.rewardCall ⟨_, _, _, _, rfl⟩)

theorem getRewards_rewardCall (h : getRewards s who = .ok s') : RewardCall s s' := by
  simp only [getRewards, bind_eq_ok] at h
  obtain ⟨s₁, hupdate, h⟩ := h
  exact (updateReward_rewardsOnly hupdate).rewardCall.trans (claimRewards_rewardCall h)

theorem getGaugeRewards_ok (h : getGaugeRewards s who = .ok s') :
    claimRewards { s with
      userRewardPerTokenPaid := Function.update s.userRewardPerTokenPaid who ∅ } who = .ok s' := by
  simp only [getGaugeRewards, bind_eq_ok] at h
  obtain ⟨-, -, -, -, h⟩ := h
  exact h

theorem getGaugeRewards_rewardCall (h : getGaugeRewards s who = .ok s') : RewardCall s s' :=
  (RewardsOnly.rewardCall ⟨_, _, _, _, rfl⟩).trans (claimRewards_rewardCall (getGaugeRewards_ok h))

theorem addRewardOf_rewardCall {remaining : ℕ}
    (h : addRewardOf who remaining s currency = .ok s') : RewardCall s s' := by
  simp only [addRewardOf, bind_eq_ok] at h
  obtain ⟨total, -, -, -, rate, -, h⟩ := h
  split at h
  · rw [pure_eq_ok] at h
    exact h ▸ RewardsOnly.rewardCall ⟨_, _, _, _, rfl⟩
  · simp only [bind_eq_ok, mapErr_eq_ok, pure_eq_ok] at h
    obtain ⟨ledger, htransfer, rfl⟩ := h
    exact ⟨_, _, _, _, _, ledger, .transfer (.refl _) htransfer, rfl⟩

theorem startRound_rewardCall {rewards : List CurrencyId}
    (h : startRound s who rewards = .ok s') : RewardCall s s' := by
  simp only [startRound, bind_eq_ok, pure_eq_ok] at h
  obtain ⟨s₁, hfold, rfl⟩ := h
  have h₁ : RewardCall s s₁ := foldlM_rel (R := RewardCall) .refl .trans
    (fun _ _ _ h => addRewardOf_rewardCall h) hfold
  exact h₁.trans (RewardsOnly.rewardCall ⟨_, _, _, _, rfl⟩)

theorem notifyRewards_rewardCall {duration : Option ℕ} {rewards : List CurrencyId}
    (h : notifyRewards s who duration rewards = .ok s') : RewardCall s s' := by
  simp only [notifyRewards, notifyRewardAmount, bind_eq_ok, okOr_eq_ok] at h
  obtain ⟨account, -, s₁, hsettle, hround⟩ := h
  have h₁ : RewardsOnly s (setIncentive s duration (some who)) := ⟨_, _, _, _, rfl⟩
  exact (h₁.trans (settlePool_rewardsOnly hsettle)).rewardCall.trans (startRound_rewardCall hround)

theorem notifyOnBlock_rewardCall (s : State cfg) : RewardCall s (notifyOnBlock s) := by
  unfold notifyOnBlock
  split
  · split
    · rename_i hsettle
      have h₁ := (settlePool_rewardsOnly hsettle).rewardCall
      split
      · rename_i hround
        exact h₁.trans (startRound_rewardCall hround)
      · exact h₁
    · exact .refl s
  · exact .refl s

theorem moveTokens_ok {moved : Except TokenError cfg.currencies.Ledger}
    (h : s.moveTokens moved = .ok s') : ∃ ledger, moved = .ok ledger ∧
      s' = { s with ledger := ledger } := by
  simp only [State.moveTokens, bind_eq_ok, mapErr_eq_ok, pure_eq_ok] at h
  obtain ⟨ledger, hmoved, rfl⟩ := h
  exact ⟨ledger, hmoved, rfl⟩

/-! The calls, by what they may change. -/

def Call.MovesLocks : Call cfg → Prop
  | .createLock .. | .increaseAmount .. | .increaseUnlockTime .. | .withdraw .. | .redeemUnlock ..
  | .onInitialize => True
  | _ => False

def Call.Marks : Call cfg → Prop
  | .setMarkupCoefficient .. | .depositMarkup .. | .withdrawMarkup .. | .refresh .. => True
  | _ => False

theorem step_marks {c : Call cfg} (hc : c.Marks) (h : step s c = .ok s') : MarkupOnly s s' := by
  cases c <;> simp only [Call.Marks] at hc
  case setMarkupCoefficient =>
    cases h
    exact ⟨_, _, _, _, _, s, rfl, fun _ _ => rfl, .refl s, rfl⟩
  case depositMarkup => exact depositMarkupInner_markupOnly h
  case withdrawMarkup => exact withdrawMarkupInner_markupOnly h
  case refresh => exact refreshInner_markupOnly h

theorem step_rewards {c : Call cfg} (hlocks : ¬ c.MovesLocks) (hmarks : ¬ c.Marks)
    (h : step s c = .ok s') : ∃ bbConfig, RewardCall { s with bbConfig := bbConfig } s' := by
  cases c <;> simp only [Call.MovesLocks, Call.Marks, not_true_eq_false] at hlocks hmarks
  case setConfig =>
    cases h
    exact ⟨_, .refl _⟩
  case notifyRewards => exact ⟨_, notifyRewards_rewardCall h⟩
  case getRewards => exact ⟨_, getRewards_rewardCall h⟩
  case getGaugeRewards => exact ⟨_, getGaugeRewards_rewardCall h⟩
  case pay =>
    obtain ⟨ledger, hmoved, rfl⟩ := moveTokens_ok h
    exact ⟨_, OutsideOnly.rewardCall ⟨_, ledger, .transfer (.refl _) hmoved, rfl⟩⟩
  case issue =>
    obtain ⟨ledger, hmoved, rfl⟩ := moveTokens_ok h
    exact ⟨_, OutsideOnly.rewardCall ⟨_, ledger, .deposit (.refl _) hmoved, rfl⟩⟩
  case burn =>
    obtain ⟨ledger, hmoved, rfl⟩ := moveTokens_ok h
    exact ⟨_, OutsideOnly.rewardCall ⟨_, ledger, .withdraw (.refl _) hmoved, rfl⟩⟩
  case elsewhere =>
    cases h
    exact ⟨_, OutsideOnly.rewardCall ⟨_, _, .refl _, rfl⟩⟩

/-! What locks are seen by. -/

/-- Nothing that a lock is recorded in has changed. -/
structure SameLocks (s s' : State cfg) : Prop where
  blockNumber : s'.blockNumber = s.blockNumber
  supply : s'.supply = s.supply
  locked : s'.locked = s.locked
  userLocked : s'.userLocked = s.userLocked
  position : s'.position = s.position
  userPositions : s'.userPositions = s.userPositions
  expiringPositions : s'.expiringPositions = s.expiringPositions
  nextExpiringBlock : s'.nextExpiringBlock = s.nextExpiringBlock
  positionOwner : s'.positionOwner = s.positionOwner
  lock : ∀ c w, cfg.currencies.lock s'.ledger .bbLockId c w =
    cfg.currencies.lock s.ledger .bbLockId c w

theorem SameLocks.trans (h : SameLocks s s₁) (h' : SameLocks s₁ s₂) : SameLocks s s₂ :=
  ⟨h'.blockNumber.trans h.blockNumber, h'.supply.trans h.supply, h'.locked.trans h.locked,
    h'.userLocked.trans h.userLocked, h'.position.trans h.position,
    h'.userPositions.trans h.userPositions, h'.expiringPositions.trans h.expiringPositions,
    h'.nextExpiringBlock.trans h.nextExpiringBlock, h'.positionOwner.trans h.positionOwner,
    fun c w => (h'.lock c w).trans (h.lock c w)⟩

theorem RecordsOnly.sameLocks (h : RecordsOnly s s') : SameLocks s s' := by
  obtain ⟨_, ⟨_, _, _, _, rfl⟩, _, _, _, _, _, rfl⟩ := h
  exact ⟨rfl, rfl, rfl, rfl, rfl, rfl, rfl, rfl, rfl, fun _ _ => rfl⟩

theorem RewardCall.sameLocks (h : RewardCall s s') : SameLocks s s' := by
  obtain ⟨_, _, _, _, _, _, hmoves, rfl⟩ := h
  exact ⟨rfl, rfl, rfl, rfl, rfl, rfl, rfl, rfl, rfl,
    fun c w => congrFun (congrFun (congrFun hmoves.lock_eq _) c) w⟩

theorem MarkupOnly.sameLocks (h : MarkupOnly s s') : SameLocks s s' := by
  obtain ⟨_, _, _, _, _, _, -, hlock, ⟨_, ⟨_, _, _, _, rfl⟩, _, _, _, _, _, rfl⟩, rfl⟩ := h
  exact ⟨rfl, rfl, rfl, rfl, rfl, rfl, rfl, rfl, rfl, hlock⟩

theorem step_sameLocks {c : Call cfg} (hc : ¬ c.MovesLocks) (h : step s c = .ok s') :
    SameLocks s s' := by
  by_cases hmarks : c.Marks
  · exact (step_marks hmarks h).sameLocks
  · obtain ⟨_, hcall⟩ := step_rewards hc hmarks h
    have hsame := hcall.sameLocks
    exact ⟨hsame.blockNumber, hsame.supply, hsame.locked, hsame.userLocked, hsame.position,
      hsame.userPositions, hsame.expiringPositions, hsame.nextExpiringBlock, hsame.positionOwner,
      hsame.lock⟩

/-! The hook. -/

/-- What keeps an invariant through the loops of the hook. -/
structure KeptBySweep (I : State cfg → Prop) : Prop where
  withdraw : ∀ {s s' who p}, I s → s.positionOwner p = some who →
    (s.locked p).endBlock ≤ s.blockNumber → (s.locked p).amount ≠ 0 →
    withdrawNoEnsure s who p (s.locked p) none = .ok s' → I s'
  schedule : ∀ {s} expiringPositions nextExpiringBlock, I s →
    I { s with expiringPositions := expiringPositions, nextExpiringBlock := nextExpiringBlock }

namespace KeptBySweep

variable {I : State cfg → Prop} (hI : KeptBySweep I) {limit : ℕ}
include hI

theorem sweepPosition {w : Sweep cfg} (hw : I w.state) (p : ℕ) :
    I (sweepPosition limit w p).state := by
  unfold BbBnc.sweepPosition
  dsimp only
  split
  · exact hw
  · split
    · exact hw
    · split
      · rename_i hdue
        split
        · rename_i howner
          split
          · rename_i hwithdraw
            exact hI.withdraw hw howner hdue.1 hdue.2 hwithdraw
          · exact hw
        · exact hw
      · exact hw

theorem sweepPositions {positions : List ℕ} {w : Sweep cfg} (hw : I w.state) :
    I (positions.foldl (BbBnc.sweepPosition limit) w).state := by
  induction positions generalizing w with
  | nil => exact hw
  | cons p positions ih => exact ih (hI.sweepPosition hw p)

theorem sweepBlock (hs : I s) (limit processed block : ℕ) :
    I (sweepBlock limit s processed block).state :=
  hI.schedule _ _ (hI.sweepPositions hs)

theorem sweepBlocks {fuel : ℕ} (hs : I s) (processed block : ℕ) :
    I (sweepBlocks limit fuel s processed block).1 := by
  induction fuel generalizing s processed block with
  | zero => exact hs
  | succ fuel ih =>
    have hblock := hI.sweepBlock hs limit processed block
    unfold BbBnc.sweepBlocks
    simp only
    split
    · exact hblock
    · exact ih hblock _ _

theorem withdrawExpired (hs : I s) : I (withdrawExpired s) := by
  unfold BbBnc.withdrawExpired
  simp only
  split
  · exact hI.schedule _ _ (hI.sweepBlocks hs _ _)
  · exact hs

end KeptBySweep

end Bifrost.BbBnc
