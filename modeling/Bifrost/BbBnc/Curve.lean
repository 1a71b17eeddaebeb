import Bifrost.BbBnc.UserPoints
import Bifrost.Lib.DecayingLines

/-!
# The global point is the sum of the lines of the positions

A position has the slope of its last point up to the end of its lock. The walk of a checkpoint
takes the sum of these lines from the last global point to the current block, and the checkpoint
exchanges one line.
-/

namespace Bifrost.BbBnc

open Result Machine
set_option autoImplicit false

variable {AccountId : Type} [DecidableEq AccountId] {cfg : Config AccountId}
  {s s' s₁ : State cfg} {who w : AccountId} {p : ℕ} {finish : ℕ → ℕ} {old new : LockedBalance}

def State.globalPoint (s : State cfg) : Point := s.pointHistory s.epoch

def State.ends (s : State cfg) (p : ℕ) : ℕ := (s.locked p).endBlock

def State.line (s : State cfg) (finish : ℕ → ℕ) (p : ℕ) : DecayingLine :=
  ⟨(s.lastUserPoint p).slope, finish p⟩

def lineSlope (cfg : Config AccountId) (amount : ℕ) : ℤ :=
  I128.saturatedOfNat (amount / cfg.maxBlock)

/-- The walk reaches the current block: it takes 255 steps, each to the end of a week. -/
def Recent (s : State cfg) : Prop :=
  s.epoch = 0 ∨
    s.blockNumber ≤ s.globalPoint.block / cfg.week * cfg.week + 255 * cfg.week

instance (s : State cfg) : Decidable (Recent s) := inferInstanceAs (Decidable (_ ∨ _))

/-! The walk. -/

theorem weekStart_ok {week block t : ℕ} (h : weekStart week block = .ok t) :
    0 < week ∧ t = block / week * week := by
  simp only [weekStart, bind_eq_ok, okOr_eq_ok, U128.checkedDiv_eq_some,
    U32.checkedMul_eq_some] at h
  obtain ⟨n, ⟨hweek, rfl⟩, rfl, -⟩ := h
  exact ⟨hweek, rfl⟩

theorem decayTo_ok {point : Point} {t : ℕ} {bias : ℤ} (h : point.decayTo t = .ok bias) :
    point.block ≤ t ∧ bias = point.bias - point.slope * (t - point.block) := by
  simp only [Point.decayTo, bind_eq_ok, okOr_eq_ok, U128.checkedSub_eq_some, I128.checkedMul,
    I128.checkedSub, I128.checked_eq_some] at h
  obtain ⟨elapsed, ⟨hle, rfl⟩, fallen, ⟨rfl, -⟩, rfl, -⟩ := h
  refine ⟨hle, ?_⟩
  rw [Nat.cast_sub hle]

theorem walkStep_ok {slopeChanges : ℕ → ℤ} {now next : ℕ} {walked walked' : Walk}
    (h : walkStep slopeChanges now next walked = .ok walked') :
    walked' = { walked with
      epoch := walked.epoch + 1
      point := ⟨max (walked.point.bias - walked.point.slope *
          ((if now < next then now else next : ℕ) - walked.point.block)) 0,
        max (walked.point.slope + if now < next then 0 else slopeChanges next) 0,
        if now < next then now else next, walked.point.amount⟩ } := by
  simp only [walkStep, bind_eq_ok, okOr_eq_ok, I128.checkedAdd, I128.checked_eq_some,
    pure_eq_ok] at h
  obtain ⟨bias, hbias, slope, ⟨rfl, -⟩, rfl⟩ := h
  obtain ⟨-, rfl⟩ := decayTo_ok hbias
  rfl

/-- A point is on the sum of the lines. -/
structure OnCurve (members : List ℕ) (lines : ℕ → DecayingLine) (point : Point) : Prop where
  bias : point.bias = DecayingLines.biasAt members lines point.block
  slope : point.slope = DecayingLines.slopeAt members lines point.block

theorem le_of_weekly {week a b : ℕ} (ha : week ∣ a) (hb : week ∣ b) (h : a < b) : a + week ≤ b := by
  have hle := Nat.le_of_dvd (Nat.sub_pos_of_lt h) (Nat.dvd_sub hb ha)
  omega

theorem walkStep_onCurve {members : List ℕ} {lines : ℕ → DecayingLine} {slopeChanges : ℕ → ℤ}
    {week now t : ℕ} {walked walked' : Walk} (hslopes : ∀ p, 0 ≤ (lines p).slope)
    (hweekly : ∀ p, week ∣ (lines p).finish)
    (hchanges : ∀ u, walked.point.block < u →
      slopeChanges u = -DecayingLines.endingAt members lines u)
    (hon : OnCurve members lines walked.point) (hweek : week ∣ t) (hle : t ≤ walked.point.block)
    (hlt : walked.point.block < t + week) (hnow : walked.point.block ≤ now)
    (h : walkStep slopeChanges now (t + week) walked = .ok walked') :
    OnCurve members lines walked'.point := by
  have hgap : ∀ p, walked.point.block < (lines p).finish → t + week ≤ (lines p).finish :=
    fun p hp => le_of_weekly hweek (hweekly p) (hle.trans_lt hp)
  rw [walkStep_ok h]
  by_cases hnext : now < t + week
  · simp only [if_pos hnext]
    have hwithin : ∀ p, walked.point.block < (lines p).finish → now < (lines p).finish :=
      fun p hp => hnext.trans_le (hgap p hp)
    constructor
    · change max _ 0 = DecayingLines.biasAt members lines now
      rw [hon.bias, hon.slope, ← DecayingLines.biasAt_later hnow fun p hp => (hwithin p hp).le,
        max_eq_left (DecayingLines.biasAt_nonneg hslopes)]
    · change max _ 0 = DecayingLines.slopeAt members lines now
      rw [hon.slope, add_zero, DecayingLines.slopeAt_within hnow hwithin,
        max_eq_left (DecayingLines.slopeAt_nonneg hslopes)]
  · simp only [if_neg hnext]
    constructor
    · change max _ 0 = DecayingLines.biasAt members lines (t + week)
      rw [hon.bias, hon.slope, ← DecayingLines.biasAt_later hlt.le hgap,
        max_eq_left (DecayingLines.biasAt_nonneg hslopes)]
    · change max _ 0 = DecayingLines.slopeAt members lines (t + week)
      rw [hon.slope, hchanges (t + week) hlt, ← sub_eq_add_neg,
        ← DecayingLines.slopeAt_later hlt hgap,
        max_eq_left (DecayingLines.slopeAt_nonneg hslopes)]

theorem walk_onCurve {members : List ℕ} {lines : ℕ → DecayingLine} {slopeChanges : ℕ → ℤ}
    {week supply now fuel t : ℕ} {walked walked' : Walk}
    (h : walk week slopeChanges supply now fuel t walked = .ok walked')
    (hslopes : ∀ p, 0 ≤ (lines p).slope)
    (hweekly : ∀ p, week ∣ (lines p).finish)
    (hchanges : ∀ u, walked.point.block < u →
      slopeChanges u = -DecayingLines.endingAt members lines u)
    (hon : OnCurve members lines walked.point) (hweek : week ∣ t) (hle : t ≤ walked.point.block)
    (hlt : walked.point.block < t + week) (hnow : walked.point.block ≤ now)
    (hreach : now ≤ t + fuel * week) (hfuel : 0 < fuel ∨ walked.point.block < now) :
    OnCurve members lines walked'.point ∧ walked'.point.block = now ∧
      walked'.point.amount = supply ∧ walked'.epoch ≠ 0 := by
  induction fuel generalizing t walked with
  | zero => omega
  | succ fuel ih =>
    simp only [walk, bind_eq_ok, okOr_eq_ok, U32.checkedAdd_eq_some] at h
    obtain ⟨next, ⟨rfl, -⟩, walked₁, hstep, h⟩ := h
    have hon₁ := walkStep_onCurve hslopes hweekly hchanges hon hweek hle hlt hnow hstep
    have hwalked₁ := walkStep_ok hstep
    have hblock : walked₁.point.block = if now < t + week then now else t + week := by
      rw [hwalked₁]
    have hepoch : walked₁.epoch = walked.epoch + 1 := by
      rw [hwalked₁]
    by_cases hdone : walked₁.point.block = now
    · rw [if_pos hdone, pure_eq_ok] at h
      subst walked'
      have hpos : walked₁.epoch ≠ 0 := by omega
      exact ⟨⟨hon₁.bias, hon₁.slope⟩, hdone, rfl, hpos⟩
    · rw [if_neg hdone] at h
      have hnext : walked₁.point.block = t + week ∧ t + week < now := by
        split at hblock <;> omega
      have hweek_pos : 0 < week := by omega
      rw [hnext.1] at h
      refine ih h (fun u hu => hchanges u ?_) ⟨hon₁.bias, hon₁.slope⟩ (Nat.dvd_add_self_right.mpr hweek)
        hnext.1.ge ?_ (hnext.1.trans_le hnext.2.le) ?_ (Or.inr (hnext.1.trans_lt hnext.2))
      · exact hlt.trans (hnext.1.symm.trans_lt hu)
      · exact hnext.1.trans_lt (Nat.lt_add_of_pos_right hweek_pos)
      · rw [Nat.succ_mul] at hreach
        omega

/-! One line is exchanged. -/

theorem linePoint_ok {now : ℕ} {locked : LockedBalance} {point : Point}
    (h : linePoint cfg now locked = .ok point) :
    point.slope = DecayingLine.slopeAt ⟨lineSlope cfg locked.amount, locked.endBlock⟩ now ∧
      point.bias = DecayingLine.biasAt ⟨lineSlope cfg locked.amount, locked.endBlock⟩ now := by
  unfold linePoint at h
  unfold DecayingLine.biasAt DecayingLine.slopeAt
  by_cases hlive : now < locked.endBlock
  · rw [if_pos hlive]
    by_cases hamount : 0 < locked.amount
    · rw [if_pos ⟨hlive, hamount⟩] at h
      simp only [bind_eq_ok, okOr_eq_ok, U128.checkedDiv_eq_some, I128.checkedMul,
        I128.checked_eq_some, pure_eq_ok] at h
      obtain ⟨slope, ⟨-, rfl⟩, bias, ⟨rfl, -⟩, rfl⟩ := h
      exact ⟨rfl, rfl⟩
    · rw [if_neg (fun hand => hamount hand.2), pure_eq_ok] at h
      subst point
      have hzero : lineSlope cfg locked.amount = 0 := by
        rw [Nat.eq_zero_of_not_pos hamount]
        unfold lineSlope I128.saturatedOfNat
        simp
      rw [hzero, zero_mul]
      exact ⟨rfl, rfl⟩
  · rw [if_neg (fun hand => hlive hand.1), pure_eq_ok] at h
    subst point
    rw [if_neg hlive, zero_mul]
    exact ⟨rfl, rfl⟩

theorem lineSlope_nonneg (cfg : Config AccountId) (amount : ℕ) : 0 ≤ lineSlope cfg amount :=
  I128.saturatedOfNat_nonneg _

theorem exchange_ok {point point' uOld uNew : Point} (h : point.exchange uOld uNew = .ok point') :
    point' = { point with
      bias := max (point.bias + uNew.bias - uOld.bias) 0
      slope := max (uNew.slope + point.slope - uOld.slope) 0 } := by
  simp only [Point.exchange, bind_eq_ok, okOr_eq_ok, I128.checkedAdd, I128.checkedSub,
    I128.checked_eq_some, pure_eq_ok] at h
  obtain ⟨_, ⟨rfl, -⟩, _, ⟨rfl, -⟩, _, ⟨rfl, -⟩, _, ⟨rfl, -⟩, rfl⟩ := h
  rfl

theorem oldDslope_ok {slopeChanges : ℕ → ℤ} {uOld uNew : Point}
    {dSlope : ℤ} (h : oldDslope slopeChanges old new uOld uNew = .ok dSlope) :
    dSlope = slopeChanges old.endBlock + uOld.slope -
      if new.endBlock = old.endBlock then uNew.slope else 0 := by
  simp only [oldDslope, bind_eq_ok, okOr_eq_ok, I128.checkedAdd, I128.checkedSub,
    I128.checked_eq_some] at h
  obtain ⟨_, ⟨rfl, -⟩, h⟩ := h
  split at h
  · rename_i heq
    simp only [okOr_eq_ok, I128.checked_eq_some] at h
    rw [if_pos heq]
    exact h.1.symm
  · rename_i hne
    rw [pure_eq_ok] at h
    rw [if_neg hne, sub_zero]
    exact h.symm

theorem moveOldSlope_ok {slopeChanges changes : ℕ → ℤ} {now t : ℕ}
    {uOld uNew : Point} (ht : now < t)
    (h : moveOldSlope slopeChanges now old new uOld uNew = .ok changes) :
    changes t = slopeChanges t + (if old.endBlock = t then uOld.slope else 0) -
      if old.endBlock = t ∧ new.endBlock = t then uNew.slope else 0 := by
  unfold moveOldSlope at h
  by_cases hlive : now < old.endBlock
  · rw [if_pos hlive] at h
    simp only [bind_eq_ok, pure_eq_ok] at h
    obtain ⟨dSlope, hslope, rfl⟩ := h
    by_cases hold : old.endBlock = t
    · subst t
      rw [Function.update_self, oldDslope_ok hslope, if_pos rfl]
      simp
    · rw [Function.update_of_ne (Ne.symm hold), if_neg hold, if_neg (fun hand => hold hand.1)]
      ring
  · rw [if_neg hlive, pure_eq_ok] at h
    subst changes
    have hold : old.endBlock ≠ t := by omega
    rw [if_neg hold, if_neg (fun hand => hold hand.1)]
    ring

/-- The slope that is to be lost at a later time, when a lock does not come to end earlier. -/
theorem moveSlopes_ok {slopeChanges changes : ℕ → ℤ} {now t : ℕ} {uOld uNew : Point} (ht : now < t)
    (hlater : new.endBlock ≤ now ∨ old.endBlock ≤ new.endBlock)
    (h : moveSlopes slopeChanges now old new uOld uNew = .ok changes) :
    changes t = slopeChanges t + (if old.endBlock = t then uOld.slope else 0) -
      if new.endBlock = t then uNew.slope else 0 := by
  simp only [moveSlopes, bind_eq_ok] at h
  obtain ⟨changes₁, hold, h⟩ := h
  have h₁ := moveOldSlope_ok ht hold
  by_cases hnew : now < new.endBlock ∧ old.endBlock < new.endBlock
  · rw [if_pos hnew] at h
    simp only [bind_eq_ok, okOr_eq_ok, I128.checkedSub, I128.checked_eq_some, pure_eq_ok] at h
    obtain ⟨_, ⟨rfl, -⟩, rfl⟩ := h
    rw [if_pos (by omega : new.endBlock ≠ 0)]
    by_cases heq : new.endBlock = t
    · subst t
      rw [Function.update_self, if_neg (by omega : ¬ old.endBlock = new.endBlock), if_pos rfl]
      ring
    · have hboth : ¬ (old.endBlock = t ∧ new.endBlock = t) := fun hboth => heq hboth.2
      rw [Function.update_of_ne (Ne.symm heq), h₁, if_neg hboth, if_neg heq]
  · rw [if_neg hnew, pure_eq_ok] at h
    subst changes
    rw [h₁]
    by_cases heq : new.endBlock = t
    · have hsame : old.endBlock = t := by omega
      rw [if_pos (⟨hsame, heq⟩ : old.endBlock = t ∧ new.endBlock = t), if_pos heq]
    · have hboth : ¬ (old.endBlock = t ∧ new.endBlock = t) := fun hboth => heq hboth.2
      rw [if_neg hboth, if_neg heq]

/-! The invariant. -/

/-- The global point and the slope changes are those of the lines, with the ends `finish`. -/
structure Curve (s : State cfg) (finish : ℕ → ℕ) : Prop where
  past : s.globalPoint.block ≤ s.blockNumber
  start : s.epoch = 0 → ∀ p, (s.lastUserPoint p).slope = 0
  onCurve : OnCurve (List.range s.position) (s.line finish) s.globalPoint
  changes : ∀ t, s.globalPoint.block < t →
    s.slopeChanges t = -DecayingLines.endingAt (List.range s.position) (s.line finish) t
  slopes : ∀ p, 0 ≤ (s.lastUserPoint p).slope
  lined : ∀ p, (s.lastUserPoint p).bias =
    (s.lastUserPoint p).slope * (finish p - (s.lastUserPoint p).block)
  blank : ∀ p, s.userPointHistory p 0 = .zero
  weekly : ∀ p, cfg.week ∣ finish p

/-- What the curve is seen by. -/
structure SamePoints (s s' : State cfg) : Prop where
  blockNumber : s'.blockNumber = s.blockNumber
  epoch : s'.epoch = s.epoch
  pointHistory : s'.pointHistory = s.pointHistory
  slopeChanges : s'.slopeChanges = s.slopeChanges
  userPointEpoch : s'.userPointEpoch = s.userPointEpoch
  userPointHistory : s'.userPointHistory = s.userPointHistory
  position : s'.position = s.position

namespace SamePoints

theorem trans (h : SamePoints s s₁) (h' : SamePoints s₁ s') : SamePoints s s' :=
  ⟨h'.blockNumber.trans h.blockNumber, h'.epoch.trans h.epoch,
    h'.pointHistory.trans h.pointHistory, h'.slopeChanges.trans h.slopeChanges,
    h'.userPointEpoch.trans h.userPointEpoch, h'.userPointHistory.trans h.userPointHistory,
    h'.position.trans h.position⟩

theorem globalPoint (h : SamePoints s s') : s'.globalPoint = s.globalPoint := by
  unfold State.globalPoint
  rw [h.pointHistory, h.epoch]

theorem lastUserPoint (h : SamePoints s s') : s'.lastUserPoint = s.lastUserPoint := by
  unfold State.lastUserPoint
  rw [h.userPointHistory, h.userPointEpoch]

theorem recent (h : SamePoints s s') (hs : Recent s) : Recent s' := by
  unfold Recent
  rw [h.epoch, h.blockNumber, h.globalPoint]
  exact hs

theorem curve (h : SamePoints s s') (hs : Curve s finish) : Curve s' finish := by
  have hline : s'.line finish = s.line finish := by
    unfold State.line
    rw [h.lastUserPoint]
  refine ⟨?_, ?_, ?_, ?_, ?_, ?_, ?_, hs.weekly⟩
  · rw [h.globalPoint, h.blockNumber]
    exact hs.past
  · rw [h.epoch, h.lastUserPoint]
    exact hs.start
  · rw [h.position, hline, h.globalPoint]
    exact hs.onCurve
  · rw [h.globalPoint, h.slopeChanges, h.position, hline]
    exact hs.changes
  · rw [h.lastUserPoint]
    exact hs.slopes
  · rw [h.lastUserPoint]
    exact hs.lined
  · rw [h.userPointHistory]
    exact hs.blank

end SamePoints

theorem RewardCall.samePoints (h : RewardCall s s') : SamePoints s s' := by
  obtain ⟨_, _, _, _, _, _, -, rfl⟩ := h
  exact ⟨rfl, rfl, rfl, rfl, rfl, rfl, rfl⟩

theorem lastPoint_onCurve (hs : Curve s finish) :
    OnCurve (List.range s.position) (s.line finish) s.lastPoint := by
  unfold State.lastPoint
  by_cases hepoch : 0 < s.epoch
  · rw [if_pos hepoch]
    exact hs.onCurve
  · have hzero : ∀ p, (s.line finish p).slope = 0 := hs.start (Nat.eq_zero_of_not_pos hepoch)
    rw [if_neg hepoch]
    constructor
    · unfold DecayingLines.biasAt DecayingLine.biasAt DecayingLine.slopeAt
      simp [hzero]
    · unfold DecayingLines.slopeAt DecayingLine.slopeAt
      simp [hzero]

theorem moveGlobal_onCurve {uOld uNew : Point} (hs : Curve s finish) (hrecent : Recent s)
    (h : moveGlobal s uOld uNew = .ok s') :
    ∃ point, OnCurve (List.range s.position) (s.line finish) point ∧
      point.block = s.blockNumber ∧ point.amount = s.supply ∧ s'.epoch ≠ 0 ∧
      point.exchange uOld uNew = .ok s'.globalPoint := by
  obtain ⟨t, walked, point, ht, hwalk, hexchange, rfl⟩ := moveGlobal_ok h
  obtain ⟨hweek, rfl⟩ := weekStart_ok ht
  have hlast : s.lastPoint.block ≤ s.blockNumber ∧
      s.blockNumber ≤ s.lastPoint.block / cfg.week * cfg.week + 255 * cfg.week ∧
      ∀ u, s.lastPoint.block < u →
        s.slopeChanges u = -DecayingLines.endingAt (List.range s.position) (s.line finish) u := by
    unfold State.lastPoint
    by_cases hepoch : 0 < s.epoch
    · rw [if_pos hepoch]
      refine ⟨hs.past, ?_, hs.changes⟩
      rcases hrecent with hzero | hreach
      · omega
      · exact hreach
    · rw [if_neg hepoch]
      refine ⟨le_rfl, ?_, fun u hu => hs.changes u (hs.past.trans_lt hu)⟩
      have hmod := Nat.lt_div_mul_add (a := s.blockNumber) hweek
      change s.blockNumber ≤ s.blockNumber / cfg.week * cfg.week + 255 * cfg.week
      omega
  obtain ⟨hpast, hreach, hchanges⟩ := hlast
  have hfuel : 0 < 255 := by decide
  obtain ⟨hon, hblock, hamount, hepoch⟩ := walk_onCurve hwalk hs.slopes hs.weekly hchanges
    (lastPoint_onCurve hs) (Nat.dvd_mul_left _ _) (Nat.div_mul_le_self _ _)
    (Nat.lt_div_mul_add hweek) hpast hreach (Or.inl hfuel)
  refine ⟨walked.point, hon, hblock, hamount, hepoch, ?_⟩
  rw [hexchange]
  unfold State.globalPoint
  dsimp only
  rw [Function.update_self]

theorem lastUserPoint_zero (hs : Curve s finish) (h : s.userPointEpoch p = 0) :
    s.lastUserPoint p = .zero := by
  unfold State.lastUserPoint
  rw [h]
  exact hs.blank p

theorem movePoints_curve (h : movePoints s p old new = .ok s')
    (hs : Curve s finish) (hp : p < s.position) (hrecent : Recent s) (hend : old.endBlock = finish p)
    (hslope : s.blockNumber < finish p →
      lineSlope cfg old.amount = (s.lastUserPoint p).slope)
    (hlater : new.endBlock ≤ s.blockNumber ∨ finish p ≤ new.endBlock)
    (hweek : cfg.week ∣ new.endBlock) :
    Curve s' (Function.update finish p new.endBlock) ∧ s'.globalPoint.block = s.blockNumber := by
  obtain ⟨line, hline, hpoints⟩ := movePoints_repoints h
  obtain ⟨uOld, uNew, moved, changes, hOld, hNew, hmoved, hchanges, hs'⟩ := movePoints_ok h
  rw [hline, Except.ok.injEq] at hNew
  subst uNew
  obtain ⟨point, hon, hblock, -, hepoch, hexchange⟩ := moveGlobal_onCurve hs hrecent hmoved
  obtain ⟨hOldSlope, hOldBias⟩ := linePoint_ok hOld
  obtain ⟨hNewSlope, hNewBias⟩ := linePoint_ok hline
  have hsame : s'.position = s.position ∧ s'.blockNumber = s.blockNumber ∧
      s'.epoch = moved.epoch ∧ s'.globalPoint = moved.globalPoint ∧ s'.slopeChanges = changes := by
    obtain ⟨t, walked, point, -, -, -, rfl⟩ := moveGlobal_ok hmoved
    rw [hs']
    exact ⟨rfl, rfl, rfl, rfl, rfl⟩
  obtain ⟨hposition, hnow, hepoch', hglobal, hchanged⟩ := hsame
  rw [exchange_ok hexchange] at hglobal
  -- the old line is the one of the position, as far as it is seen from the current block on
  have hOldLine : uOld.slope = (s.line finish p).slopeAt s.blockNumber ∧
      uOld.bias = (s.line finish p).biasAt s.blockNumber := by
    rw [hOldSlope, hOldBias, hend]
    by_cases hlive : s.blockNumber < finish p
    · rw [hslope hlive]
      exact ⟨rfl, rfl⟩
    · have hle := Nat.le_of_not_lt hlive
      have hline : (s.line finish p).finish ≤ s.blockNumber := hle
      rw [DecayingLine.slopeAt_of_le hle, DecayingLine.biasAt_of_le hle,
        DecayingLine.slopeAt_of_le hline, DecayingLine.biasAt_of_le hline]
      exact ⟨rfl, rfl⟩
  have hoff : ∀ q, q ≠ p →
      s'.line (Function.update finish p new.endBlock) q = s.line finish q := by
    intro q hq
    unfold State.line
    rw [hpoints.others q hq, Function.update_of_ne hq]
  have hnew : s'.line (Function.update finish p new.endBlock) p = ⟨DecayingLine.slopeAt
      ⟨lineSlope cfg new.amount, new.endBlock⟩ s.blockNumber, new.endBlock⟩ := by
    unfold State.line
    rw [hpoints.last, Function.update_self, ← hNewSlope]
  have hslopes : ∀ q, 0 ≤ (s'.lastUserPoint q).slope := by
    intro q
    by_cases hq : q = p
    · subst q
      rw [hpoints.last]
      exact hNewSlope ▸ DecayingLine.slopeAt_nonneg (lineSlope_nonneg cfg new.amount) _
    · rw [hpoints.others q hq]
      exact hs.slopes q
  have hexchanged := fun f : DecayingLine → ℤ => DecayingLines.sum_exchange (f := f)
    List.nodup_range (List.mem_range.mpr hp) hoff
  have hblock' : s'.globalPoint.block = s.blockNumber := by
    rw [hglobal]
    exact hblock
  refine ⟨⟨?_, fun hzero => ?_, ⟨?_, ?_⟩, fun t ht => ?_, hslopes, fun q => ?_, fun q => ?_,
    fun q => ?_⟩, hblock'⟩
  · rw [hblock', hnow]
  · rw [hepoch'] at hzero
    contradiction
  · rw [hposition, hblock', hglobal]
    change max (point.bias + line.bias - uOld.bias) 0 =
      DecayingLines.biasAt (List.range s.position) _ s.blockNumber
    have hnonneg : 0 ≤ DecayingLines.biasAt (List.range s.position)
      (s'.line (Function.update finish p new.endBlock)) s.blockNumber :=
        DecayingLines.biasAt_nonneg hslopes
    have hsum : DecayingLines.biasAt (List.range s.position)
        (s'.line (Function.update finish p new.endBlock)) s.blockNumber =
        point.bias + line.bias - uOld.bias := by
      unfold DecayingLines.biasAt
      rw [hexchanged fun l => l.biasAt s.blockNumber, hnew, DecayingLine.biasAt_slopeAt,
        ← hNewBias, hOldLine.2, hon.bias, hblock]
      unfold DecayingLines.biasAt
      ring
    rw [← hsum, max_eq_left hnonneg]
  · rw [hposition, hblock', hglobal]
    change max (line.slope + point.slope - uOld.slope) 0 =
      DecayingLines.slopeAt (List.range s.position) _ s.blockNumber
    have hnonneg : 0 ≤ DecayingLines.slopeAt (List.range s.position)
      (s'.line (Function.update finish p new.endBlock)) s.blockNumber :=
        DecayingLines.slopeAt_nonneg hslopes
    have hsum : DecayingLines.slopeAt (List.range s.position)
        (s'.line (Function.update finish p new.endBlock)) s.blockNumber =
        line.slope + point.slope - uOld.slope := by
      unfold DecayingLines.slopeAt
      rw [hexchanged fun l => l.slopeAt s.blockNumber, hnew, DecayingLine.slopeAt_slopeAt,
        ← hNewSlope, hOldLine.1, hon.slope, hblock]
      unfold DecayingLines.slopeAt
      ring
    rw [← hsum, max_eq_left hnonneg]
  · rw [hblock'] at ht
    rw [hchanged, hposition, moveSlopes_ok ht (hend ▸ hlater) hchanges,
      hs.changes t (hs.past.trans_lt ht)]
    unfold DecayingLines.endingAt
    rw [hexchanged fun l => l.endingAt t, hnew]
    have hold : (s.line finish p).endingAt t = if old.endBlock = t then uOld.slope else 0 := by
      rw [hend]
      unfold DecayingLine.endingAt
      by_cases hfinish : finish p = t
      · have hlive : s.blockNumber < finish p := hfinish ▸ ht
        rw [if_pos hfinish, hOldLine.1, DecayingLine.slopeAt_of_lt (l := s.line finish p) hlive]
        exact if_pos hfinish
      · rw [if_neg hfinish]
        exact if_neg hfinish
    rw [hold, ← hNewSlope]
    change _ = -(_ - _ + if new.endBlock = t then line.slope else 0)
    ring
  · by_cases hq : q = p
    · subst q
      rw [hpoints.last, Function.update_self]
      change line.bias = line.slope * _
      rw [hNewBias, hNewSlope]
      rfl
    · rw [hpoints.others q hq, Function.update_of_ne hq]
      exact hs.lined q
  · rw [hpoints.first]
    exact hs.blank q
  · by_cases hq : q = p
    · subst q
      rw [Function.update_self]
      exact hweek
    · rw [Function.update_of_ne hq]
      exact hs.weekly q

theorem checkpoint_curve (h : checkpoint s who p old new = .ok s')
    (hs : Curve s finish) (hp : p < s.position) (hrecent : Recent s) (hend : old.endBlock = finish p)
    (hslope : s.blockNumber < finish p →
      lineSlope cfg old.amount = (s.lastUserPoint p).slope)
    (hlater : new.endBlock ≤ s.blockNumber ∨ finish p ≤ new.endBlock)
    (hweek : cfg.week ∣ new.endBlock) :
    Curve s' (Function.update finish p new.endBlock) ∧ Recent s' := by
  have hblock := (checkpoint_recordsOnly h).sameLocks.blockNumber
  obtain ⟨s₁, hupdate, hmove⟩ := checkpoint_ok h
  have hsame := (updateReward_rewardsOnly hupdate).rewardCall.samePoints
  obtain ⟨_, _, moved, _, -, -, hmoved, -, -⟩ := movePoints_ok hmove
  obtain ⟨t, _, _, ht, -, -, -⟩ := moveGlobal_ok hmoved
  obtain ⟨hpos, -⟩ := weekStart_ok ht
  rw [← hsame.blockNumber] at hslope hlater
  rw [← hsame.lastUserPoint] at hslope
  rw [← hsame.position] at hp
  obtain ⟨hcurve, hglobal⟩ := movePoints_curve hmove (hsame.curve hs) hp (hsame.recent hrecent)
    hend hslope hlater hweek
  refine ⟨hcurve, Or.inr ?_⟩
  rw [hglobal, hblock, hsame.blockNumber]
  have hmod := Nat.lt_div_mul_add (a := s.blockNumber) hpos
  omega

theorem checkpoint_slope (h : checkpoint s who p old new = .ok s') : (s'.lastUserPoint p).slope =
        DecayingLine.slopeAt ⟨lineSlope cfg new.amount, new.endBlock⟩ s.blockNumber ∧
      ∀ q, q ≠ p → s'.lastUserPoint q = s.lastUserPoint q := by
  obtain ⟨line, hline, hpoints⟩ := checkpoint_repoints h
  refine ⟨?_, hpoints.others⟩
  rw [hpoints.last]
  exact (linePoint_ok hline).1

/-! Positions come and go. -/

theorem DecayingLine.of_slope_zero {l : DecayingLine} (h : l.slope = 0) (t : ℕ) :
    l.biasAt t = 0 ∧ l.slopeAt t = 0 ∧ l.endingAt t = 0 := by
  unfold DecayingLine.biasAt DecayingLine.slopeAt DecayingLine.endingAt
  simp [h]

theorem created_curve (hs : Curve s s.ends) (hbooked : Booked s) (hpoints : PointsOwned s) :
    Curve (s.created who) (s.created who).ends := by
  have hends : (s.created who).ends = s.ends := by
    have hzero := (hbooked.unused s.position (Nat.le_refl _)).1
    unfold State.ends
    simp only [State.created, State.setLocked]
    rw [← hzero, Function.update_eq_self]
  have hline : (s.created who).line s.ends = s.line s.ends := rfl
  have hblank : (s.line s.ends s.position).slope = 0 := by
    have hepoch := hpoints s.position (hbooked.unused s.position (Nat.le_refl _)).2
    unfold State.line
    rw [lastUserPoint_zero hs hepoch]
    rfl
  have hsum : ∀ f : DecayingLine → ℤ, f (s.line s.ends s.position) = 0 →
      ((List.range (s.position + 1)).map fun p => f (s.line s.ends p)).sum =
        ((List.range s.position).map fun p => f (s.line s.ends p)).sum := by
    intro f hf
    rw [List.range_succ, List.map_append, List.sum_append]
    simp [hf]
  have hzero := DecayingLine.of_slope_zero hblank
  rw [hends]
  refine ⟨hs.past, hs.start, ⟨?_, ?_⟩, fun t ht => ?_, hs.slopes, hs.lined, hs.blank, hs.weekly⟩
  · rw [hline]
    exact hs.onCurve.bias.trans (hsum (fun l => l.biasAt s.globalPoint.block) (hzero _).1).symm
  · rw [hline]
    exact hs.onCurve.slope.trans
      (hsum (fun l => l.slopeAt s.globalPoint.block) (hzero _).2.1).symm
  · rw [hline]
    have hchange := hs.changes t ht
    have hsame : (s.created who).slopeChanges t = s.slopeChanges t := rfl
    rw [hsame, hchange]
    exact congrArg Neg.neg (hsum (fun l => l.endingAt t) (hzero t).2.2).symm

theorem removed_curve (hs : Curve s finish) (hp : finish p = 0) :
    Curve (s.removed who p) finish := by
  have hlast : ∀ q, (s.removed who p).lastUserPoint q =
      if q = p then .zero else s.lastUserPoint q := by
    intro q
    have hepochs : (s.removed who p).userPointEpoch = Function.update s.userPointEpoch p 0 := rfl
    have hhistory : (s.removed who p).userPointHistory = s.userPointHistory := rfl
    unfold State.lastUserPoint
    rw [hepochs, hhistory]
    by_cases hq : q = p
    · subst q
      rw [Function.update_self, if_pos rfl]
      exact hs.blank p
    · rw [Function.update_of_ne hq, if_neg hq]
  have hline : ∀ q, (s.removed who p).line finish q =
      if q = p then ⟨0, 0⟩ else s.line finish q := by
    intro q
    unfold State.line
    rw [hlast]
    by_cases hq : q = p
    · subst q
      rw [if_pos rfl, if_pos rfl, hp]
      rfl
    · rw [if_neg hq, if_neg hq]
  have hsum : ∀ f : DecayingLine → ℤ, (∀ l, l.finish = 0 → f l = 0) →
      ((List.range s.position).map fun q => f ((s.removed who p).line finish q)).sum =
        ((List.range s.position).map fun q => f (s.line finish q)).sum := by
    intro f hf
    congr 1
    apply List.map_congr_left
    intro q _
    rw [hline]
    by_cases hq : q = p
    · subst q
      rw [if_pos rfl, hf _ rfl, hf _ hp]
    · rw [if_neg hq]
  have hbias : ∀ t : ℕ, ∀ l : DecayingLine, l.finish = 0 → l.biasAt t = 0 := fun t l hl =>
    DecayingLine.biasAt_of_le (hl.trans_le (Nat.zero_le t))
  have hslope : ∀ t : ℕ, ∀ l : DecayingLine, l.finish = 0 → l.slopeAt t = 0 := fun t l hl =>
    DecayingLine.slopeAt_of_le (hl.trans_le (Nat.zero_le t))
  refine ⟨hs.past, fun hzero q => ?_, ⟨?_, ?_⟩, fun t ht => ?_, fun q => ?_, fun q => ?_, hs.blank,
    hs.weekly⟩
  · rw [hlast]
    split
    · rfl
    · exact hs.start hzero q
  · exact hs.onCurve.bias.trans (hsum (fun l => l.biasAt s.globalPoint.block) (hbias _)).symm
  · exact hs.onCurve.slope.trans (hsum (fun l => l.slopeAt s.globalPoint.block) (hslope _)).symm
  · have hending : ∀ l : DecayingLine, l.finish = 0 → l.endingAt t = 0 := fun l hl =>
      if_neg (by omega)
    exact (hs.changes t ht).trans (congrArg Neg.neg (hsum (fun l => l.endingAt t) hending).symm)
  · rw [hlast]
    split
    · exact le_rfl
    · exact hs.slopes q
  · rw [hlast]
    split
    · simp [Point.zero]
    · exact hs.lined q

end Bifrost.BbBnc
