import Bifrost.BbBnc.Curve
import Bifrost.BbBnc.Markups
import Bifrost.BbBnc.Schedule

/-!
# The curve over runs

A live position has the slope of its amount, marked by the coefficient of its owner. Every call
that hands the checkpoint this slope as the old one keeps the curve; increases and redemptions
hand it another, unless the two round to the same.
-/

namespace Bifrost.BbBnc

open Result Machine
set_option autoImplicit false

variable {AccountId : Type} [DecidableEq AccountId] {cfg : Config AccountId}
  {s s' s₁ t t' : State cfg} {who w : AccountId} {p : ℕ} {currency : CurrencyId}

/-- The slope of a live position is that of its amount with the markup of its owner. -/
def Recorded (s : State cfg) : Prop :=
  ∀ w, ∀ p ∈ s.userPositions w, s.blockNumber < s.ends p →
    (s.lastUserPoint p).slope = lineSlope cfg (marked (s.coefficientOf w) (s.locked p).amount)

structure Traced (s : State cfg) : Prop where
  curve : Curve s s.ends
  recorded : Recorded s
  booked : Booked s
  pointsOwned : PointsOwned s
  endsWeekly : EndsWeekly s

theorem newCoefficient_eq (s : State cfg) (who : AccountId) :
    newCoefficient (s.userMarkupInfos who) = s.coefficientOf who := by
  unfold newCoefficient State.coefficientOf
  cases s.userMarkupInfos who <;> rfl

theorem Recorded.of_kept (hs : Recorded s) (hblock : s.blockNumber ≤ s'.blockNumber)
    (hcoefficient : s'.coefficientOf = s.coefficientOf)
    (h : ∀ w, ∀ p ∈ s'.userPositions w, p ∈ s.userPositions w ∧ s'.locked p = s.locked p ∧
      s'.lastUserPoint p = s.lastUserPoint p) : Recorded s' := by
  intro w p hp hlive
  obtain ⟨hmem, hlocked, hlast⟩ := h w p hp
  unfold State.ends at hlive
  rw [hlocked] at hlive
  rw [hlast, hlocked, hcoefficient]
  exact hs w p hmem (hblock.trans_lt hlive)

theorem RewardCall.recorded (h : RewardCall s s') (hs : Recorded s) : Recorded s' := by
  obtain ⟨_, _, _, _, _, _, -, rfl⟩ := h
  exact hs

theorem MarkupKept.coefficientOf (h : MarkupKept s s') : s'.coefficientOf = s.coefficientOf := by
  unfold State.coefficientOf
  rw [h.infos]

theorem RewardCall.curve (h : RewardCall s s') (hs : Curve s s.ends) : Curve s' s'.ends := by
  have hends : s'.ends = s.ends := by
    unfold State.ends
    rw [h.sameLocks.locked]
  rw [hends]
  exact h.samePoints.curve hs

/-! Deposits. -/

theorem deposits_curve {value : ℕ} {new : LockedBalance}
    (h : Deposits s who p value (s.locked p) new s') (hs : Curve s s.ends) (hp : p < s.position)
    (hrecent : Recent s)
    (hslope : s.blockNumber < s.ends p →
      lineSlope cfg (marked (oldCoefficient (s.userMarkupInfos who)) (s.locked p).amount) =
        (s.lastUserPoint p).slope)
    (hlater : s.ends p ≤ new.endBlock) (hweek : cfg.week ∣ new.endBlock) :
    Curve s' s'.ends := by
  obtain ⟨-, ledger, s₁, -, -, -, hmark, houtside⟩ := h
  have hmore : SamePoints s (s.lockMore who p value new ledger) :=
    ⟨rfl, rfl, rfl, rfl, rfl, rfl, rfl⟩
  have hcheck := markupCalc_ok hmark
  obtain ⟨hcurve, -⟩ := checkpoint_curve hcheck (hmore.curve hs) hp (hmore.recent hrecent) rfl
    hslope (Or.inr hlater) hweek
  have hends : s₁.ends = Function.update s.ends p new.endBlock := by
    unfold State.ends
    rw [(checkpoint_recordsOnly hcheck).sameLocks.locked]
    funext q
    simp only [State.lockMore, State.setLocked, Function.update_apply]
    split <;> rfl
  apply houtside.rewardCall.curve
  rw [hends]
  exact hcurve

theorem deposits_recorded {value : ℕ} {new : LockedBalance}
    (h : Deposits s who p value (s.locked p) new s') (hs : Recorded s) (hbooked : Booked s)
    (hp : p ∈ s.userPositions who) : Recorded s' := by
  obtain ⟨-, ledger, s₁, -, -, -, hmark, houtside⟩ := h
  have hcheck := markupCalc_ok hmark
  obtain ⟨hslope, hothers⟩ := checkpoint_slope hcheck
  apply houtside.rewardCall.recorded
  obtain ⟨_, ⟨_, _, _, _, rfl⟩, _, _, _, _, _, rfl⟩ := checkpoint_recordsOnly hcheck
  intro w q hq hlive
  by_cases hqp : q = p
  · subst q
    have hw : w = who := by
      by_contra hne
      exact hbooked.notMem hp hne hq
    subst w
    have hlocked : (s.lockMore who p value new ledger).locked p = new := Function.update_self ..
    refine hslope.trans ?_
    unfold State.ends at hlive
    dsimp only at hlive ⊢
    rw [hlocked] at hlive ⊢
    rw [DecayingLine.slopeAt_of_lt (l := ⟨_, new.endBlock⟩) hlive, newCoefficient_eq]
    rfl
  · have hlocked : (s.lockMore who p value new ledger).locked q = s.locked q :=
      setLocked_off rfl q hqp
    unfold State.ends at hlive
    dsimp only at hlive
    rw [hlocked] at hlive
    refine (congrArg Point.slope (hothers q hqp)).trans ?_
    refine (hs w q hq hlive).trans ?_
    dsimp only
    rw [hlocked]
    rfl

/-! Withdrawals. -/

theorem withdrawNoEnsure_curve {ifFast : Option FixedU128}
    (h : withdrawNoEnsure s who p (s.locked p) ifFast = .ok s') (hs : Curve s s.ends)
    (hp : p < s.position) (hrecent : Recent s)
    (hslope : s.blockNumber < s.ends p →
      lineSlope cfg (s.locked p).amount = (s.lastUserPoint p).slope) :
    Curve s' s'.ends ∧ Recent s' := by
  obtain ⟨-, -, ledger, s₁, s₂, s₃, -, hpay, hcheck, hrefresh, hremove⟩ := withdrawNoEnsure_ok h
  have hless : SamePoints s (s.lockLess who p (s.locked p).amount ledger) :=
    ⟨rfl, rfl, rfl, rfl, rfl, rfl, rfl⟩
  have hsame := hless.trans hpay.rewardCall.samePoints
  rw [← hsame.blockNumber, ← hsame.lastUserPoint] at hslope
  rw [← hsame.position] at hp
  obtain ⟨hcurve, hrecent₂⟩ := checkpoint_curve hcheck (hsame.curve hs) hp (hsame.recent hrecent)
    rfl hslope (Or.inl (Nat.zero_le _)) (dvd_zero _)
  have hsame₃ := (refreshGaugePool_outsideOnly hrefresh).rewardCall.samePoints
  obtain ⟨-, rfl⟩ := removePosition_ok hremove
  have hends : (s₃.removed who p).ends = Function.update s.ends p 0 := by
    have hlocked : s₃.locked = Function.update s.locked p .zero :=
      ((hpay.sameLocks.trans (checkpoint_recordsOnly hcheck).sameLocks).trans
        (refreshGaugePool_outsideOnly hrefresh).sameLocks).locked
    unfold State.ends
    funext q
    simp only [State.removed, State.setLocked, hlocked, Function.update_apply]
    split <;> rfl
  rw [hends]
  exact ⟨removed_curve (hsame₃.curve hcurve) (Function.update_self ..), hsame₃.recent hrecent₂⟩

theorem removed_lastUserPoint {q : ℕ} (hq : q ≠ p) :
    (s.removed who p).lastUserPoint q = s.lastUserPoint q := by
  have hepochs : (s.removed who p).userPointEpoch = Function.update s.userPointEpoch p 0 := rfl
  have hhistory : (s.removed who p).userPointHistory = s.userPointHistory := rfl
  unfold State.lastUserPoint
  rw [hepochs, hhistory, Function.update_of_ne hq]

theorem withdrawNoEnsure_recorded {ifFast : Option FixedU128}
    (h : withdrawNoEnsure s who p (s.locked p) ifFast = .ok s') (hs : Recorded s)
    (hbooked : Booked s) (hp : p ∈ s.userPositions who) : Recorded s' := by
  have hcoefficient := (withdrawNoEnsure_markupKept h).coefficientOf
  obtain ⟨-, -, ledger, s₁, s₂, s₃, -, hpay, hcheck, hrefresh, hremove⟩ := withdrawNoEnsure_ok h
  have hothers := (checkpoint_slope hcheck).2
  have hsame := (hpay.sameLocks.trans (checkpoint_recordsOnly hcheck).sameLocks).trans
    (refreshGaugePool_outsideOnly hrefresh).sameLocks
  have hlocked : s₃.locked = Function.update s.locked p .zero := hsame.locked
  have hpositions : s₃.userPositions = s.userPositions := hsame.userPositions
  have hlast : ∀ q, q ≠ p → s₃.lastUserPoint q = s.lastUserPoint q := by
    intro q hq
    rw [(refreshGaugePool_outsideOnly hrefresh).rewardCall.samePoints.lastUserPoint,
      hothers q hq, hpay.rewardCall.samePoints.lastUserPoint]
    rfl
  have hblock : s₃.blockNumber = s.blockNumber := hsame.blockNumber
  obtain ⟨-, rfl⟩ := removePosition_ok hremove
  have hkept : ∀ w, ∀ q ∈ (s₃.removed who p).userPositions w, q ∈ s.userPositions w ∧ q ≠ p := by
    intro w q hq
    have hremoved : (s₃.removed who p).userPositions = Function.update s₃.userPositions who
      ((s₃.userPositions who).filter fun q => q ≠ p) := rfl
    rw [hremoved, hpositions] at hq
    by_cases hw : w = who
    · subst w
      rw [Function.update_self] at hq
      obtain ⟨hmem, hne⟩ := List.mem_filter.mp hq
      exact ⟨hmem, of_decide_eq_true hne⟩
    · rw [Function.update_of_ne hw] at hq
      refine ⟨hq, ?_⟩
      rintro rfl
      exact hbooked.notMem hp hw hq
  refine hs.of_kept hblock.ge hcoefficient fun w q hq => ?_
  obtain ⟨hmem, hne⟩ := hkept w q hq
  refine ⟨hmem, ?_, ?_⟩
  · have hremoved : (s₃.removed who p).locked q = s₃.locked q := setLocked_off rfl q hne
    rw [hremoved, hlocked, Function.update_of_ne hne]
  · rw [removed_lastUserPoint hne, hlast q hne]

/-! Markups. -/

theorem remarkPosition_curve {info : UserMarkupInfo} (hs : Curve s s.ends) (hp : p < s.position)
    (hrecent : Recent s)
    (hslope : s.blockNumber < s.ends p → (s.lastUserPoint p).slope =
      lineSlope cfg (marked info.oldMarkupCoefficient (s.locked p).amount))
    (h : remarkPosition who info s p = .ok s') :
    Curve s' s'.ends ∧ Recent s' ∧ SameLocks s s' ∧
      (s.blockNumber < s.ends p → (s'.lastUserPoint p).slope =
        lineSlope cfg (marked info.markupCoefficient (s.locked p).amount)) ∧
      ∀ q, q ≠ p → s'.lastUserPoint q = s.lastUserPoint q := by
  obtain ⟨-, hcheck⟩ := remarkPosition_ok h
  have hsame := (checkpoint_recordsOnly hcheck).sameLocks
  obtain ⟨hcurve, hrecent'⟩ := checkpoint_curve hcheck hs hp hrecent rfl
    (fun hlive => (hslope hlive).symm) (Or.inr (Nat.le_refl _)) (hs.weekly p)
  obtain ⟨hnew, hothers⟩ := checkpoint_slope hcheck
  have hends : s'.ends = Function.update s.ends p (s.locked p).endBlock := by
    have hend : (s.locked p).endBlock = s.ends p := rfl
    rw [hend, Function.update_eq_self]
    unfold State.ends
    rw [hsame.locked]
  rw [← hends] at hcurve
  refine ⟨hcurve, hrecent', hsame, fun hlive => ?_, hothers⟩
  rw [hnew]
  exact DecayingLine.slopeAt_of_lt (l := ⟨_, (s.locked p).endBlock⟩) hlive

theorem remarkList_curve {info : UserMarkupInfo} {positions : List ℕ}
    (h : positions.foldlM (remarkPosition who info) s = .ok s') (hnodup : positions.Nodup)
    (hs : Curve s s.ends) (hp : ∀ p ∈ positions, p < s.position)
    (hrecent : positions ≠ [] → Recent s)
    (hslope : ∀ p ∈ positions, s.blockNumber < s.ends p → (s.lastUserPoint p).slope =
      lineSlope cfg (marked info.oldMarkupCoefficient (s.locked p).amount)) :
    Curve s' s'.ends ∧ (Recent s → Recent s') ∧
      (∀ p ∈ positions, s.blockNumber < s.ends p → (s'.lastUserPoint p).slope =
        lineSlope cfg (marked info.markupCoefficient (s.locked p).amount)) ∧
      ∀ q, q ∉ positions → s'.lastUserPoint q = s.lastUserPoint q := by
  induction positions generalizing s with
  | nil =>
    rw [List.foldlM_nil, pure_eq_ok] at h
    subst s'
    exact ⟨hs, id, fun p hp => absurd hp List.not_mem_nil, fun _ _ => rfl⟩
  | cons p positions ih =>
    rw [List.foldlM_cons, bind_eq_ok] at h
    obtain ⟨s₁, hfirst, h⟩ := h
    obtain ⟨hnotMem, hnodup⟩ := List.nodup_cons.mp hnodup
    obtain ⟨hcurve, hrecent₁, hsame, hnew, hothers⟩ := remarkPosition_curve hs
      (hp p List.mem_cons_self) (hrecent (List.cons_ne_nil _ _))
      (hslope p List.mem_cons_self) hfirst
    have hends : s₁.ends = s.ends := by
      unfold State.ends
      rw [hsame.locked]
    have hne : ∀ q ∈ positions, q ≠ p := by
      rintro q hq rfl
      exact hnotMem hq
    obtain ⟨hcurve', hrecent', hnew', hothers'⟩ := ih h hnodup hcurve
      (fun q hq => hsame.position ▸ hp q (List.mem_cons_of_mem _ hq)) (fun _ => hrecent₁)
      (fun q hq => by
        rw [hsame.blockNumber, hends, hothers q (hne q hq), hsame.locked]
        exact hslope q (List.mem_cons_of_mem _ hq))
    rw [hsame.blockNumber, hends, hsame.locked] at hnew'
    refine ⟨hcurve', fun _ => hrecent' hrecent₁, fun q hq hlive => ?_, fun q hq => ?_⟩
    · rcases List.mem_cons.mp hq with rfl | hmem
      · rw [hothers' q hnotMem]
        exact hnew hlive
      · exact hnew' q hmem hlive
    · rw [List.mem_cons, not_or] at hq
      exact (hothers' q hq.2).trans (hothers q hq.1)

theorem remark_curve {token : Option LockedToken} {total : ℕ} {ledger : cfg.currencies.Ledger}
    {new : FixedU128} (hs : Curve s s.ends) (hrecorded : Recorded s) (hbooked : Booked s)
    (hrecent : s.userPositions who ≠ [] → Recent s)
    (h : remarkPositions (s.remarked currency who token total ledger ⟨s.coefficientOf who, new⟩)
      who ⟨s.coefficientOf who, new⟩ = .ok s') :
    Curve s' s'.ends ∧ Recorded s' ∧ (Recent s → Recent s') := by
  have hpoints : SamePoints s
      (s.remarked currency who token total ledger ⟨s.coefficientOf who, new⟩) :=
    ⟨rfl, rfl, rfl, rfl, rfl, rfl, rfl⟩
  have hkept := remarkPositions_recordsOnly h
  have hinfos : s'.userMarkupInfos =
    Function.update s.userMarkupInfos who (some ⟨s.coefficientOf who, new⟩) := hkept.markupKept.infos
  have hlocked : s'.locked = s.locked := hkept.sameLocks.locked
  have hpositions : s'.userPositions = s.userPositions := hkept.sameLocks.userPositions
  have hblock : s'.blockNumber = s.blockNumber := hkept.sameLocks.blockNumber
  obtain ⟨hcurve, hrecent', hnew, hothers⟩ := remarkList_curve h (hbooked.nodup who)
    (hpoints.curve hs) (fun p hp => hbooked.owned_lt ((hbooked.owner who p).mp hp))
    (fun hne => hpoints.recent (hrecent hne)) (fun p hp hlive => hrecorded who p hp hlive)
  refine ⟨hcurve, fun w q hq hlive => ?_, fun hs => hrecent' (hpoints.recent hs)⟩
  unfold State.ends at hlive
  rw [hpositions] at hq
  rw [hlocked, hblock] at hlive
  rw [hlocked]
  unfold State.coefficientOf
  rw [hinfos]
  by_cases hw : w = who
  · subst w
    rw [Function.update_self]
    exact hnew q hq hlive
  · have hnotMem : q ∉ s.userPositions who := fun hmem => hbooked.notMem hmem hw hq
    rw [Function.update_of_ne hw, hothers q hnotMem]
    exact hrecorded w q hq hlive

theorem touched_curve (hs : Curve s s.ends) (hrecorded : Recorded s) (currency : CurrencyId)
    (coefficient : MarkupCoefficientInfo) :
    Curve (s.touched currency coefficient) (s.touched currency coefficient).ends ∧
      Recorded (s.touched currency coefficient) := by
  have hpoints : SamePoints s (s.touched currency coefficient) :=
    ⟨rfl, rfl, rfl, rfl, rfl, rfl, rfl⟩
  exact ⟨hpoints.curve hs, hrecorded⟩

theorem refreshInner_curve (hs : Curve s s.ends) (hrecorded : Recorded s) (hbooked : Booked s)
    (hrecent : ∀ coefficient, s.markupCoefficient currency = some coefficient →
      Recent s ∨ ∀ e ∈ dueTokens s currency coefficient, s.userPositions e.1 = [])
    (h : refreshInner s currency = .ok s') : Curve s' s'.ends ∧ Recorded s' := by
  obtain ⟨coefficient, hcoefficient, hfold⟩ := refreshInner_ok h
  have hkept : Curve s' s'.ends ∧ Recorded s' ∧ Booked s' ∧ s'.userPositions = s.userPositions ∧
      (Recent s → Recent s') := by
    refine foldlM_invariant (I := fun t : State cfg => Curve t t.ends ∧ Recorded t ∧ Booked t ∧
      t.userPositions = s.userPositions ∧ (Recent s → Recent t))
      ?_ ⟨hs, hrecorded, hbooked, rfl, id⟩ hfold
    rintro e he t t' ⟨ht, hrecorded, hbooked, hpositions, hrecent'⟩ haccount
    obtain ⟨info, new, -, -, hmark⟩ := refreshAccount_ok haccount
    have hsame : SameLocks t t' := (remarked_markupOnly rfl (fun _ _ => rfl) hmark).sameLocks
    have hrecent₁ : t.userPositions e.1 ≠ [] → Recent t := by
      intro hne
      rw [hpositions] at hne
      exact hrecent' ((hrecent coefficient hcoefficient).resolve_right fun hnone =>
        hne (hnone e he))
    obtain ⟨hcurve, hrecorded', hkeeps⟩ := remark_curve ht hrecorded hbooked hrecent₁ hmark
    exact ⟨hcurve, hrecorded', hbooked.of_same hsame, hsame.userPositions.trans hpositions,
      fun hs => hkeeps (hrecent' hs)⟩
  exact ⟨hkept.1, hkept.2.1⟩

/-! The hook. -/

def State.expired (s : State cfg) : List ℕ :=
  (List.range s.position).filter fun p =>
    (s.positionOwner p).isSome ∧ (s.locked p).amount ≠ 0 ∧ (s.locked p).endBlock ≤ s.blockNumber

theorem mem_expired (hbooked : Booked s) (howner : s.positionOwner p = some who)
    (hend : (s.locked p).endBlock ≤ s.blockNumber) (hamount : (s.locked p).amount ≠ 0) :
    p ∈ s.expired := by
  refine List.mem_filter.mpr ⟨List.mem_range.mpr (hbooked.owned_lt howner), ?_⟩
  simp [howner, hend, hamount]

theorem keptBySweep_traced :
    KeptBySweep fun s : State cfg => Traced s ∧ (s.expired ≠ [] → Recent s) where
  withdraw := by
    rintro s s' who p ⟨hs, hrecent⟩ howner hend hamount h
    have hmem := (hs.booked.owner who p).mpr howner
    have hne := List.ne_nil_of_mem (mem_expired hs.booked howner hend hamount)
    have hexpired : ¬ s.blockNumber < s.ends p := Nat.not_lt.mpr hend
    obtain ⟨hcurve, hrecent'⟩ := withdrawNoEnsure_curve h hs.curve (hs.booked.owned_lt howner)
      (hrecent hne) (fun hlive => absurd hlive hexpired)
    refine ⟨⟨hcurve, ?_, ?_, ?_, ?_⟩, fun _ => hrecent'⟩
    · exact withdrawNoEnsure_recorded h hs.recorded hs.booked hmem
    · exact keptBySweep_booked.withdraw hs.booked howner hend hamount h
    · exact keptBySweep_pointsOwned.withdraw hs.pointsOwned howner hend hamount h
    · exact withdrawNoEnsure_endsWeekly hs.endsWeekly h
  schedule := by
    rintro s expiringPositions nextExpiringBlock ⟨hs, hrecent⟩
    have hpoints : SamePoints s { s with
        expiringPositions := expiringPositions, nextExpiringBlock := nextExpiringBlock } :=
      ⟨rfl, rfl, rfl, rfl, rfl, rfl, rfl⟩
    refine ⟨⟨hpoints.curve hs.curve, hs.recorded, hs.booked.scheduled _ _, ?_, ?_⟩, hrecent⟩
    · exact hs.pointsOwned
    · exact hs.endsWeekly

theorem nextBlock_traced (hs : Traced s) : Traced s.nextBlock := by
  have hcall := notifyOnBlock_rewardCall { s with blockNumber := s.blockNumber + 1 }
  have hcurve : Curve { s with blockNumber := s.blockNumber + 1 } s.ends :=
    ⟨Nat.le_succ_of_le hs.curve.past, hs.curve.start, hs.curve.onCurve, hs.curve.changes,
      hs.curve.slopes, hs.curve.lined, hs.curve.blank, hs.curve.weekly⟩
  have hrecorded : Recorded { s with blockNumber := s.blockNumber + 1 } :=
    hs.recorded.of_kept (Nat.le_succ _) rfl fun w p hp => ⟨hp, rfl, rfl⟩
  have hbooked : Booked { s with blockNumber := s.blockNumber + 1 } :=
    ⟨hs.booked.supply, hs.booked.unused, hs.booked.userLocked, hs.booked.lock, hs.booked.owner,
      hs.booked.nodup⟩
  refine ⟨hcall.curve hcurve, hcall.recorded hrecorded, hbooked.of_same hcall.sameLocks,
    hcall.pointsOwned ?_, EndsWeekly.of_same ?_ hcall.sameLocks⟩
  · exact hs.pointsOwned
  · exact hs.endsWeekly

/-! Every call. -/

/-- A checkpoint is in time, and the slope that it is given for the old lock is the one recorded
for the position. -/
def KeepsCurve (s : State cfg) : Call cfg → Prop
  | .createLock .. | .withdraw .. => Recent s
  | .increaseAmount who p _ | .increaseUnlockTime who p _ => Recent s ∧
      lineSlope cfg (marked (oldCoefficient (s.userMarkupInfos who)) (s.locked p).amount) =
        lineSlope cfg (marked (s.coefficientOf who) (s.locked p).amount)
  | .redeemUnlock who p => Recent s ∧ lineSlope cfg (s.locked p).amount =
      lineSlope cfg (marked (s.coefficientOf who) (s.locked p).amount)
  | .depositMarkup who .. | .withdrawMarkup who _ => s.userPositions who ≠ [] → Recent s
  | .refresh currency => ∀ coefficient ∈ s.markupCoefficient currency,
      Recent s ∨ ∀ e ∈ dueTokens s currency coefficient, s.userPositions e.1 = []
  | .onInitialize => s.nextBlock.expired ≠ [] → Recent s.nextBlock
  | _ => True

instance (s : State cfg) : ∀ c : Call cfg, Decidable (KeepsCurve s c)
  | .createLock .. | .withdraw .. => inferInstanceAs (Decidable (Recent s))
  | .increaseAmount .. | .increaseUnlockTime .. | .redeemUnlock .. =>
    inferInstanceAs (Decidable (_ ∧ _ = _))
  | .depositMarkup who .. | .withdrawMarkup who _ =>
    inferInstanceAs (Decidable (s.userPositions who ≠ [] → Recent s))
  | .refresh currency => inferInstanceAs (Decidable (∀ coefficient ∈ s.markupCoefficient currency,
      Recent s ∨ ∀ e ∈ dueTokens s currency coefficient, s.userPositions e.1 = []))
  | .onInitialize => inferInstanceAs (Decidable (s.nextBlock.expired ≠ [] → Recent s.nextBlock))
  | .setConfig .. | .notifyRewards .. | .getRewards .. | .getGaugeRewards ..
  | .setMarkupCoefficient .. | .pay .. | .issue .. | .burn .. | .elsewhere .. => .isTrue trivial

theorem created_recorded (hs : Recorded s) : Recorded (s.created who) := by
  intro w q hq hlive
  by_cases hqp : q = s.position
  · subst q
    have hend : (s.created who).ends s.position = 0 := by
      unfold State.ends State.created State.setLocked
      simp
    rw [hend] at hlive
    contradiction
  · have hlocked : (s.created who).locked q = s.locked q := setLocked_off rfl q hqp
    have hmem : q ∈ s.userPositions w := by
      have hpositions : (s.created who).userPositions =
        Function.update s.userPositions who (s.userPositions who ++ [s.position]) := rfl
      rw [hpositions] at hq
      by_cases hw : w = who
      · subst w
        rw [Function.update_self, List.mem_append, List.mem_singleton] at hq
        exact hq.resolve_right hqp
      · rwa [Function.update_of_ne hw] at hq
    unfold State.ends at hlive
    rw [hlocked] at hlive ⊢
    exact hs w q hmem hlive

theorem step_curve {c : Call cfg} (hs : Traced s) (hok : KeepsCurve s c) (h : step s c = .ok s') :
    Curve s' s'.ends ∧ Recorded s' := by
  cases c with
  | createLock who value time =>
    obtain ⟨endBlock, hweek, hdeposit⟩ := createLockInner_ok h
    have hzero : (s.created who).locked s.position = .zero := by
      simp [State.created, State.setLocked]
    have hpoints : SamePoints (s.created who) ((s.created who).recorded s.position endBlock) :=
      ⟨rfl, rfl, rfl, rfl, rfl, rfl, rfl⟩
    have hbooked : Booked ((s.created who).recorded s.position endBlock) :=
      (created_booked hs.booked who).scheduled _ _
    have hmem : s.position ∈ (s.created who).userPositions who := by
      simp [State.created, State.setLocked]
    have hend : (s.created who).ends s.position = 0 := by
      unfold State.ends
      rw [hzero]
      rfl
    rw [← hzero] at hdeposit
    refine ⟨deposits_curve hdeposit (hpoints.curve ?_) (Nat.lt_succ_self _) (hpoints.recent ?_)
      (fun hlive => ?_) ?_ hweek.dvd, deposits_recorded hdeposit ?_ hbooked hmem⟩
    · exact created_curve hs.curve hs.booked hs.pointsOwned
    · exact hok
    · change (s.created who).blockNumber < (s.created who).ends s.position at hlive
      rw [hend] at hlive
      contradiction
    · change (s.created who).ends s.position ≤ endBlock
      rw [hend]
      exact Nat.zero_le _
    · exact created_recorded hs.recorded
  | increaseAmount who p value =>
    obtain ⟨hmem, h⟩ := ownPosition_ok h
    obtain ⟨-, -, hdeposit⟩ := increaseAmountInner_ok h
    obtain ⟨hrecent, hslope⟩ := hok
    have howner := (hs.booked.owner who p).mp hmem
    refine ⟨deposits_curve hdeposit hs.curve (hs.booked.owned_lt howner) hrecent (fun hlive => ?_)
      (Nat.le_refl _) (hs.curve.weekly p),
      deposits_recorded hdeposit hs.recorded hs.booked hmem⟩
    rw [hslope, hs.recorded who p hmem hlive]
  | increaseUnlockTime who p time =>
    obtain ⟨hmem, h⟩ := ownPosition_ok h
    obtain ⟨endBlock, hweek, hlater, -, -, hdeposit⟩ := increaseUnlockTimeInner_ok h
    obtain ⟨hrecent, hslope⟩ := hok
    have howner := (hs.booked.owner who p).mp hmem
    have hpoints : SamePoints s
        ((removeExpiringPosition s p (s.locked p).endBlock).recorded p endBlock) :=
      ⟨rfl, rfl, rfl, rfl, rfl, rfl, rfl⟩
    have hbooked : Booked ((removeExpiringPosition s p (s.locked p).endBlock).recorded p endBlock) :=
      hs.booked.scheduled _ _
    rw [Nat.min_eq_left (hs.endsWeekly p).2] at hlater
    refine ⟨deposits_curve hdeposit (hpoints.curve ?_) (hs.booked.owned_lt howner)
      (hpoints.recent hrecent) (fun hlive => ?_) hlater hweek.dvd,
      deposits_recorded hdeposit ?_ hbooked hmem⟩
    · exact hs.curve
    · refine hslope.trans ?_
      exact (hs.recorded who p hmem hlive).symm
    · exact hs.recorded
  | withdraw who p =>
    obtain ⟨hmem, h⟩ := ownPosition_ok h
    obtain ⟨hend, h⟩ := withdrawInner_ok h
    have howner := (hs.booked.owner who p).mp hmem
    have hpoints : SamePoints s (removeExpiringPosition s p (s.locked p).endBlock) :=
      ⟨rfl, rfl, rfl, rfl, rfl, rfl, rfl⟩
    have hexpired : ¬ s.blockNumber < s.ends p := Nat.not_lt.mpr hend
    have hbooked : Booked (removeExpiringPosition s p (s.locked p).endBlock) :=
      hs.booked.scheduled _ _
    obtain ⟨hcurve, -⟩ := withdrawNoEnsure_curve h (hpoints.curve hs.curve)
      (hs.booked.owned_lt howner) (hpoints.recent hok) (fun hlive => absurd hlive hexpired)
    exact ⟨hcurve, withdrawNoEnsure_recorded h hs.recorded hbooked hmem⟩
  | redeemUnlock who p =>
    obtain ⟨hmem, h⟩ := ownPosition_ok h
    obtain ⟨-, fast, h⟩ := redeemUnlockInner_ok h
    obtain ⟨hrecent, hslope⟩ := hok
    have howner := (hs.booked.owner who p).mp hmem
    have hpoints : SamePoints s (removeExpiringPosition s p (s.locked p).endBlock) :=
      ⟨rfl, rfl, rfl, rfl, rfl, rfl, rfl⟩
    have hbooked : Booked (removeExpiringPosition s p (s.locked p).endBlock) :=
      hs.booked.scheduled _ _
    obtain ⟨hcurve, -⟩ := withdrawNoEnsure_curve h (hpoints.curve hs.curve)
      (hs.booked.owned_lt howner) (hpoints.recent hrecent)
      (fun hlive => hslope.trans (hs.recorded who p hmem hlive).symm)
    exact ⟨hcurve, withdrawNoEnsure_recorded h hs.recorded hbooked hmem⟩
  | depositMarkup who currency value =>
    obtain ⟨coefficient, new, ledger, s₁, -, -, -, -, -, hmark, rfl⟩ := depositMarkupInner_ok h
    obtain ⟨hcurve, hrecorded, -⟩ := remark_curve hs.curve hs.recorded hs.booked hok hmark
    exact touched_curve hcurve hrecorded currency coefficient
  | withdrawMarkup who currency =>
    obtain ⟨coefficient, token, ledger, -, -, -, -, hmark⟩ := withdrawMarkupInner_ok h
    obtain ⟨hcurve, hrecorded⟩ := touched_curve hs.curve hs.recorded currency coefficient
    have hbooked : Booked (s.touched currency coefficient) :=
      ⟨hs.booked.supply, hs.booked.unused, hs.booked.userLocked, hs.booked.lock, hs.booked.owner,
        hs.booked.nodup⟩
    obtain ⟨hcurve', hrecorded', -⟩ := remark_curve hcurve hrecorded hbooked hok hmark
    exact ⟨hcurve', hrecorded'⟩
  | refresh currency =>
    exact refreshInner_curve hs.curve hs.recorded hs.booked hok h
  | onInitialize =>
    cases h
    obtain ⟨⟨hcurve, hrecorded, -, -, -⟩, -⟩ :=
      keptBySweep_traced.withdrawExpired ⟨nextBlock_traced hs, hok⟩
    exact ⟨hcurve, hrecorded⟩
  | setMarkupCoefficient currency markup hardcap rwi =>
    cases h
    have hpoints : SamePoints s (setMarkupCoefficient s currency markup hardcap rwi) :=
      ⟨rfl, rfl, rfl, rfl, rfl, rfl, rfl⟩
    exact ⟨hpoints.curve hs.curve, hs.recorded⟩
  | setConfig | notifyRewards | getRewards | getGaugeRewards | pay | issue | burn | elsewhere =>
    obtain ⟨bbConfig, hcall⟩ := step_rewards (by simp [Call.MovesLocks]) (by simp [Call.Marks]) h
    have hpoints : SamePoints s { s with bbConfig := bbConfig } :=
      ⟨rfl, rfl, rfl, rfl, rfl, rfl, rfl⟩
    exact ⟨hcall.curve (hpoints.curve hs.curve), hcall.recorded hs.recorded⟩

theorem step_traced {c : Call cfg} (hs : Traced s) (hok : KeepsCurve s c)
    (h : step s c = .ok s') : Traced s' := by
  obtain ⟨hcurve, hrecorded⟩ := step_curve hs hok h
  exact ⟨hcurve, hrecorded, step_booked hs.booked h, step_pointsOwned hs.pointsOwned hs.booked h,
    step_endsWeekly hs.endsWeekly h⟩

/-! Runs. -/

/-- What the last point of a position gives at a block. -/
def State.biasAt (s : State cfg) (p t : ℕ) : ℤ :=
  if t < (s.locked p).endBlock then
    (s.lastUserPoint p).bias - (s.lastUserPoint p).slope * (t - (s.lastUserPoint p).block)
  else 0

def State.slopeAt (s : State cfg) (p t : ℕ) : ℤ :=
  if t < (s.locked p).endBlock then (s.lastUserPoint p).slope else 0

structure CurveAgrees (s : State cfg) : Prop where
  bias : s.globalPoint.bias =
    ((List.range s.position).map fun p => s.biasAt p s.globalPoint.block).sum
  slope : s.globalPoint.slope =
    ((List.range s.position).map fun p => s.slopeAt p s.globalPoint.block).sum
  changes : ∀ t, s.blockNumber < t → s.slopeChanges t =
    -((List.range s.position).map fun p =>
      if (s.locked p).endBlock = t then (s.lastUserPoint p).slope else 0).sum

theorem Curve.biasAt (hs : Curve s s.ends) (p t : ℕ) : (s.line s.ends p).biasAt t = s.biasAt p t := by
  unfold State.biasAt
  by_cases hlive : t < (s.locked p).endBlock
  · unfold DecayingLine.biasAt
    rw [if_pos hlive, DecayingLine.slopeAt_of_lt (l := s.line s.ends p) hlive, hs.lined p]
    change (s.lastUserPoint p).slope * ((s.ends p : ℤ) - t) = _
    ring
  · rw [if_neg hlive]
    exact DecayingLine.biasAt_of_le (l := s.line s.ends p) (Nat.le_of_not_lt hlive)

theorem Curve.agrees (hs : Curve s s.ends) : CurveAgrees s := by
  refine ⟨?_, hs.onCurve.slope, fun t ht => hs.changes t (hs.past.trans_lt ht)⟩
  rw [hs.onCurve.bias]
  unfold DecayingLines.biasAt
  congr 1
  exact List.map_congr_left fun p _ => hs.biasAt p s.globalPoint.block

theorem genesis_traced (accounts : Unlocked cfg) (outside : cfg.Outside) (n : ℕ) :
    Traced (genesis cfg accounts outside n) := by
  refine ⟨⟨Nat.zero_le _, fun _ _ => rfl, ⟨rfl, rfl⟩, fun _ _ => rfl, fun _ => le_rfl, fun p => ?_,
    fun _ => rfl, fun _ => dvd_zero _⟩, fun _ _ hp => absurd hp List.not_mem_nil,
    genesis_booked accounts outside n, fun _ _ => rfl, fun _ => ⟨dvd_zero _, Nat.zero_le _⟩⟩
  exact (zero_mul _).symm

/-- In every state of a run whose checkpoints come in time and are given the slope that was
recorded, the global curve is the sum of the positions. -/
theorem curve_agrees (accounts : Unlocked cfg) (outside : cfg.Outside) (n : ℕ)
    (calls : List (Call cfg)) (h : Meets step KeepsCurve (genesis cfg accounts outside n) calls) :
    CurveAgrees (run step (genesis cfg accounts outside n) calls) := by
  have hs : Traced (run step (genesis cfg accounts outside n) calls) :=
    run_invariant (I := Traced) (fun _ _ _ hs hok hstep => step_traced hs hok hstep) calls
      (genesis_traced accounts outside n) h
  exact hs.curve.agrees

namespace Sample

def marked : List (Call config) :=
  [.createLock 1 4000 30, marking 2000000000000000000, .depositMarkup 1 vdot 400000]

/-- A second account locks and locks more, the markup is refreshed and withdrawn, the second lock
expires and the first is redeemed. -/
def traced : List (Call config) :=
  marked ++ [.createLock 2 8000 5, .onInitialize, .increaseAmount 2 1 400, .refresh vdot,
    .withdrawMarkup 1 vdot] ++ blocks 10 ++ [.redeemUnlock 1 0]

theorem traced_keeps : Meets step KeepsCurve (genesis config wealth () 1) traced := by
  decide +kernel

end Sample

theorem curve_agrees_sample :
    CurveAgrees (run step (genesis Sample.config Sample.wealth () 1) Sample.traced) :=
  curve_agrees Sample.wealth () 1 Sample.traced Sample.traced_keeps

/-- More is locked in a marked lock, and a marked lock is redeemed: some of its slope stays. -/
theorem curve_phantom :
    ¬ CurveAgrees (run step Sample.start (Sample.marked ++ [.increaseAmount 1 0 1000])) ∧
      ¬ CurveAgrees (run step Sample.start (Sample.marked ++ [.redeemUnlock 1 0])) := by
  refine ⟨fun h => absurd h.slope ?_, fun h => absurd h.slope ?_⟩
  · decide +kernel
  · decide +kernel

end Bifrost.BbBnc
