import Bifrost.BbBnc.Locks

/-!
# The points of the positions

A checkpoint writes the last point of one position. Only positions with an owner have points, so
what an account weighs depends on its own positions alone.
-/

namespace Bifrost.BbBnc

open Result Machine
set_option autoImplicit false

variable {AccountId : Type} [DecidableEq AccountId] {cfg : Config AccountId}
  {s s' s₁ : State cfg} {who w : AccountId} {p : ℕ} {old new : LockedBalance}

/-- Only positions with an owner have points. -/
def PointsOwned (s : State cfg) : Prop :=
  ∀ p, s.positionOwner p = none → s.userPointEpoch p = 0

/-- The last point of a position is written. -/
structure Repoints (s : State cfg) (p : ℕ) (point : Point) (s' : State cfg) : Prop where
  pointed : 0 < s'.userPointEpoch p
  last : s'.lastUserPoint p = point
  epochs : ∀ q, q ≠ p → s'.userPointEpoch q = s.userPointEpoch q
  others : ∀ q, q ≠ p → s'.lastUserPoint q = s.lastUserPoint q
  first : ∀ q, s'.userPointHistory q 0 = s.userPointHistory q 0

theorem recordUserPoint_repoints (s : State cfg) (p : ℕ) (point : Point) :
    Repoints s p point (s.recordUserPoint p point) := by
  refine ⟨?_, ?_, fun q hq => ?_, fun q hq => ?_, fun q => ?_⟩
  · simp [State.recordUserPoint]
  · simp [State.recordUserPoint, State.lastUserPoint]
  · simp [State.recordUserPoint, Function.update_of_ne hq]
  · simp [State.recordUserPoint, State.lastUserPoint, Function.update_of_ne hq]
  · by_cases hq : q = p
    · subst q
      simp [State.recordUserPoint]
    · simp [State.recordUserPoint, Function.update_of_ne hq]

theorem movePoints_repoints (h : movePoints s p old new = .ok s') :
    ∃ line, linePoint cfg s.blockNumber new = .ok line ∧
      Repoints s p { line with block := s.blockNumber, amount := new.amount } s' := by
  obtain ⟨uOld, uNew, moved, changes, -, hnew, hmoved, -, rfl⟩ := movePoints_ok h
  obtain ⟨t, walked, point, -, -, -, rfl⟩ := moveGlobal_ok hmoved
  have hpoints := recordUserPoint_repoints { s with
    epoch := walked.epoch
    pointHistory := Function.update walked.history walked.epoch point
    slopeChanges := changes } p { uNew with block := s.blockNumber, amount := new.amount }
  exact ⟨uNew, hnew, hpoints.pointed, hpoints.last, hpoints.epochs, hpoints.others,
    hpoints.first⟩

theorem checkpoint_repoints (h : checkpoint s who p old new = .ok s') :
    ∃ line, linePoint cfg s.blockNumber new = .ok line ∧
      Repoints s p { line with block := s.blockNumber, amount := new.amount } s' := by
  obtain ⟨s₁, hupdate, hmove⟩ := checkpoint_ok h
  obtain ⟨_, _, _, _, rfl⟩ := updateReward_rewardsOnly hupdate
  obtain ⟨line, hline, hpoints⟩ := movePoints_repoints hmove
  exact ⟨line, hline, hpoints.pointed, hpoints.last, hpoints.epochs, hpoints.others,
    hpoints.first⟩

/-! Only owned positions have points. -/

theorem Repoints.pointsOwned {point : Point} (h : Repoints s p point s') (hs : PointsOwned s)
    (hp : s.positionOwner p ≠ none) (howner : s'.positionOwner = s.positionOwner) :
    PointsOwned s' := by
  intro q hq
  rw [howner] at hq
  have hne : q ≠ p := by
    rintro rfl
    exact hp hq
  rw [h.epochs q hne]
  exact hs q hq

theorem checkpoint_pointsOwned (hs : PointsOwned s)
    (hp : s.positionOwner p ≠ none) (h : checkpoint s who p old new = .ok s') :
    PointsOwned s' := by
  obtain ⟨line, -, hpoints⟩ := checkpoint_repoints h
  exact hpoints.pointsOwned hs hp (checkpoint_recordsOnly h).sameLocks.positionOwner

theorem OutsideOnly.pointsOwned (h : OutsideOnly s s') (hs : PointsOwned s) : PointsOwned s' := by
  obtain ⟨_, _, -, rfl⟩ := h
  exact hs

theorem RewardCall.pointsOwned (h : RewardCall s s') (hs : PointsOwned s) : PointsOwned s' := by
  obtain ⟨_, _, _, _, _, _, -, rfl⟩ := h
  exact hs

theorem deposits_pointsOwned {value : ℕ} (hs : PointsOwned s)
    (hp : s.positionOwner p ≠ none) (h : Deposits s who p value old new s') : PointsOwned s' := by
  obtain ⟨-, ledger, s₁, -, -, -, hmark, houtside⟩ := h
  refine houtside.pointsOwned (checkpoint_pointsOwned ?_ ?_ (markupCalc_ok hmark))
  · exact hs
  · exact hp

theorem removed_pointsOwned (hs : PointsOwned s) : PointsOwned (s.removed who p) := by
  intro q hq
  have howners : (s.removed who p).positionOwner = Function.update s.positionOwner p none := rfl
  have hepochs : (s.removed who p).userPointEpoch = Function.update s.userPointEpoch p 0 := rfl
  rw [howners] at hq
  rw [hepochs]
  by_cases hqp : q = p
  · subst q
    exact Function.update_self ..
  · rw [Function.update_of_ne hqp] at hq ⊢
    exact hs q hq

theorem withdrawNoEnsure_pointsOwned {locked : LockedBalance} {ifFast : Option FixedU128}
    (hs : PointsOwned s) (hp : s.positionOwner p ≠ none)
    (h : withdrawNoEnsure s who p locked ifFast = .ok s') : PointsOwned s' := by
  obtain ⟨-, -, ledger, s₁, s₂, s₃, -, hpay, hcheck, hrefresh, hremove⟩ := withdrawNoEnsure_ok h
  have hless : PointsOwned (s.lockLess who p locked.amount ledger) := hs
  have hpay' : s₁.positionOwner = s.positionOwner := hpay.sameLocks.positionOwner
  have h₂ : PointsOwned s₂ := by
    refine checkpoint_pointsOwned (hpay.pointsOwned hless) ?_ hcheck
    rw [hpay']
    exact hp
  obtain ⟨-, rfl⟩ := removePosition_ok hremove
  exact removed_pointsOwned ((refreshGaugePool_outsideOnly hrefresh).pointsOwned h₂)

theorem remarkPositions_pointsOwned {info : UserMarkupInfo} (hs : PointsOwned s)
    (howned : ∀ p ∈ s.userPositions who, s.positionOwner p ≠ none)
    (h : remarkPositions s who info = .ok s') : PointsOwned s' := by
  have hkept : PointsOwned s' ∧ s'.positionOwner = s.positionOwner := by
    refine foldlM_invariant (I := fun t : State cfg => PointsOwned t ∧
      t.positionOwner = s.positionOwner) ?_ ⟨hs, rfl⟩ h
    rintro p hp t t' ⟨ht, howner⟩ h
    have hcheck := (remarkPosition_ok h).2
    refine ⟨checkpoint_pointsOwned ht ?_ hcheck, ?_⟩
    · rw [howner]
      exact howned p hp
    · rw [← howner]
      exact (checkpoint_recordsOnly hcheck).sameLocks.positionOwner
  exact hkept.1

theorem Booked.owned (hs : Booked s) : ∀ p ∈ s.userPositions who, s.positionOwner p ≠ none := by
  intro p hp
  rw [(hs.owner who p).mp hp]
  exact Option.some_ne_none who

theorem refreshInner_pointsOwned {currency : CurrencyId} (hs : PointsOwned s) (hbooked : Booked s)
    (h : refreshInner s currency = .ok s') : PointsOwned s' := by
  obtain ⟨coefficient, -, hfold⟩ := refreshInner_ok h
  have hkept : PointsOwned s' ∧ Booked s' := by
    refine foldlM_invariant (I := fun t : State cfg => PointsOwned t ∧ Booked t) ?_ ⟨hs, hbooked⟩
      hfold
    rintro e - t t' ⟨ht, hbooked⟩ h
    obtain ⟨info, new, -, -, hmark⟩ := refreshAccount_ok h
    refine ⟨remarkPositions_pointsOwned ?_ ?_ hmark, hbooked.of_same ?_⟩
    · exact ht
    · exact hbooked.owned
    · exact (remarked_markupOnly rfl (fun _ _ => rfl) hmark).sameLocks
  exact hkept.1

theorem keptBySweep_pointsOwned : KeptBySweep fun s : State cfg => PointsOwned s where
  withdraw := by
    intro s s' who p hs howner _ _ h
    refine withdrawNoEnsure_pointsOwned hs ?_ h
    rw [howner]
    exact Option.some_ne_none who
  schedule := fun _ _ hs => hs

theorem step_pointsOwned {c : Call cfg} (hs : PointsOwned s) (hbooked : Booked s)
    (h : step s c = .ok s') : PointsOwned s' := by
  cases c with
  | createLock who value time =>
    obtain ⟨_, -, hdeposit⟩ := createLockInner_ok h
    have howners : (s.created who).positionOwner =
      Function.update s.positionOwner s.position (some who) := rfl
    refine deposits_pointsOwned ?_ ?_ hdeposit
    · intro q hq
      refine hs q ?_
      by_contra hne
      change (s.created who).positionOwner q = none at hq
      rw [howners] at hq
      by_cases hqp : q = s.position
      · subst q
        rw [Function.update_self] at hq
        contradiction
      · rw [Function.update_of_ne hqp] at hq
        exact hne hq
    · change (s.created who).positionOwner s.position ≠ none
      rw [howners, Function.update_self]
      exact Option.some_ne_none who
  | increaseAmount who p value =>
    obtain ⟨hmem, h⟩ := ownPosition_ok h
    exact deposits_pointsOwned hs (hbooked.owned p hmem) (increaseAmountInner_ok h).2.2
  | increaseUnlockTime who p time =>
    obtain ⟨hmem, h⟩ := ownPosition_ok h
    obtain ⟨_, -, -, -, -, hdeposit⟩ := increaseUnlockTimeInner_ok h
    refine deposits_pointsOwned ?_ ?_ hdeposit
    · exact hs
    · exact hbooked.owned p hmem
  | withdraw who p =>
    obtain ⟨hmem, h⟩ := ownPosition_ok h
    refine withdrawNoEnsure_pointsOwned ?_ ?_ (withdrawInner_ok h).2
    · exact hs
    · exact hbooked.owned p hmem
  | redeemUnlock who p =>
    obtain ⟨hmem, h⟩ := ownPosition_ok h
    obtain ⟨-, fast, h⟩ := redeemUnlockInner_ok h
    refine withdrawNoEnsure_pointsOwned ?_ ?_ h
    · exact hs
    · exact hbooked.owned p hmem
  | depositMarkup who currency value =>
    obtain ⟨coefficient, new, ledger, s₁, -, -, -, -, -, hmark, rfl⟩ := depositMarkupInner_ok h
    have h₁ : PointsOwned s₁ := by
      refine remarkPositions_pointsOwned ?_ ?_ hmark
      · exact hs
      · exact hbooked.owned
    exact h₁
  | withdrawMarkup who currency =>
    obtain ⟨coefficient, token, ledger, -, -, -, -, hmark⟩ := withdrawMarkupInner_ok h
    refine remarkPositions_pointsOwned ?_ ?_ hmark
    · exact hs
    · exact hbooked.owned
  | refresh currency => exact refreshInner_pointsOwned hs hbooked h
  | onInitialize =>
    cases h
    apply keptBySweep_pointsOwned.withdrawExpired
    refine (notifyOnBlock_rewardCall _).pointsOwned ?_
    exact hs
  | setMarkupCoefficient =>
    cases h
    exact hs
  | setConfig | notifyRewards | getRewards | getGaugeRewards | pay | issue | burn | elsewhere =>
    obtain ⟨_, hcall⟩ := step_rewards (by simp [Call.MovesLocks]) (by simp [Call.Marks]) h
    refine hcall.pointsOwned ?_
    exact hs

/-! What an account weighs. -/

theorem sumBalances_congr {f g : ℕ → Except Fault ℕ} {positions : List ℕ}
    (h : ∀ p ∈ positions, f p = g p) : sumBalances f positions = sumBalances g positions := by
  unfold sumBalances
  apply foldlM_congr
  intro p hp balance
  rw [h p hp]

theorem sumBalances_le {f : ℕ → Except Fault ℕ} {positions : List ℕ} {balance : ℕ}
    (h : sumBalances f positions = .ok balance) : balance ≤ u128Max := by
  refine foldlM_invariant (I := fun balance => balance ≤ u128Max) ?_ (Nat.zero_le _) h
  intro p _ b b' _ hb
  simp only [bind_eq_ok, okOr_eq_ok, U128.checkedAdd_eq_some] at hb
  obtain ⟨amount, -, -, hle⟩ := hb
  exact hle

theorem sumBalances_append_zero {f : ℕ → Except Fault ℕ} (positions : List ℕ) (hp : f p = .ok 0) :
    sumBalances f (positions ++ [p]) = sumBalances f positions := by
  have hsum : sumBalances f (positions ++ [p]) = sumBalances f positions >>= fun balance =>
      okOr (U128.checkedAdd balance 0) .overflow := by
    unfold sumBalances
    rw [List.foldlM_append]
    simp only [List.foldlM_cons, List.foldlM_nil, hp, bind_pure]
    rfl
  rw [hsum]
  cases h : sumBalances f positions with
  | error e => rfl
  | ok balance =>
    have hle := sumBalances_le h
    change okOr (U128.checkedAdd balance 0) Fault.overflow = .ok balance
    rw [okOr_eq_ok, U128.checkedAdd_eq_some]
    exact ⟨Nat.add_zero _, hle⟩

theorem balanceOfPosition_congr (hblock : s'.blockNumber = s.blockNumber)
    (hend : (s'.locked p).endBlock = (s.locked p).endBlock)
    (hepoch : s'.userPointEpoch p = s.userPointEpoch p)
    (hlast : s'.lastUserPoint p = s.lastUserPoint p) :
    balanceOfPositionCurrentBlock s' p = balanceOfPositionCurrentBlock s p := by
  unfold balanceOfPositionCurrentBlock
  rw [hblock, hend, hepoch, hlast]

theorem balanceOfPosition_expired (h : (s.locked p).endBlock ≤ s.blockNumber) :
    balanceOfPositionCurrentBlock s p = .ok 0 := by
  unfold balanceOfPositionCurrentBlock
  rw [if_pos h]
  rfl

theorem balanceOfPosition_blank (h : s.userPointEpoch p = 0) :
    balanceOfPositionCurrentBlock s p = .ok 0 := by
  unfold balanceOfPositionCurrentBlock
  rw [if_pos h, ite_self]
  rfl

theorem balanceOfCurrentBlock_congr (hpositions : s'.userPositions w = s.userPositions w)
    (h : ∀ p ∈ s.userPositions w,
      balanceOfPositionCurrentBlock s' p = balanceOfPositionCurrentBlock s p) :
    balanceOfCurrentBlock s' w = balanceOfCurrentBlock s w := by
  unfold balanceOfCurrentBlock
  rw [hpositions]
  exact sumBalances_congr h

theorem Repoints.balance_others {point : Point} (h : Repoints s p point s')
    (hrecords : RecordsOnly s s') (hp : p ∉ s.userPositions w) :
    balanceOfCurrentBlock s' w = balanceOfCurrentBlock s w := by
  have hsame := hrecords.sameLocks
  apply balanceOfCurrentBlock_congr (congrFun hsame.userPositions w)
  intro q hq
  have hne : q ≠ p := by
    rintro rfl
    exact hp hq
  apply balanceOfPosition_congr hsame.blockNumber _ (h.epochs q hne) (h.others q hne)
  rw [hsame.locked]

theorem Booked.notMem (hs : Booked s) (hp : p ∈ s.userPositions who) (hw : w ≠ who) :
    p ∉ s.userPositions w := by
  intro hmem
  rw [hs.owner] at hp hmem
  exact hw (Option.some_inj.mp (hmem.symm.trans hp))

end Bifrost.BbBnc
