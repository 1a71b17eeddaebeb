import Bifrost.BbBnc.UserPoints

/-!
# The history of the balances

The points of a position are only ever added to, at the current block, until the position is
withdrawn; the search over them finds the last one of a block. So what a live position weighs at a
past block is what it weighed at the end of it.
-/

namespace Bifrost.BbBnc

open Result Machine
set_option autoImplicit false

/-! The search. -/

/-- The search halves what is left and keeps the last point at or before the block in it. -/
theorem searchEpoch_eq {points : ℕ → Point} {block fuel low high last : ℕ}
    (hlow : low ≤ last) (hhigh : last ≤ high) (hfuel : high - low < 2 ^ fuel)
    (hbefore : ∀ e, low < e → e ≤ last → (points e).block ≤ block)
    (hafter : ∀ e, last < e → e ≤ high → block < (points e).block) :
    searchEpoch points block fuel low high = last := by
  induction fuel generalizing low high with
  | zero =>
    rw [searchEpoch]
    omega
  | succ fuel ih =>
    rw [Nat.pow_succ] at hfuel
    rw [searchEpoch]
    split
    · omega
    · have hmid : low < (low + high + 1) / 2 ∧ (low + high + 1) / 2 ≤ high := by omega
      simp only
      split
      · rename_i hblock
        have hle : (low + high + 1) / 2 ≤ last := by
          by_contra hlt
          exact absurd (hafter _ (Nat.lt_of_not_le hlt) hmid.2) (Nat.not_lt.mpr hblock)
        exact ih hle hhigh (by omega) (fun e he => hbefore e (hmid.1.trans he)) hafter
      · rename_i hblock
        have hlt : last < (low + high + 1) / 2 := by
          by_contra hle
          exact hblock (hbefore _ hmid.1 (Nat.le_of_not_lt hle))
        exact ih hlow (by omega) (by omega) hbefore fun e he hle => hafter e he (by omega)

/-- One point more than its rounds can halve, and the search ends before the last one. -/
theorem searchEpoch_short {points : ℕ → Point} {block fuel low : ℕ}
    (h : ∀ e, (points e).block ≤ block) :
    searchEpoch points block fuel low (low + 2 ^ fuel) + 1 = low + 2 ^ fuel := by
  induction fuel generalizing low with
  | zero => rfl
  | succ fuel ih =>
    have hpos : 0 < 2 ^ fuel := Nat.two_pow_pos fuel
    have hmid : (low + (low + 2 ^ (fuel + 1)) + 1) / 2 = low + 2 ^ fuel := by
      rw [Nat.pow_succ]
      omega
    have hhigh : low + 2 ^ (fuel + 1) = low + 2 ^ fuel + 2 ^ fuel := by
      rw [Nat.pow_succ]
      omega
    rw [searchEpoch, if_neg (by omega)]
    simp only
    rw [hmid, if_pos (h _), hhigh]
    exact ih

variable {AccountId : Type} [DecidableEq AccountId] {cfg : Config AccountId}
  {s s' s₁ s₂ : State cfg} {who : AccountId} {p q : ℕ} {old new : LockedBalance}

/-! What becomes of a position. -/

/-- Points are added at the current block, and the lock ends in the past as much as before. -/
structure Grows (q : ℕ) (s s' : State cfg) : Prop where
  owner : s'.positionOwner q = s.positionOwner q
  epoch : s.userPointEpoch q ≤ s'.userPointEpoch q
  points : ∀ e, e ≤ s.userPointEpoch q → s'.userPointHistory q e = s.userPointHistory q e
  newer : ∀ e, s.userPointEpoch q < e → e ≤ s'.userPointEpoch q →
    (s'.userPointHistory q e).block = s.blockNumber
  ends : ∀ b, b < s.blockNumber →
    ((s'.locked q).endBlock ≤ b ↔ (s.locked q).endBlock ≤ b)

/-- Points that are written are of the current block, and none is written at epoch zero. -/
structure Dates (s s' : State cfg) : Prop where
  blockNumber : s'.blockNumber = s.blockNumber
  point : ∀ q e, s'.userPointHistory q e = s.userPointHistory q e ∨
    0 < e ∧ (s'.userPointHistory q e).block = s.blockNumber

structure Evolves (s s' : State cfg) : Prop where
  dates : Dates s s'
  position : s.position ≤ s'.position
  kept : ∀ q, q < s.position → s'.positionOwner q = none ∨ Grows q s s'

theorem Dates.refl (s : State cfg) : Dates s s := ⟨rfl, fun _ _ => Or.inl rfl⟩

theorem Dates.trans (h : Dates s s₁) (h' : Dates s₁ s₂) : Dates s s₂ := by
  refine ⟨h'.blockNumber.trans h.blockNumber, fun q e => ?_⟩
  rcases h'.point q e with hsame | ⟨hpos, hblock⟩
  · rw [hsame]
    exact h.point q e
  · exact Or.inr ⟨hpos, hblock.trans h.blockNumber⟩

theorem Grows.refl (q : ℕ) (s : State cfg) : Grows q s s :=
  ⟨rfl, Nat.le_refl _, fun _ _ => rfl, fun _ hlt hle => absurd hle (Nat.not_le.mpr hlt),
    fun _ _ => Iff.rfl⟩

theorem Grows.trans (h : Grows q s s₁) (h' : Grows q s₁ s₂)
    (hblock : s₁.blockNumber = s.blockNumber) : Grows q s s₂ where
  owner := h'.owner.trans h.owner
  epoch := h.epoch.trans h'.epoch
  points := by
    intro e he
    rw [h'.points e (he.trans h.epoch), h.points e he]
  newer := by
    intro e hlt hle
    rcases Nat.lt_or_ge (s₁.userPointEpoch q) e with hnew | hold
    · exact (h'.newer e hnew hle).trans hblock
    · rw [h'.points e hold]
      exact h.newer e hlt hold
  ends := by
    intro b hb
    rw [h'.ends b (hblock ▸ hb), h.ends b hb]

theorem Evolves.refl (s : State cfg) : Evolves s s :=
  ⟨.refl s, Nat.le_refl _, fun q _ => Or.inr (.refl q s)⟩

theorem Evolves.trans (h : Evolves s s₁) (h' : Evolves s₁ s₂) : Evolves s s₂ := by
  refine ⟨h.dates.trans h'.dates, h.position.trans h'.position, fun q hq => ?_⟩
  rcases h'.kept q (hq.trans_le h.position) with hnone | hgrows'
  · exact Or.inl hnone
  · rcases h.kept q hq with hnone | hgrows
    · exact Or.inl (hgrows'.owner.trans hnone)
    · exact Or.inr (hgrows.trans hgrows' h.dates.blockNumber)

/-- Neither points nor locks nor owners change. -/
structure SameHistory (s s' : State cfg) : Prop where
  blockNumber : s'.blockNumber = s.blockNumber
  position : s'.position = s.position
  owner : s'.positionOwner = s.positionOwner
  epoch : s'.userPointEpoch = s.userPointEpoch
  points : s'.userPointHistory = s.userPointHistory
  locked : s'.locked = s.locked

theorem SameHistory.dates (h : SameHistory s s') : Dates s s' :=
  ⟨h.blockNumber, fun q e => Or.inl (congrFun (congrFun h.points q) e)⟩

theorem SameHistory.grows (h : SameHistory s s') (q : ℕ) : Grows q s s' where
  owner := congrFun h.owner q
  epoch := (congrFun h.epoch q).ge
  points := fun e _ => congrFun (congrFun h.points q) e
  newer := by
    intro e hlt hle
    rw [h.epoch] at hle
    exact absurd hle (Nat.not_le.mpr hlt)
  ends := by
    intro b _
    rw [h.locked]

theorem SameHistory.evolves (h : SameHistory s s') : Evolves s s' :=
  ⟨h.dates, h.position.ge, fun q _ => Or.inr (h.grows q)⟩

theorem RewardCall.sameHistory (h : RewardCall s s') : SameHistory s s' := by
  obtain ⟨_, _, _, _, _, _, -, rfl⟩ := h
  exact ⟨rfl, rfl, rfl, rfl, rfl, rfl⟩

theorem OutsideOnly.sameHistory (h : OutsideOnly s s') : SameHistory s s' :=
  h.rewardCall.sameHistory

theorem recorded_sameHistory (s : State cfg) (p unlockTime : ℕ) :
    SameHistory s (s.recorded p unlockTime) :=
  ⟨rfl, rfl, rfl, rfl, rfl, rfl⟩

theorem removeExpiring_sameHistory (s : State cfg) (p unlockTime : ℕ) :
    SameHistory s (removeExpiringPosition s p unlockTime) :=
  ⟨rfl, rfl, rfl, rfl, rfl, rfl⟩

theorem remarked_sameHistory (s : State cfg) (currency : CurrencyId) (who : AccountId)
    (token : Option LockedToken) (total : ℕ) (ledger : cfg.currencies.Ledger)
    (info : UserMarkupInfo) :
    SameHistory s (s.remarked currency who token total ledger info) :=
  ⟨rfl, rfl, rfl, rfl, rfl, rfl⟩

theorem touched_sameHistory (s : State cfg) (currency : CurrencyId)
    (coefficient : MarkupCoefficientInfo) : SameHistory s (s.touched currency coefficient) :=
  ⟨rfl, rfl, rfl, rfl, rfl, rfl⟩

/-! A checkpoint. -/

theorem recordUserPoint_dates (s : State cfg) (p : ℕ) (point : Point)
    (hblock : point.block = s.blockNumber) : Dates s (s.recordUserPoint p point) := by
  refine ⟨rfl, fun q e => ?_⟩
  simp only [State.recordUserPoint, Function.update_apply]
  split
  · rename_i hq
    subst q
    rw [Function.update_apply]
    split
    · rename_i he
      subst e
      exact Or.inr ⟨Nat.succ_pos _, hblock⟩
    · exact Or.inl rfl
  · exact Or.inl rfl

theorem recordUserPoint_grows (s : State cfg) (p : ℕ) (point : Point)
    (hblock : point.block = s.blockNumber) (q : ℕ) : Grows q s (s.recordUserPoint p point) := by
  by_cases hq : q = p
  · subst q
    constructor
    · rfl
    · simp [State.recordUserPoint]
    · intro e he
      simp only [State.recordUserPoint, Function.update_self]
      exact Function.update_of_ne (by omega) _ _
    · intro e hlt hle
      simp only [State.recordUserPoint, Function.update_self] at hle ⊢
      have he : e = s.userPointEpoch p + 1 := by omega
      rw [he, Function.update_self, hblock]
    · exact fun _ _ => Iff.rfl
  · constructor
    · rfl
    · simp [State.recordUserPoint, Function.update_of_ne hq]
    · intro e _
      simp only [State.recordUserPoint, Function.update_of_ne hq]
    · intro e hlt hle
      simp only [State.recordUserPoint, Function.update_of_ne hq] at hle
      omega
    · exact fun _ _ => Iff.rfl

theorem checkpoint_records (h : checkpoint s who p old new = .ok s') :
    ∃ t point, SameHistory s t ∧ point.block = t.blockNumber ∧ s' = t.recordUserPoint p point := by
  obtain ⟨s₁, hupdate, hmove⟩ := checkpoint_ok h
  obtain ⟨_, _, _, _, rfl⟩ := updateReward_rewardsOnly hupdate
  obtain ⟨uOld, uNew, moved, changes, -, -, hmoved, -, rfl⟩ := movePoints_ok hmove
  obtain ⟨t, walked, point, -, -, -, rfl⟩ := moveGlobal_ok hmoved
  refine ⟨_, _, ?_, ?_, rfl⟩
  · exact ⟨rfl, rfl, rfl, rfl, rfl, rfl⟩
  · rfl

theorem checkpoint_dates (h : checkpoint s who p old new = .ok s') : Dates s s' := by
  obtain ⟨t, point, hsame, hblock, rfl⟩ := checkpoint_records h
  exact hsame.dates.trans (recordUserPoint_dates t p point hblock)

theorem checkpoint_grows (h : checkpoint s who p old new = .ok s') (q : ℕ) : Grows q s s' := by
  obtain ⟨t, point, hsame, hblock, rfl⟩ := checkpoint_records h
  exact (hsame.grows q).trans (recordUserPoint_grows t p point hblock q) hsame.blockNumber

theorem checkpoint_evolves (h : checkpoint s who p old new = .ok s') : Evolves s s' :=
  ⟨checkpoint_dates h, (checkpoint_recordsOnly h).sameLocks.position.ge,
    fun q _ => Or.inr (checkpoint_grows h q)⟩

/-! Deposits and withdrawals. -/

theorem relocked_grows {locked : LockedBalance} (hsame : SameHistory s { s' with locked := s.locked })
    (hlocked : s'.locked = Function.update s.locked p locked)
    (hends : q = p → ∀ b, b < s.blockNumber →
      (locked.endBlock ≤ b ↔ (s.locked p).endBlock ≤ b)) : Grows q s s' := by
  have hgrows := hsame.grows q
  refine ⟨hgrows.owner, hgrows.epoch, hgrows.points, hgrows.newer, fun b hb => ?_⟩
  rw [hlocked]
  by_cases hq : q = p
  · subst q
    rw [Function.update_self]
    exact hends rfl b hb
  · rw [Function.update_of_ne hq]

theorem deposits_dates {value : ℕ} (h : Deposits s who p value old new s') : Dates s s' := by
  obtain ⟨-, ledger, s₁, -, -, -, hmark, houtside⟩ := h
  have hmore : Dates s (s.lockMore who p value new ledger) := ⟨rfl, fun _ _ => Or.inl rfl⟩
  exact (hmore.trans (checkpoint_dates (markupCalc_ok hmark))).trans houtside.sameHistory.dates

theorem deposits_grows {value : ℕ} (h : Deposits s who p value old new s')
    (hends : q = p → ∀ b, b < s.blockNumber → (new.endBlock ≤ b ↔ (s.locked p).endBlock ≤ b)) :
    Grows q s s' := by
  obtain ⟨-, ledger, s₁, -, -, -, hmark, houtside⟩ := h
  have hmore : Grows q s (s.lockMore who p value new ledger) :=
    relocked_grows ⟨rfl, rfl, rfl, rfl, rfl, rfl⟩ rfl hends
  have hcheck := checkpoint_grows (markupCalc_ok hmark) q
  have hblock : s₁.blockNumber = s.blockNumber :=
    (checkpoint_dates (markupCalc_ok hmark)).blockNumber
  have hlocked : Grows q s s₁ := hmore.trans hcheck rfl
  exact hlocked.trans (houtside.sameHistory.grows q) hblock

theorem deposits_position {value : ℕ}
    (h : Deposits s who p value old new s') : s'.position = s.position := by
  obtain ⟨-, ledger, s₁, -, -, -, hmark, houtside⟩ := h
  exact houtside.sameHistory.position.trans (markupCalc_recordsOnly hmark).sameLocks.position

theorem deposits_evolves {value : ℕ} (h : Deposits s who p value old new s')
    (hends : ∀ b, b < s.blockNumber → (new.endBlock ≤ b ↔ (s.locked p).endBlock ≤ b)) :
    Evolves s s' :=
  ⟨deposits_dates h, (deposits_position h).ge,
    fun _ _ => Or.inr (deposits_grows h fun _ => hends)⟩

theorem removed_grows (hq : q ≠ p) : Grows q s (s.removed who p) := by
  have hlocked : (s.removed who p).locked q = s.locked q := setLocked_off rfl q hq
  have hepoch : (s.removed who p).userPointEpoch q = s.userPointEpoch q :=
    Function.update_of_ne hq _ _
  refine ⟨Function.update_of_ne hq _ _, hepoch.ge, fun _ _ => rfl, ?_, ?_⟩
  · intro e hlt hle
    rw [hepoch] at hle
    omega
  · intro b _
    rw [hlocked]

theorem withdrawNoEnsure_evolves {locked : LockedBalance} {ifFast : Option FixedU128}
    (h : withdrawNoEnsure s who p locked ifFast = .ok s') : Evolves s s' := by
  obtain ⟨-, -, ledger, s₁, s₂, s₃, -, hpay, hcheck, hrefresh, hremove⟩ := withdrawNoEnsure_ok h
  obtain ⟨-, rfl⟩ := removePosition_ok hremove
  have hrefreshed := (refreshGaugePool_outsideOnly hrefresh).sameHistory
  have hless : Dates s (s.lockLess who p locked.amount ledger) := ⟨rfl, fun _ _ => Or.inl rfl⟩
  have hremoved : Dates s₃ (s₃.removed who p) := ⟨rfl, fun _ _ => Or.inl rfl⟩
  have h₁ : Dates s s₁ := hless.trans hpay.sameHistory.dates
  have h₂ : Dates s s₂ := h₁.trans (checkpoint_dates hcheck)
  have h₃ : Dates s s₃ := h₂.trans hrefreshed.dates
  refine ⟨h₃.trans hremoved, ?_, fun q _ => ?_⟩
  · have hposition : s₃.position = s₁.position :=
      hrefreshed.position.trans (checkpoint_recordsOnly hcheck).sameLocks.position
    exact (hposition.trans hpay.sameHistory.position).ge
  · by_cases hq : q = p
    · subst q
      exact Or.inl (Function.update_self ..)
    · have hrelocked : Grows q s (s.lockLess who p locked.amount ledger) :=
        relocked_grows ⟨rfl, rfl, rfl, rfl, rfl, rfl⟩ rfl fun heq => absurd heq hq
      have hpaid : Grows q s s₁ := hrelocked.trans (hpay.sameHistory.grows q) rfl
      have hchecked : Grows q s s₂ := hpaid.trans (checkpoint_grows hcheck q) h₁.blockNumber
      have hkept : Grows q s s₃ := hchecked.trans (hrefreshed.grows q) h₂.blockNumber
      exact Or.inr (hkept.trans (removed_grows hq) h₃.blockNumber)

theorem created_grows (hq : q < s.position) : Grows q s (s.created who) := by
  have hne : q ≠ s.position := Nat.ne_of_lt hq
  have hlocked : (s.created who).locked q = s.locked q := setLocked_off rfl q hne
  refine ⟨Function.update_of_ne hne _ _, Nat.le_refl _, fun _ _ => rfl, ?_, ?_⟩
  · exact fun e hlt hle => absurd hle (Nat.not_le.mpr hlt)
  · intro b _
    rw [hlocked]

theorem remarkPositions_evolves {info : UserMarkupInfo}
    (h : remarkPositions s who info = .ok s') : Evolves s s' :=
  foldlM_rel (R := Evolves) .refl .trans
    (fun _ _ _ h => checkpoint_evolves (remarkPosition_ok h).2) h

theorem refreshInner_evolves {currency : CurrencyId} (h : refreshInner s currency = .ok s') :
    Evolves s s' := by
  obtain ⟨coefficient, -, hfold⟩ := refreshInner_ok h
  refine foldlM_rel (R := Evolves) .refl .trans ?_ hfold
  intro t e t' h
  obtain ⟨info, new, -, -, hmark⟩ := refreshAccount_ok h
  exact (remarked_sameHistory ..).evolves.trans (remarkPositions_evolves hmark)

theorem keptBySweep_evolves : KeptBySweep fun t : State cfg => Evolves s t where
  withdraw := fun ht _ _ _ h => ht.trans (withdrawNoEnsure_evolves h)
  schedule := fun _ _ ht => ht.trans (SameHistory.evolves ⟨rfl, rfl, rfl, rfl, rfl, rfl⟩)

/-- The block of a call: the hook begins the next one. -/
def State.callBlock (s : State cfg) : Call cfg → State cfg
  | .onInitialize => { s with blockNumber := s.blockNumber + 1 }
  | _ => s

theorem step_evolves {c : Call cfg} (hs : EndsWeekly s) (h : step s c = .ok s') :
    Evolves (s.callBlock c) s' := by
  cases c with
  | createLock who value time =>
    obtain ⟨endBlock, -, hdeposit⟩ := createLockInner_ok h
    have hcreated : Dates s ((s.created who).recorded s.position endBlock) :=
      ⟨rfl, fun _ _ => Or.inl rfl⟩
    refine ⟨hcreated.trans (deposits_dates hdeposit), ?_, fun q hq => Or.inr ?_⟩
    · rw [deposits_position hdeposit]
      exact Nat.le_succ _
    · have hrecorded : Grows q s ((s.created who).recorded s.position endBlock) :=
        (created_grows hq).trans ((recorded_sameHistory ..).grows q) rfl
      have hne : q ≠ s.position := Nat.ne_of_lt hq
      exact hrecorded.trans (deposits_grows hdeposit fun heq => absurd heq hne) rfl
  | increaseAmount who p value =>
    exact deposits_evolves (increaseAmountInner_ok (ownPosition_ok h).2).2.2 fun _ _ => Iff.rfl
  | increaseUnlockTime who p time =>
    obtain ⟨endBlock, -, hlater, -, hlive, hdeposit⟩ :=
      increaseUnlockTimeInner_ok (ownPosition_ok h).2
    have hsame := (removeExpiring_sameHistory s p (s.locked p).endBlock).evolves.trans
      (recorded_sameHistory _ p endBlock).evolves
    refine hsame.trans (deposits_evolves hdeposit fun b hb => ?_)
    have hb : b < s.blockNumber := hb
    change endBlock ≤ b ↔ (s.locked p).endBlock ≤ b
    rw [Nat.min_eq_left (hs p).2] at hlater
    omega
  | withdraw who p =>
    have hsame := (removeExpiring_sameHistory s p (s.locked p).endBlock).evolves
    exact hsame.trans (withdrawNoEnsure_evolves (withdrawInner_ok (ownPosition_ok h).2).2)
  | redeemUnlock who p =>
    obtain ⟨-, fast, h⟩ := redeemUnlockInner_ok (ownPosition_ok h).2
    have hsame := (removeExpiring_sameHistory s p (s.locked p).endBlock).evolves
    exact hsame.trans (withdrawNoEnsure_evolves h)
  | depositMarkup who currency value =>
    obtain ⟨coefficient, new, ledger, s₁, -, -, -, -, -, hmark, rfl⟩ := depositMarkupInner_ok h
    have hremarked := (remarked_sameHistory ..).evolves.trans (remarkPositions_evolves hmark)
    exact hremarked.trans (touched_sameHistory ..).evolves
  | withdrawMarkup who currency =>
    obtain ⟨coefficient, token, ledger, -, -, -, -, hmark⟩ := withdrawMarkupInner_ok h
    have hremarked := (remarked_sameHistory ..).evolves.trans (remarkPositions_evolves hmark)
    exact (touched_sameHistory ..).evolves.trans hremarked
  | refresh currency => exact refreshInner_evolves h
  | onInitialize =>
    cases h
    apply keptBySweep_evolves.withdrawExpired
    exact (notifyOnBlock_rewardCall _).sameHistory.evolves
  | setMarkupCoefficient =>
    cases h
    exact SameHistory.evolves ⟨rfl, rfl, rfl, rfl, rfl, rfl⟩
  | setConfig | notifyRewards | getRewards | getGaugeRewards | pay | issue | burn | elsewhere =>
    obtain ⟨_, hcall⟩ := step_rewards (by simp [Call.MovesLocks]) (by simp [Call.Marks]) h
    have hsame := hcall.sameHistory
    exact SameHistory.evolves ⟨hsame.blockNumber, hsame.position, hsame.owner, hsame.epoch,
      hsame.points, hsame.locked⟩

/-! Runs. -/

/-- No point is of a later block, and there is none at epoch zero. -/
structure PointsPast (s : State cfg) : Prop where
  first : ∀ q, s.userPointHistory q 0 = .zero
  past : ∀ q e, (s.userPointHistory q e).block ≤ s.blockNumber

theorem Dates.pointsPast (h : Dates s s') (hs : PointsPast s) : PointsPast s' := by
  constructor
  · intro q
    rcases h.point q 0 with hsame | ⟨hpos, -⟩
    · exact hsame.trans (hs.first q)
    · exact absurd hpos (Nat.lt_irrefl 0)
  · intro q e
    rw [h.blockNumber]
    rcases h.point q e with hsame | ⟨-, hblock⟩
    · rw [hsame]
      exact hs.past q e
    · exact hblock.le

theorem callBlock_pointsPast {c : Call cfg} (hs : PointsPast s) : PointsPast (s.callBlock c) := by
  cases c with
  | onInitialize => exact ⟨hs.first, fun q e => (hs.past q e).trans (Nat.le_succ _)⟩
  | _ => exact hs

/-- What is needed of a state, and holds in every one that is reached. -/
structure Dated (s : State cfg) : Prop where
  endsWeekly : EndsWeekly s
  booked : Booked s
  pointsOwned : PointsOwned s
  pointsPast : PointsPast s

theorem step_dated {c : Call cfg} (hs : Dated s) (h : step s c = .ok s') : Dated s' :=
  ⟨step_endsWeekly hs.endsWeekly h, step_booked hs.booked h,
    step_pointsOwned hs.pointsOwned hs.booked h,
    (step_evolves hs.endsWeekly h).dates.pointsPast (callBlock_pointsPast hs.pointsPast)⟩

theorem genesis_dated (accounts : Unlocked cfg) (outside : cfg.Outside) (n : ℕ) :
    Dated (genesis cfg accounts outside n) :=
  ⟨fun _ => ⟨dvd_zero _, Nat.zero_le _⟩, genesis_booked accounts outside n, fun _ _ => rfl,
    ⟨fun _ => rfl, fun _ _ => Nat.zero_le _⟩⟩

theorem run_dated (accounts : Unlocked cfg) (outside : cfg.Outside) (n : ℕ)
    (calls : List (Call cfg)) : Dated (run step (genesis cfg accounts outside n) calls) :=
  run_invariant (I := Dated) (fun _ _ _ hs _ h => step_dated hs h) calls
    (genesis_dated accounts outside n) (meets_true _ _)

/-- What a later block still knows of a position at the end of the block of `s`. -/
structure Recalls (q : ℕ) (s t : State cfg) : Prop where
  owner : t.positionOwner q = s.positionOwner q
  epoch : s.userPointEpoch q ≤ t.userPointEpoch q
  points : ∀ e, e ≤ s.userPointEpoch q → t.userPointHistory q e = s.userPointHistory q e
  newer : ∀ e, s.userPointEpoch q < e → e ≤ t.userPointEpoch q →
    s.blockNumber < (t.userPointHistory q e).block
  ends : (t.locked q).endBlock ≤ s.blockNumber ↔ (s.locked q).endBlock ≤ s.blockNumber

structure Remembers (s t : State cfg) : Prop where
  later : s.blockNumber < t.blockNumber
  position : s.position ≤ t.position
  kept : ∀ q, q < s.position → t.positionOwner q = none ∨ Recalls q s t

theorem Recalls.grows {t t' : State cfg} (hlater : s.blockNumber < t.blockNumber)
    (h : Recalls q s t) (h' : Grows q t t') : Recalls q s t' where
  owner := h'.owner.trans h.owner
  epoch := h.epoch.trans h'.epoch
  points := by
    intro e he
    rw [h'.points e (he.trans h.epoch), h.points e he]
  newer := by
    intro e hlt hle
    rcases Nat.lt_or_ge (t.userPointEpoch q) e with hnew | hold
    · rw [h'.newer e hnew hle]
      exact hlater
    · rw [h'.points e hold]
      exact h.newer e hlt hold
  ends := (h'.ends _ hlater).trans h.ends

theorem Remembers.evolves {t t' : State cfg} (h : Remembers s t) (h' : Evolves t t') :
    Remembers s t' := by
  refine ⟨h'.dates.blockNumber ▸ h.later, h.position.trans h'.position, fun q hq => ?_⟩
  rcases h'.kept q (hq.trans_le h.position) with hnone | hgrows
  · exact Or.inl hnone
  · rcases h.kept q hq with hnone | hrecalls
    · exact Or.inl (hgrows.owner.trans hnone)
    · exact Or.inr (hrecalls.grows h.later hgrows)

theorem Remembers.callBlock {t : State cfg} (h : Remembers s t) (c : Call cfg) :
    Remembers s (t.callBlock c) := by
  cases c with
  | onInitialize =>
    refine ⟨h.later.trans (Nat.lt_succ_self _), h.position, fun q hq => ?_⟩
    exact (h.kept q hq).imp id fun hq => ⟨hq.owner, hq.epoch, hq.points, hq.newer, hq.ends⟩
  | _ => exact h

theorem remembers_next (s : State cfg) : Remembers s (s.callBlock .onInitialize) := by
  refine ⟨Nat.lt_succ_self _, Nat.le_refl _, fun q _ => Or.inr ⟨rfl, ?_, ?_, ?_, ?_⟩⟩
  · exact Nat.le_refl _
  · exact fun _ _ => rfl
  · exact fun e hlt hle => absurd hle (Nat.not_le.mpr hlt)
  · exact Iff.rfl

theorem run_remembers (hs : Dated s) (later : List (Call cfg)) :
    Remembers s (run step s (.onInitialize :: later)) ∧
      Dated (run step s (.onInitialize :: later)) := by
  have hnext : step s (.onInitialize : Call cfg) = .ok (onInitialize s) := rfl
  rw [run_cons, exec_ok hnext]
  refine run_invariant (I := fun t => Remembers s t ∧ Dated t) ?_ later ?_ (meets_true _ _)
  · rintro t c t' ⟨ht, hdated⟩ - h
    exact ⟨(ht.callBlock c).evolves (step_evolves hdated.endsWeekly h), step_dated hdated h⟩
  · exact ⟨(remembers_next s).evolves (step_evolves hs.endsWeekly hnext), step_dated hs hnext⟩

/-- Whatever comes after a block, a position keeps the points it had at its end and gets only later
ones, until it is withdrawn. -/
theorem history_append_only (accounts : Unlocked cfg) (outside : cfg.Outside) (n : ℕ)
    (calls later : List (Call cfg)) (p : ℕ) :
    let s := run step (genesis cfg accounts outside n) calls
    let t := run step s (.onInitialize :: later)
    s.position ≤ p ∨ t.positionOwner p = none ∨
      s.userPointEpoch p ≤ t.userPointEpoch p ∧
      (∀ e ≤ s.userPointEpoch p, t.userPointHistory p e = s.userPointHistory p e) ∧
      ∀ e, s.userPointEpoch p < e → e ≤ t.userPointEpoch p →
        s.blockNumber < (t.userPointHistory p e).block := by
  intro s t
  obtain ⟨hremembers, -⟩ := run_remembers (run_dated accounts outside n calls) later
  rcases Nat.lt_or_ge p s.position with hp | hp
  · exact .inr ((hremembers.kept p hp).imp_right fun h => ⟨h.epoch, h.points, h.newer⟩)
  · exact .inl hp

/-! Balances. -/

theorem powerAt_zero (cfg : Config AccountId) (block : ℕ) :
    Point.zero.powerAt cfg block = .ok 0 := by
  have hfallen : I128.checkedMul 0 ((block : ℤ) - (0 : ℕ)) = some 0 := by
    rw [I128.checkedMul, zero_mul]
    rfl
  have hweight : cfg.voteWeightMultiplier.checkedMulInt 0 = some 0 := by
    simp [FixedU128.checkedMulInt, FixedU128.accuracy]
  have hpower : votingPower cfg 0 0 = .ok 0 := by
    simp only [votingPower, Int.toNat_zero, hweight]
    rfl
  simp only [Point.powerAt, Point.zero, hfallen]
  exact hpower

theorem balanceOfPositionAt_eq {block last : ℕ} (hle : last ≤ s.userPointEpoch p)
    (hfew : s.userPointEpoch p < 2 ^ 128)
    (hbefore : ∀ e, e ≤ last → (s.userPointHistory p e).block ≤ block)
    (hafter : ∀ e, last < e → e ≤ s.userPointEpoch p → block < (s.userPointHistory p e).block) :
    balanceOfPositionAt s p block =
      if (s.locked p).endBlock ≤ block then .ok 0
      else (s.userPointHistory p last).powerAt cfg block := by
  have hfound : searchEpoch (s.userPointHistory p) block 128 0 (s.userPointEpoch p) = last :=
    searchEpoch_eq (Nat.zero_le _) hle hfew (fun e _ => hbefore e) hafter
  simp only [balanceOfPositionAt, hfound]
  rfl

theorem balanceOfPositionCurrentBlock_eq (hs : Dated s) (p : ℕ) :
    balanceOfPositionCurrentBlock s p =
      if (s.locked p).endBlock ≤ s.blockNumber then .ok 0
      else (s.lastUserPoint p).powerAt cfg s.blockNumber := by
  unfold balanceOfPositionCurrentBlock
  by_cases hzero : s.userPointEpoch p = 0
  · have hblank : s.lastUserPoint p = .zero := by
      rw [State.lastUserPoint, hzero]
      exact hs.pointsPast.first p
    rw [if_pos hzero, hblank, powerAt_zero]
    rfl
  · rw [if_neg hzero]
    rfl

theorem balanceOfPositionAt_unowned (hs : Dated s) (howner : s.positionOwner p = none) (b : ℕ) :
    balanceOfPositionAt s p b = .ok 0 := by
  have hepoch : s.userPointEpoch p = 0 := hs.pointsOwned p howner
  rw [balanceOfPositionAt_eq (Nat.zero_le _)]
  · rw [hs.pointsPast.first, powerAt_zero, ite_self]
  · rw [hepoch]
    exact Nat.two_pow_pos 128
  · intro e he
    rw [Nat.le_zero.mp he, hs.pointsPast.first]
    exact Nat.zero_le b
  · intro e hlt hle
    omega

theorem balanceOfPositionAt_now (hs : Dated s) (hfew : s.userPointEpoch p < 2 ^ 128) :
    balanceOfPositionAt s p s.blockNumber = balanceOfPositionCurrentBlock s p := by
  rw [balanceOfPositionCurrentBlock_eq hs, balanceOfPositionAt_eq (Nat.le_refl _) hfew]
  · rfl
  · exact fun e _ => hs.pointsPast.past p e
  · exact fun e hlt hle => absurd hle (Nat.not_le.mpr hlt)

/-- With one point more than 128 rounds can halve, the last one is not found. -/
theorem balanceOfPositionAt_short (hs : Dated s) (hmany : s.userPointEpoch p = 2 ^ 128)
    (hlive : s.blockNumber < (s.locked p).endBlock) :
    balanceOfPositionAt s p s.blockNumber =
      (s.userPointHistory p (2 ^ 128 - 1)).powerAt cfg s.blockNumber := by
  have hshort := @searchEpoch_short _ _ 128 0 (hs.pointsPast.past p)
  rw [Nat.zero_add, ← hmany] at hshort
  have hfound : searchEpoch (s.userPointHistory p) s.blockNumber 128 0 (s.userPointEpoch p) =
      2 ^ 128 - 1 := by
    rw [← hmany]
    exact Nat.eq_sub_of_add_eq hshort
  simp only [balanceOfPositionAt, hfound]
  rw [if_neg (Nat.not_le.mpr hlive)]

theorem Recalls.balance {t : State cfg} (hs : Dated s) (h : Recalls p s t)
    (hfew : t.userPointEpoch p < 2 ^ 128) :
    balanceOfPositionAt t p s.blockNumber = balanceOfPositionCurrentBlock s p := by
  rw [balanceOfPositionCurrentBlock_eq hs, balanceOfPositionAt_eq h.epoch hfew _ h.newer,
    h.points _ (Nat.le_refl _)]
  · simp only [h.ends]
    rfl
  · intro e he
    rw [h.points e he]
    exact hs.pointsPast.past p e

/-- The balance at the current block is the current one; that at a past block is the one of its
end, unless the position was withdrawn since, when it weighs nothing at any block. -/
theorem balances_agree (accounts : Unlocked cfg) (outside : cfg.Outside) (n : ℕ)
    (calls later : List (Call cfg)) (p : ℕ) :
    let s := run step (genesis cfg accounts outside n) calls
    let s' := run step s (.onInitialize :: later)
    (s.userPointEpoch p < 2 ^ 128 →
      balanceOfPositionAt s p s.blockNumber = balanceOfPositionCurrentBlock s p) ∧
    (s'.positionOwner p = s.positionOwner p → s'.userPointEpoch p < 2 ^ 128 →
      balanceOfPositionAt s' p s.blockNumber = balanceOfPositionCurrentBlock s p) ∧
    (s'.positionOwner p = none → ∀ b, balanceOfPositionAt s' p b = .ok 0) := by
  intro s s'
  have hs : Dated s := run_dated accounts outside n calls
  obtain ⟨hremembers, hs'⟩ : Remembers s s' ∧ Dated s' := run_remembers hs later
  refine ⟨balanceOfPositionAt_now hs, fun howner hfew => ?_, balanceOfPositionAt_unowned hs'⟩
  cases hsome : s.positionOwner p with
  | none =>
    rw [balanceOfPositionAt_unowned hs' (howner.trans hsome),
      balanceOfPosition_blank (hs.pointsOwned p hsome)]
  | some who =>
    rcases hremembers.kept p (hs.booked.owned_lt hsome) with hnone | hrecalls
    · rw [hnone, hsome] at howner
      cases howner
    · exact hrecalls.balance hs hfew

namespace Sample

/-- A position, and the next block in which it is added to. -/
def growing : List (Call config) × List (Call config) :=
  ([.createLock 1 400 12], [.increaseAmount 1 0 400])

end Sample

theorem balances_agree_growing :
    balanceOfPositionAt (run step (run step Sample.start Sample.growing.1)
      (.onInitialize :: Sample.growing.2)) 0 1 =
      balanceOfPositionCurrentBlock (run step Sample.start Sample.growing.1) 0 :=
  (@balances_agree ℕ _ Sample.config Sample.wealth () 1 Sample.growing.1 Sample.growing.2 0).2.1
    (by decide +kernel) (by decide +kernel)

/-- A position that is redeemed weighs nothing any more at the block before. -/
theorem redeemed_forgotten :
    (balanceOfPositionCurrentBlock (run step Sample.start [.createLock 1 400 12]) 0).toOption =
        some 242 ∧
      balanceOfPositionAt (run step (run step Sample.start [.createLock 1 400 12])
        [.onInitialize, .redeemUnlock 1 0]) 0 1 = .ok 0 := by
  decide +kernel

end Bifrost.BbBnc
