import Bifrost.BbBnc.Locks

/-!
# The schedule of expiring positions

A position with something locked is recorded at the end of its lock, and the cursor of the hook
has not passed it. The hook keeps this when it withdraws everything that is due (`withdrawAll`):
when its limit does not end it in the middle and no withdrawal fails.
-/

namespace Bifrost.BbBnc

open Result Machine
set_option autoImplicit false

variable {AccountId : Type} [DecidableEq AccountId] {cfg : Config AccountId}
  {s s' s₁ : State cfg} {who : AccountId} {p : ℕ}

/-! What the hook is for: the positions that are due, one after the other. -/

def autoWithdraw (s : State cfg) (p : ℕ) : Except Fault (State cfg) :=
  if (s.locked p).endBlock ≤ s.blockNumber ∧ (s.locked p).amount ≠ 0 then
    match s.positionOwner p with
    | some owner => withdrawNoEnsure s owner p (s.locked p) none
    | none => pure s
  else pure s

def withdrawBlock (s : State cfg) (block : ℕ) : Except Fault (State cfg) := do
  let s ← (s.expiringPositions block).foldlM autoWithdraw s
  pure { s with expiringPositions := Function.update s.expiringPositions block [] }

def State.dueBlocks (s : State cfg) : List ℕ :=
  if s.nextExpiringBlock = 0 then []
  else List.range' s.nextExpiringBlock (s.blockNumber + 1 - s.nextExpiringBlock)

def withdrawAll (s : State cfg) : Except Fault (State cfg) :=
  s.dueBlocks.foldlM withdrawBlock s

def State.recordedIn (s : State cfg) (blocks : List ℕ) : ℕ :=
  (blocks.map fun block => (s.expiringPositions block).length).sum

def WithdrawsAll (s : State cfg) : Prop :=
  s.recordedIn s.dueBlocks ≤ s.bbConfig.maxPositionsPerBlock ∧ (withdrawAll s).toBool = true

instance (s : State cfg) : Decidable (WithdrawsAll s) := inferInstanceAs (Decidable (_ ∧ _))

/-- The state in which the loops of the hook begin. -/
def State.nextBlock (s : State cfg) : State cfg :=
  notifyOnBlock { s with blockNumber := s.blockNumber + 1 }

def KeepsSchedule (s : State cfg) : Call cfg → Prop
  | .onInitialize => WithdrawsAll s.nextBlock
  | _ => True

instance (s : State cfg) : ∀ c : Call cfg, Decidable (KeepsSchedule s c)
  | .onInitialize => inferInstanceAs (Decidable (WithdrawsAll s.nextBlock))
  | .setConfig .. | .createLock .. | .increaseAmount .. | .increaseUnlockTime .. | .withdraw ..
  | .notifyRewards .. | .getRewards .. | .getGaugeRewards .. | .redeemUnlock ..
  | .setMarkupCoefficient .. | .depositMarkup .. | .withdrawMarkup .. | .refresh .. | .pay ..
  | .issue .. | .burn .. | .elsewhere .. => .isTrue trivial

/-! Positions come to an end one at a time. -/

/-- What is still locked is locked as before. -/
structure Withdrawn (s s' : State cfg) : Prop where
  blockNumber : s'.blockNumber = s.blockNumber
  expiringPositions : s'.expiringPositions = s.expiringPositions
  nextExpiringBlock : s'.nextExpiringBlock = s.nextExpiringBlock
  locked : ∀ q, 0 < (s'.locked q).amount → s'.locked q = s.locked q
  owner : ∀ q, 0 < (s'.locked q).amount → s'.positionOwner q = s.positionOwner q

theorem Withdrawn.refl (s : State cfg) : Withdrawn s s :=
  ⟨rfl, rfl, rfl, fun _ _ => rfl, fun _ _ => rfl⟩

theorem Withdrawn.trans {s₂ : State cfg} (h : Withdrawn s s₁) (h' : Withdrawn s₁ s₂) :
    Withdrawn s s₂ := by
  refine ⟨h'.blockNumber.trans h.blockNumber, h'.expiringPositions.trans h.expiringPositions,
    h'.nextExpiringBlock.trans h.nextExpiringBlock, fun q hq => ?_, fun q hq => ?_⟩
  · have hlocked := h'.locked q hq
    rw [hlocked] at hq ⊢
    exact h.locked q hq
  · have hlocked := h'.locked q hq
    have howner := h'.owner q hq
    rw [hlocked] at hq
    exact howner.trans (h.owner q hq)

theorem withdrawNoEnsure_withdrawn {ifFast : Option FixedU128}
    (h : withdrawNoEnsure s who p (s.locked p) ifFast = .ok s') :
    Withdrawn s s' ∧ s'.locked p = .zero := by
  obtain ⟨s₁, s₂, hrelock, hsame, -, -, rfl⟩ := withdrawNoEnsure_relocks h
  have hlocked : (s₂.removed who p).locked = Function.update s₂.locked p .zero := rfl
  have howner : (s₂.removed who p).positionOwner = Function.update s₂.positionOwner p none := rfl
  have hzero : (s₂.removed who p).locked p = .zero := Function.update_self ..
  refine ⟨⟨hsame.blockNumber.trans hrelock.blockNumber,
    hsame.expiringPositions.trans hrelock.expiringPositions,
    hsame.nextExpiringBlock.trans hrelock.nextExpiringBlock, fun q hq => ?_, fun q hq => ?_⟩, hzero⟩
  · by_cases hqp : q = p
    · subst q
      rw [hzero] at hq
      contradiction
    · rw [hlocked, Function.update_of_ne hqp, hsame.locked]
      exact hrelock.locked q hqp
  · by_cases hqp : q = p
    · subst q
      rw [hzero] at hq
      contradiction
    · rw [howner, Function.update_of_ne hqp, hsame.positionOwner, hrelock.positionOwner]

/-- Every position with something locked has an owner. -/
def Owned (s : State cfg) : Prop := ∀ p, 0 < (s.locked p).amount → (s.positionOwner p).isSome

theorem Owned.withdrawn (hs : Owned s) (h : Withdrawn s s') : Owned s' := by
  intro q hq
  rw [h.owner q hq]
  apply hs
  rw [← h.locked q hq]
  exact hq

theorem autoWithdraw_withdrawn (hs : Owned s) (h : autoWithdraw s p = .ok s') :
    Withdrawn s s' ∧ (0 < (s'.locked p).amount → s'.blockNumber < (s'.locked p).endBlock) := by
  unfold autoWithdraw at h
  split at h
  · rename_i hdue
    split at h
    · obtain ⟨hwithdrawn, hzero⟩ := withdrawNoEnsure_withdrawn h
      refine ⟨hwithdrawn, ?_⟩
      rw [hzero]
      intro hpos
      contradiction
    · rename_i hnone
      have hsome := hs p (Nat.pos_of_ne_zero hdue.2)
      rw [hnone] at hsome
      contradiction
  · rename_i hdue
    rw [pure_eq_ok] at h
    subst s'
    refine ⟨.refl s, fun hpos => ?_⟩
    by_contra hend
    exact hdue ⟨Nat.le_of_not_lt hend, Nat.ne_of_gt hpos⟩

theorem autoWithdraws_withdrawn {positions : List ℕ} (hs : Owned s)
    (h : positions.foldlM autoWithdraw s = .ok s') :
    Withdrawn s s' ∧ ∀ p ∈ positions, 0 < (s'.locked p).amount →
      s'.blockNumber < (s'.locked p).endBlock := by
  induction positions generalizing s with
  | nil =>
    cases h
    exact ⟨.refl _, fun p hp => absurd hp List.not_mem_nil⟩
  | cons p positions ih =>
    simp only [List.foldlM_cons, bind_eq_ok] at h
    obtain ⟨s₁, hp, h⟩ := h
    obtain ⟨hfirst, hdone⟩ := autoWithdraw_withdrawn hs hp
    obtain ⟨hrest, hall⟩ := ih (hs.withdrawn hfirst) h
    refine ⟨hfirst.trans hrest, fun q hq hpos => ?_⟩
    rcases List.mem_cons.mp hq with rfl | hmem
    · have hlocked := hrest.locked q hpos
      rw [hlocked] at hpos ⊢
      rw [hrest.blockNumber]
      exact hdone hpos
    · exact hall q hmem hpos

/-! The schedule. -/

/-- What is locked is recorded at its end, which is at `block` or later. -/
def Ahead (block : ℕ) (s : State cfg) : Prop :=
  ∀ p, 0 < (s.locked p).amount →
    p ∈ s.expiringPositions (s.locked p).endBlock ∧ block ≤ (s.locked p).endBlock

theorem withdrawBlock_ok {block : ℕ} (h : withdrawBlock s block = .ok s') :
    ∃ s₁, (s.expiringPositions block).foldlM autoWithdraw s = .ok s₁ ∧
      s' = { s₁ with expiringPositions := Function.update s₁.expiringPositions block [] } := by
  simp only [withdrawBlock, bind_eq_ok, pure_eq_ok] at h
  obtain ⟨s₁, hfold, rfl⟩ := h
  exact ⟨s₁, hfold, rfl⟩

theorem withdrawBlock_withdrawn {block : ℕ} (hs : Owned s) (h : withdrawBlock s block = .ok s') :
    Owned s' ∧ s'.blockNumber = s.blockNumber ∧
      s'.expiringPositions = Function.update s.expiringPositions block [] := by
  obtain ⟨s₁, hfold, rfl⟩ := withdrawBlock_ok h
  obtain ⟨hwithdrawn, -⟩ := autoWithdraws_withdrawn hs hfold
  have howned : Owned s₁ := hs.withdrawn hwithdrawn
  exact ⟨howned, hwithdrawn.blockNumber, by rw [← hwithdrawn.expiringPositions]⟩

theorem withdrawBlock_ahead {block : ℕ} (hs : Owned s) (hahead : Ahead block s)
    (hblock : block ≤ s.blockNumber) (h : withdrawBlock s block = .ok s') :
    Ahead (block + 1) s' := by
  obtain ⟨s₁, hfold, rfl⟩ := withdrawBlock_ok h
  obtain ⟨hwithdrawn, hdone⟩ := autoWithdraws_withdrawn hs hfold
  intro p hpos
  have hpos₁ : 0 < (s₁.locked p).amount := hpos
  have hlocked : s₁.locked p = s.locked p := hwithdrawn.locked p hpos₁
  have hnow := hwithdrawn.blockNumber
  obtain ⟨hmem, hle⟩ := hahead p (hlocked ▸ hpos₁)
  have hne : (s.locked p).endBlock ≠ block := by
    intro heq
    rw [heq] at hmem
    have hlt := hdone p hmem hpos₁
    rw [hlocked] at hlt
    omega
  change p ∈ Function.update s₁.expiringPositions block [] (s₁.locked p).endBlock ∧
    block + 1 ≤ (s₁.locked p).endBlock
  rw [hlocked, Function.update_of_ne hne, hwithdrawn.expiringPositions]
  exact ⟨hmem, by omega⟩

theorem withdrawBlocks_ahead {fuel block : ℕ} (hs : Owned s) (hahead : Ahead block s)
    (hblock : block + fuel ≤ s.blockNumber + 1)
    (h : (List.range' block fuel).foldlM withdrawBlock s = .ok s') :
    Owned s' ∧ Ahead (block + fuel) s' := by
  induction fuel generalizing s block with
  | zero =>
    cases h
    exact ⟨hs, hahead⟩
  | succ fuel ih =>
    rw [List.range'_succ, List.foldlM_cons, bind_eq_ok] at h
    obtain ⟨s₁, hfirst, h⟩ := h
    obtain ⟨hs₁, hnow, -⟩ := withdrawBlock_withdrawn hs hfirst
    have hahead₁ := withdrawBlock_ahead hs hahead (by omega) hfirst
    have hrest := ih hs₁ hahead₁ (by omega) h
    rw [Nat.add_right_comm, Nat.add_assoc] at hrest
    exact hrest

/-! The loops of the hook do what it is for. -/

theorem sweepPosition_withdraws {limit : ℕ} {w : Sweep cfg} (hgoing : w.blocksExhausted = false)
    (hlimit : w.positionsProcessed < limit) (h : autoWithdraw w.state p = .ok s') :
    sweepPosition limit w p = { w with state := s' }.processed p := by
  unfold sweepPosition
  dsimp only
  rw [if_neg (by simp [hgoing]), if_neg (Nat.not_le.mpr hlimit)]
  unfold autoWithdraw at h
  split at h
  · rename_i hdue
    rw [if_pos hdue]
    cases howner : w.state.positionOwner p with
    | some owner =>
      simp only [howner] at h
      simp only [h]
    | none =>
      simp only [howner, pure_eq_ok] at h
      subst h
      rfl
  · rename_i hdue
    rw [if_neg hdue]
    rw [pure_eq_ok] at h
    rw [← h]

theorem sweepPositions_withdraw {limit : ℕ} {positions : List ℕ} {w : Sweep cfg}
    (hgoing : w.blocksExhausted = false) (hlimit : w.positionsProcessed + positions.length ≤ limit)
    (h : positions.foldlM autoWithdraw w.state = .ok s') :
    positions.foldl (sweepPosition limit) w =
      ⟨s', w.processedPositions ++ positions, w.positionsProcessed + positions.length, false⟩ := by
  induction positions generalizing w with
  | nil =>
    cases h
    obtain ⟨state, processed, count, exhausted⟩ := w
    cases hgoing
    simp
  | cons p positions ih =>
    simp only [List.foldlM_cons, bind_eq_ok] at h
    obtain ⟨s₁, hp, h⟩ := h
    rw [List.length_cons] at hlimit
    rw [List.foldl_cons, sweepPosition_withdraws hgoing (by omega) hp]
    have hrest := ih (w := { w with state := s₁ }.processed p) hgoing
      (by simp only [Sweep.processed]; omega) h
    rw [hrest]
    simp only [Sweep.processed, List.append_assoc, List.singleton_append, List.length_cons]
    rw [Nat.add_right_comm, Nat.add_assoc]

theorem sweepBlock_withdraws {limit processed block : ℕ}
    (hlimit : processed + (s.expiringPositions block).length ≤ limit)
    (h : withdrawBlock s block = .ok s') :
    sweepBlock limit s processed block = ⟨s', s.expiringPositions block,
      processed + (s.expiringPositions block).length, false⟩ := by
  obtain ⟨s₁, hfold, rfl⟩ := withdrawBlock_ok h
  unfold sweepBlock
  dsimp only
  rw [sweepPositions_withdraw rfl hlimit hfold]
  simp

theorem sweepBlocks_withdraw {limit fuel processed block : ℕ} (hs : Owned s)
    (hlimit : processed + s.recordedIn (List.range' block fuel) ≤ limit)
    (h : (List.range' block fuel).foldlM withdrawBlock s = .ok s') :
    sweepBlocks limit fuel s processed block = (s', block + fuel) := by
  induction fuel generalizing s processed block with
  | zero =>
    cases h
    rfl
  | succ fuel ih =>
    rw [List.range'_succ, List.foldlM_cons, bind_eq_ok] at h
    obtain ⟨s₁, hfirst, h⟩ := h
    obtain ⟨hs₁, -, hexpiring⟩ := withdrawBlock_withdrawn hs hfirst
    rw [List.range'_succ, State.recordedIn, List.map_cons, List.sum_cons] at hlimit
    have hsame : s₁.recordedIn (List.range' (block + 1) fuel) =
        s.recordedIn (List.range' (block + 1) fuel) := by
      unfold State.recordedIn
      congr 1
      apply List.map_congr_left
      intro b hb
      have hne : b ≠ block := by
        rw [List.mem_range'_1] at hb
        omega
      rw [hexpiring, Function.update_of_ne hne]
    have hrest : processed + (s.expiringPositions block).length +
        s₁.recordedIn (List.range' (block + 1) fuel) ≤ limit := by
      rw [hsame, State.recordedIn]
      omega
    unfold sweepBlocks
    rw [sweepBlock_withdraws (by omega) hfirst]
    simp only [Bool.false_eq_true, if_false]
    rw [ih hs₁ hrest h, Nat.add_right_comm, Nat.add_assoc]

/-! Every call. -/

/-- The cursor is zero only before anything is locked. -/
structure Scheduled (s : State cfg) : Prop where
  ahead : Ahead s.nextExpiringBlock s
  owned : Owned s
  started : s.nextExpiringBlock = 0 → ∀ p, (s.locked p).amount = 0

theorem Scheduled.of_same (hs : Scheduled s) (h : SameLocks s s') : Scheduled s' := by
  refine ⟨?_, ?_, ?_⟩
  · unfold Ahead
    rw [h.locked, h.expiringPositions, h.nextExpiringBlock]
    exact hs.ahead
  · unfold Owned
    rw [h.locked, h.positionOwner]
    exact hs.owned
  · rw [h.locked, h.nextExpiringBlock]
    exact hs.started

theorem withdrawExpired_scheduled (hs : Scheduled s) (hok : WithdrawsAll s) :
    Scheduled (withdrawExpired s) := by
  obtain ⟨hlimit, hall⟩ := hok
  unfold withdrawExpired
  dsimp only
  by_cases hdue : s.nextExpiringBlock ≠ 0 ∧ s.nextExpiringBlock ≤ s.blockNumber
  · obtain ⟨s', hfold⟩ := exists_of_toBool hall
    unfold withdrawAll at hfold
    unfold State.dueBlocks at hlimit hfold
    rw [if_neg hdue.1] at hlimit hfold
    have hend : s.nextExpiringBlock + (s.blockNumber + 1 - s.nextExpiringBlock) =
      s.blockNumber + 1 := by omega
    obtain ⟨howned, hahead⟩ := withdrawBlocks_ahead hs.owned hs.ahead hend.le hfold
    rw [hend] at hahead
    rw [if_pos hdue, sweepBlocks_withdraw hs.owned (by omega) hfold, hend]
    exact ⟨hahead, howned, fun hfalse => absurd hfalse (Nat.succ_ne_zero _)⟩
  · rw [if_neg hdue]
    exact hs

theorem withdrawNoEnsure_scheduled {ifFast : Option FixedU128} (hs : Scheduled s)
    (h : withdrawNoEnsure (removeExpiringPosition s p (s.locked p).endBlock) who p (s.locked p)
      ifFast = .ok s') : Scheduled s' := by
  obtain ⟨hwithdrawn, hzero⟩ := withdrawNoEnsure_withdrawn h
  have hexpiring := hwithdrawn.expiringPositions
  have hnext := hwithdrawn.nextExpiringBlock
  refine ⟨fun q hpos => ?_, fun q hpos => ?_, fun hstart q => ?_⟩
  · have hlocked : s'.locked q = s.locked q := hwithdrawn.locked q hpos
    have hqp : q ≠ p := by
      rintro rfl
      rw [hzero] at hpos
      contradiction
    rw [hlocked] at hpos ⊢
    obtain ⟨hmem, hle⟩ := hs.ahead q hpos
    rw [hexpiring, hnext]
    refine ⟨?_, hle⟩
    change q ∈ Function.update s.expiringPositions (s.locked p).endBlock _ (s.locked q).endBlock
    by_cases hend : (s.locked q).endBlock = (s.locked p).endBlock
    · rw [hend, Function.update_self, List.mem_filter, ← hend]
      exact ⟨hmem, decide_eq_true hqp⟩
    · rw [Function.update_of_ne hend]
      exact hmem
  · have hlocked : s'.locked q = s.locked q := hwithdrawn.locked q hpos
    have howner : s'.positionOwner q = s.positionOwner q := hwithdrawn.owner q hpos
    rw [howner]
    exact hs.owned q (hlocked ▸ hpos)
  · rw [hnext] at hstart
    by_contra hne
    have hlocked : s'.locked q = s.locked q := hwithdrawn.locked q (Nat.pos_of_ne_zero hne)
    rw [hlocked] at hne
    exact hne (hs.started hstart q)

theorem deposits_scheduled {value : ℕ} {new : LockedBalance}
    (h : Deposits s who p value (s.locked p) new s')
    (hothers : ∀ q, q ≠ p → 0 < (s.locked q).amount →
      q ∈ s.expiringPositions (s.locked q).endBlock ∧ s.nextExpiringBlock ≤ (s.locked q).endBlock ∧
        (s.positionOwner q).isSome)
    (hmem : p ∈ s.expiringPositions new.endBlock) (hle : s.nextExpiringBlock ≤ new.endBlock)
    (howner : (s.positionOwner p).isSome) (hstart : s.nextExpiringBlock ≠ 0) : Scheduled s' := by
  obtain ⟨s₁, hrelock, hsame, hnew⟩ := deposits_relocks h
  refine Scheduled.of_same ⟨fun q hpos => ?_, fun q hpos => ?_, ?_⟩ hsame
  · rw [hrelock.expiringPositions, hrelock.nextExpiringBlock]
    by_cases hq : q = p
    · subst q
      rw [hnew]
      exact ⟨hmem, hle⟩
    · rw [hrelock.locked q hq] at hpos ⊢
      exact ⟨(hothers q hq hpos).1, (hothers q hq hpos).2.1⟩
  · rw [hrelock.positionOwner]
    by_cases hq : q = p
    · subst q
      exact howner
    · rw [hrelock.locked q hq] at hpos
      exact (hothers q hq hpos).2.2
  · rw [hrelock.nextExpiringBlock]
    exact fun hfalse => absurd hfalse hstart

theorem recorded_mem (s : State cfg) (p unlockTime : ℕ) :
    p ∈ (s.recorded p unlockTime).expiringPositions unlockTime := by
  change p ∈ Function.update s.expiringPositions unlockTime _ unlockTime
  rw [Function.update_self]
  split
  · assumption
  · simp

theorem recorded_cursor (s : State cfg) (p : ℕ) {unlockTime : ℕ} (hpos : 0 < unlockTime) :
    (s.recorded p unlockTime).nextExpiringBlock ≠ 0 ∧
      (s.recorded p unlockTime).nextExpiringBlock ≤ unlockTime ∧
      (s.nextExpiringBlock ≠ 0 →
        (s.recorded p unlockTime).nextExpiringBlock ≤ s.nextExpiringBlock) := by
  unfold State.recorded
  dsimp only
  split <;> omega

theorem recorded_of_mem {q p block unlockTime : ℕ} (h : q ∈ s.expiringPositions block) :
    q ∈ (s.recorded p unlockTime).expiringPositions block := by
  change q ∈ Function.update s.expiringPositions unlockTime _ block
  by_cases hblock : block = unlockTime
  · subst block
    rw [Function.update_self]
    split
    · exact h
    · exact List.mem_append_left _ h
  · rw [Function.update_of_ne hblock]
    exact h

theorem createLock_scheduled {value time : ℕ} (hs : Scheduled s)
    (h : createLockInner s who value time = .ok s') : Scheduled s' := by
  obtain ⟨endBlock, hweek, hdeposit⟩ := createLockInner_ok h
  have hzero : ((s.created who).recorded s.position endBlock).locked s.position = .zero :=
    Function.update_self ..
  rw [← hzero] at hdeposit
  obtain ⟨hstart, hle, hmono⟩ := recorded_cursor (s.created who) s.position hweek.pos
  refine deposits_scheduled hdeposit (fun q hq hamount => ?_) (recorded_mem _ _ _) hle ?_ hstart
  · have hlocked : ((s.created who).recorded s.position endBlock).locked q = s.locked q :=
      Function.update_of_ne hq _ _
    have howner : ((s.created who).recorded s.position endBlock).positionOwner q =
      s.positionOwner q := Function.update_of_ne hq _ _
    rw [hlocked] at hamount ⊢
    rw [howner]
    obtain ⟨hmem, hnext⟩ := hs.ahead q hamount
    have hstarted : s.nextExpiringBlock ≠ 0 := by
      intro hfalse
      rw [hs.started hfalse q] at hamount
      contradiction
    exact ⟨recorded_of_mem hmem, (hmono hstarted).trans hnext, hs.owned q hamount⟩
  · have howner : ((s.created who).recorded s.position endBlock).positionOwner s.position =
      some who := Function.update_self ..
    rw [howner]
    rfl

theorem increaseUnlockTime_scheduled {time : ℕ} (hs : Scheduled s)
    (h : increaseUnlockTimeInner s who p time = .ok s') : Scheduled s' := by
  obtain ⟨endBlock, hweek, -, hamount, -, hdeposit⟩ := increaseUnlockTimeInner_ok h
  obtain ⟨hstart, hle, hmono⟩ :=
    recorded_cursor (removeExpiringPosition s p (s.locked p).endBlock) p hweek.pos
  generalize ht : (removeExpiringPosition s p (s.locked p).endBlock).recorded p endBlock = t
    at hdeposit hstart hle hmono
  have hlocked : t.locked = s.locked := ht ▸ rfl
  have howner : t.positionOwner = s.positionOwner := ht ▸ rfl
  rw [← hlocked] at hdeposit
  have hstarted : s.nextExpiringBlock ≠ 0 := by
    intro hfalse
    rw [hs.started hfalse p] at hamount
    contradiction
  refine deposits_scheduled hdeposit (fun q hq hlive => ?_) (ht ▸ recorded_mem _ _ _) hle ?_ hstart
  · rw [hlocked] at hlive ⊢
    rw [howner]
    obtain ⟨hmem, hnext⟩ := hs.ahead q hlive
    refine ⟨ht ▸ recorded_of_mem ?_, (hmono hstarted).trans hnext, hs.owned q hlive⟩
    change q ∈ Function.update s.expiringPositions (s.locked p).endBlock _ (s.locked q).endBlock
    by_cases hend : (s.locked q).endBlock = (s.locked p).endBlock
    · rw [hend, Function.update_self, List.mem_filter, ← hend]
      exact ⟨hmem, decide_eq_true hq⟩
    · rw [Function.update_of_ne hend]
      exact hmem
  · rw [howner]
    exact hs.owned p hamount

theorem increaseAmount_scheduled {value : ℕ} (hs : Scheduled s)
    (h : increaseAmountInner s who p value = .ok s') : Scheduled s' := by
  obtain ⟨hamount, -, hdeposit⟩ := increaseAmountInner_ok h
  obtain ⟨hmem, hle⟩ := hs.ahead p hamount
  refine deposits_scheduled hdeposit (fun q _ hlive => ?_) hmem hle (hs.owned p hamount) ?_
  · exact ⟨(hs.ahead q hlive).1, (hs.ahead q hlive).2, hs.owned q hlive⟩
  · intro hfalse
    rw [hs.started hfalse p] at hamount
    contradiction

theorem step_scheduled {c : Call cfg} (hs : Scheduled s) (hok : KeepsSchedule s c)
    (h : step s c = .ok s') : Scheduled s' := by
  by_cases hc : c.MovesLocks
  · cases c <;> simp only [Call.MovesLocks] at hc
    case createLock => exact createLock_scheduled hs h
    case increaseAmount => exact increaseAmount_scheduled hs (ownPosition_ok h).2
    case increaseUnlockTime => exact increaseUnlockTime_scheduled hs (ownPosition_ok h).2
    case withdraw => exact withdrawNoEnsure_scheduled hs (withdrawInner_ok (ownPosition_ok h).2).2
    case redeemUnlock =>
      obtain ⟨-, fast, h⟩ := redeemUnlockInner_ok (ownPosition_ok h).2
      exact withdrawNoEnsure_scheduled hs h
    case onInitialize =>
      cases h
      refine withdrawExpired_scheduled (Scheduled.of_same ?_
        (notifyOnBlock_rewardCall _).sameLocks) hok
      exact ⟨hs.ahead, hs.owned, hs.started⟩
  · exact hs.of_same (step_sameLocks hc h)

/-- In every state of a run in which the hook withdraws all that is due, a position with something
locked is recorded at its end and the cursor has not passed it; where its end has passed, the
cursor is still to come to it. -/
theorem schedule_kept (accounts : Unlocked cfg) (outside : cfg.Outside) (n : ℕ)
    (calls : List (Call cfg)) (h : Meets step KeepsSchedule (genesis cfg accounts outside n) calls)
    (p : ℕ) (hp : 0 < ((run step (genesis cfg accounts outside n) calls).locked p).amount) :
    p ∈ (run step (genesis cfg accounts outside n) calls).expiringPositions
        ((run step (genesis cfg accounts outside n) calls).locked p).endBlock ∧
      (run step (genesis cfg accounts outside n) calls).nextExpiringBlock ≤
        ((run step (genesis cfg accounts outside n) calls).locked p).endBlock := by
  have hgenesis : Scheduled (genesis cfg accounts outside n) :=
    ⟨fun _ hpos => absurd hpos (Nat.lt_irrefl 0), fun _ hpos => absurd hpos (Nat.lt_irrefl 0),
      fun _ _ => rfl⟩
  have hs : Scheduled (run step (genesis cfg accounts outside n) calls) :=
    run_invariant (I := Scheduled) (fun _ _ _ hs hok hstep => step_scheduled hs hok hstep) calls
      hgenesis h
  exact hs.ahead p hp

namespace Sample

def blocks (n : ℕ) : List (Call config) := List.replicate n .onInitialize

def expiring (maxPositionsPerBlock : ℕ) : List (Call config) :=
  [.setConfig none none (some maxPositionsPerBlock), .createLock 1 400 0, .createLock 2 800 0] ++
    blocks 9

/-- Both are withdrawn, and the first account locks again. -/
def renewed : List (Call config) := expiring 2 ++ [.createLock 1 500 25]

theorem renewed_keeps : Meets step KeepsSchedule (genesis config wealth () 1) renewed := by
  decide +kernel

theorem renewed_live :
    0 < ((run step (genesis config wealth () 1) renewed).locked 2).amount := by
  decide +kernel

end Sample

theorem schedule_kept_renewed :
    2 ∈ (run step (genesis Sample.config Sample.wealth () 1) Sample.renewed).expiringPositions
        ((run step (genesis Sample.config Sample.wealth () 1) Sample.renewed).locked 2).endBlock ∧
      (run step (genesis Sample.config Sample.wealth () 1) Sample.renewed).nextExpiringBlock ≤
        ((run step (genesis Sample.config Sample.wealth () 1) Sample.renewed).locked 2).endBlock :=
  schedule_kept Sample.wealth () 1 Sample.renewed Sample.renewed_keeps 2 Sample.renewed_live

/-- The hook stops after the first of two positions and moves its cursor past the second. -/
theorem expired_skipped :
    0 < ((run step Sample.start (Sample.expiring 1)).locked 1).amount ∧
      ((run step Sample.start (Sample.expiring 1)).locked 1).endBlock <
        (run step Sample.start (Sample.expiring 1)).nextExpiringBlock := by
  decide +kernel

end Bifrost.BbBnc
