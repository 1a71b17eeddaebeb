import Bifrost.BbBnc.Transitions
import Bifrost.Lib.Sums

/-!
# The locks of the positions agree

The supply, the locked balances, the locks on the accounts and the owners of the positions agree
in every state; a position has an amount unless its lock was created with none.
-/

namespace Bifrost.BbBnc

open Result Machine
set_option autoImplicit false

variable {AccountId : Type} [DecidableEq AccountId] {cfg : Config AccountId}
  {s s' s₁ : State cfg} {who : AccountId} {p : ℕ} {ifFast : Option FixedU128}

def State.amounts (s : State cfg) (positions : List ℕ) : ℕ :=
  (positions.map fun p => (s.locked p).amount).sum

structure Booked (s : State cfg) : Prop where
  supply : s.supply = s.amounts (List.range s.position)
  unused : ∀ p, s.position ≤ p → s.locked p = .zero ∧ s.positionOwner p = none
  userLocked : ∀ w, s.userLocked w = s.amounts (s.userPositions w)
  lock : ∀ w, cfg.currencies.lock s.ledger .bbLockId cfg.tokenType w = s.userLocked w
  owner : ∀ w p, p ∈ s.userPositions w ↔ s.positionOwner p = some w
  nodup : ∀ w, (s.userPositions w).Nodup

theorem Booked.of_same (hs : Booked s) (h : SameLocks s s') : Booked s' := by
  have hamounts : s'.amounts = s.amounts := by
    unfold State.amounts
    rw [h.locked]
  refine ⟨?_, ?_, fun w => ?_, fun w => ?_, fun w p => ?_, fun w => ?_⟩
  · rw [hamounts, h.supply, h.position]
    exact hs.supply
  · rw [h.locked, h.positionOwner, h.position]
    exact hs.unused
  · rw [hamounts, h.userLocked, h.userPositions]
    exact hs.userLocked w
  · rw [h.lock, h.userLocked]
    exact hs.lock w
  · rw [h.userPositions, h.positionOwner]
    exact hs.owner w p
  · rw [h.userPositions]
    exact hs.nodup w

theorem Booked.scheduled (hs : Booked s) (expiringPositions : ℕ → List ℕ)
    (nextExpiringBlock : ℕ) : Booked { s with
      expiringPositions := expiringPositions, nextExpiringBlock := nextExpiringBlock } :=
  ⟨hs.supply, hs.unused, hs.userLocked, hs.lock, hs.owner, hs.nodup⟩

theorem Booked.owned_lt (hs : Booked s) (howner : s.positionOwner p = some who) :
    p < s.position := by
  by_contra hge
  rw [(hs.unused p (Nat.le_of_not_lt hge)).2] at howner
  contradiction

theorem amounts_of_mem {positions : List ℕ} (hnodup : positions.Nodup) (hp : p ∈ positions)
    (h : ∀ q, q ≠ p → s'.locked q = s.locked q) :
    s'.amounts positions + (s.locked p).amount =
      s.amounts positions + (s'.locked p).amount := by
  apply Sums.sum_add_of_mem (f := fun q => (s'.locked q).amount)
    (g := fun q => (s.locked q).amount) hnodup hp
  intro q hq
  rw [h q hq]

theorem amounts_of_notMem {positions : List ℕ} (hp : p ∉ positions)
    (h : ∀ q, q ≠ p → s'.locked q = s.locked q) :
    s'.amounts positions = s.amounts positions := by
  apply Sums.sum_eq_of_notMem hp
  intro q _ hq
  rw [h q hq]

theorem setLocked_off {t : State cfg} {locked : LockedBalance} (ht : t.locked = s.locked) :
    ∀ q, q ≠ p → (t.setLocked p locked).locked q = s.locked q := by
  intro q hq
  simp only [State.setLocked, Function.update_of_ne hq, ht]

theorem created_booked (hs : Booked s) (who : AccountId) : Booked (s.created who) := by
  have hzero := (hs.unused s.position (Nat.le_refl _)).1
  have hlocked : (s.created who).locked = s.locked := by
    simp only [State.created, State.setLocked]
    rw [← hzero, Function.update_eq_self]
  have hamounts : (s.created who).amounts = s.amounts := by
    unfold State.amounts
    rw [hlocked]
  have hfresh : ∀ w, s.position ∉ s.userPositions w := by
    intro w hmem
    exact absurd (hs.owned_lt ((hs.owner w s.position).mp hmem)) (Nat.lt_irrefl _)
  have hposition : (s.created who).position = s.position + 1 := rfl
  have howner : (s.created who).positionOwner =
    Function.update s.positionOwner s.position (some who) := rfl
  have hpositions : (s.created who).userPositions =
    Function.update s.userPositions who (s.userPositions who ++ [s.position]) := rfl
  refine ⟨?_, ?_, fun w => ?_, hs.lock, fun w p => ?_, fun w => ?_⟩
  · rw [hamounts, hposition, State.amounts, List.range_succ, List.map_append, List.sum_append]
    simp only [List.map_cons, List.map_nil, List.sum_cons, List.sum_nil, hzero]
    exact hs.supply
  · intro p hp
    rw [hposition] at hp
    rw [hlocked, howner, Function.update_of_ne (by omega)]
    exact hs.unused p (by omega)
  · rw [hamounts, hpositions]
    have huser : (s.created who).userLocked = s.userLocked := rfl
    rw [huser, hs.userLocked w]
    by_cases hw : w = who
    · subst w
      rw [Function.update_self]
      simp [State.amounts, hzero, LockedBalance.zero]
    · rw [Function.update_of_ne hw]
  · rw [hpositions, howner]
    by_cases hw : w = who
    · subst w
      rw [Function.update_self, List.mem_append, List.mem_singleton, hs.owner]
      by_cases hp : p = s.position
      · subst p
        simp
      · rw [Function.update_of_ne hp]
        simp [hp]
    · rw [Function.update_of_ne hw, hs.owner]
      by_cases hp : p = s.position
      · subst p
        rw [Function.update_self, (hs.unused s.position (Nat.le_refl _)).2]
        simp [Ne.symm hw]
      · rw [Function.update_of_ne hp]
  · rw [hpositions]
    by_cases hw : w = who
    · subst w
      rw [Function.update_self]
      exact List.Nodup.append (hs.nodup who) (List.nodup_singleton _)
        (List.disjoint_singleton.mpr (hfresh who))
    · rw [Function.update_of_ne hw]
      exact hs.nodup w

/-- The lock of an owned position is replaced, and what follows from it. -/
structure Relocks (s : State cfg) (who : AccountId) (p : ℕ) (s' : State cfg) : Prop where
  blockNumber : s'.blockNumber = s.blockNumber
  expiringPositions : s'.expiringPositions = s.expiringPositions
  nextExpiringBlock : s'.nextExpiringBlock = s.nextExpiringBlock
  position : s'.position = s.position
  userPositions : s'.userPositions = s.userPositions
  positionOwner : s'.positionOwner = s.positionOwner
  locked : ∀ q, q ≠ p → s'.locked q = s.locked q
  supply : s'.supply + (s.locked p).amount = s.supply + (s'.locked p).amount
  userLocked : s'.userLocked who + (s.locked p).amount = s.userLocked who + (s'.locked p).amount
  others : ∀ w, w ≠ who → s'.userLocked w = s.userLocked w
  lock : ∀ w, cfg.currencies.lock s.ledger .bbLockId cfg.tokenType w = s.userLocked w →
    cfg.currencies.lock s'.ledger .bbLockId cfg.tokenType w = s'.userLocked w

theorem relocks_booked (hs : Booked s) (howner : s.positionOwner p = some who)
    (h : Relocks s who p s') : Booked s' := by
  have hp := hs.owned_lt howner
  refine ⟨?_, ?_, fun w => ?_, fun w => h.lock w (hs.lock w), fun w q => ?_, fun w => ?_⟩
  · have hsum := amounts_of_mem List.nodup_range (List.mem_range.mpr hp) h.locked
    have hsupply := hs.supply
    have hnew := h.supply
    rw [h.position]
    omega
  · intro q hq
    rw [h.position] at hq
    have hne : q ≠ p := by
      rintro rfl
      exact absurd hp (Nat.not_lt.mpr hq)
    rw [h.locked q hne, h.positionOwner]
    exact hs.unused q hq
  · rw [h.userPositions]
    by_cases hw : w = who
    · subst w
      have hsum := amounts_of_mem (hs.nodup who) ((hs.owner who p).mpr howner) h.locked
      have huser := hs.userLocked who
      have hnew := h.userLocked
      omega
    · have hmem : p ∉ s.userPositions w := by
        intro hmem
        rw [(hs.owner w p).mp hmem] at howner
        exact hw (Option.some_inj.mp howner)
      rw [h.others w hw, amounts_of_notMem hmem h.locked]
      exact hs.userLocked w
  · rw [h.userPositions, h.positionOwner]
    exact hs.owner w q
  · rw [h.userPositions]
    exact hs.nodup w

theorem locksSet_lock {n : ℕ} {ledger : cfg.currencies.Ledger} (h : LocksSet s who n ledger)
    (w : AccountId)
    (hw : cfg.currencies.lock s.ledger .bbLockId cfg.tokenType w = s.userLocked w) :
    cfg.currencies.lock ledger .bbLockId cfg.tokenType w =
      Function.update s.userLocked who n w := by
  rw [h.2]
  by_cases hwho : w = who
  · subst w
    simp
  · rw [if_neg (by tauto), Function.update_of_ne hwho]
    exact hw

theorem lockMore_relocks {value : ℕ} {new : LockedBalance} {ledger : cfg.currencies.Ledger}
    (hamount : new.amount = (s.locked p).amount + value) (hzero : value = 0 → ledger = s.ledger)
    (hset : value ≠ 0 → LocksSet s who (s.userLocked who + value) ledger) :
    Relocks s who p (s.lockMore who p value new ledger) := by
  have hnew : (s.lockMore who p value new ledger).locked p = new := Function.update_self ..
  have huser : (s.lockMore who p value new ledger).userLocked who = s.userLocked who + value :=
    Function.update_self ..
  refine ⟨rfl, rfl, rfl, rfl, rfl, rfl, setLocked_off rfl, ?_, ?_, fun w hw => ?_,
    fun w hw => ?_⟩
  · change s.supply + value + _ = _
    rw [hnew, hamount]
    omega
  · rw [huser, hnew, hamount]
    omega
  · exact Function.update_of_ne hw _ _
  · change cfg.currencies.lock ledger _ _ w = Function.update s.userLocked who _ w
    by_cases hvalue : value = 0
    · rw [hzero hvalue, hvalue, Nat.add_zero, Function.update_eq_self]
      exact hw
    · exact locksSet_lock (hset hvalue) w hw

theorem lockLess_relocks {ledger : cfg.currencies.Ledger}
    (hsupply : (s.locked p).amount ≤ s.supply) (huser : (s.locked p).amount ≤ s.userLocked who)
    (hset : LocksSet s who (s.userLocked who - (s.locked p).amount) ledger) :
    Relocks s who p (s.lockLess who p (s.locked p).amount ledger) := by
  have hnew : (s.lockLess who p (s.locked p).amount ledger).locked p = .zero :=
    Function.update_self ..
  have hless : (s.lockLess who p (s.locked p).amount ledger).userLocked who =
    s.userLocked who - (s.locked p).amount := Function.update_self ..
  refine ⟨rfl, rfl, rfl, rfl, rfl, rfl, setLocked_off rfl, ?_, ?_, fun w hw => ?_,
    fun w hw => ?_⟩
  · change s.supply - _ + _ = _
    rw [hnew, LockedBalance.zero_amount]
    omega
  · rw [hless, hnew, LockedBalance.zero_amount]
    omega
  · exact Function.update_of_ne hw _ _
  · exact locksSet_lock hset w hw

theorem removed_booked (hs : Booked s) (hmem : p ∈ s.userPositions who)
    (hzero : s.locked p = .zero) : Booked (s.removed who p) := by
  have howner := (hs.owner who p).mp hmem
  have hlocked : (s.removed who p).locked = s.locked := by
    simp only [State.removed, State.setLocked]
    rw [← hzero, Function.update_eq_self]
  have hamounts : (s.removed who p).amounts = s.amounts := by
    unfold State.amounts
    rw [hlocked]
  have hpositions : (s.removed who p).userPositions = Function.update s.userPositions who
    ((s.userPositions who).filter fun q => q ≠ p) := rfl
  have howners : (s.removed who p).positionOwner = Function.update s.positionOwner p none := rfl
  refine ⟨?_, ?_, fun w => ?_, hs.lock, fun w q => ?_, fun w => ?_⟩
  · rw [hamounts]
    exact hs.supply
  · intro q hq
    have hne : q ≠ p := by
      rintro rfl
      exact absurd (hs.owned_lt howner) (Nat.not_lt.mpr hq)
    rw [hlocked, howners, Function.update_of_ne hne]
    exact hs.unused q hq
  · rw [hamounts, hpositions]
    have huser : (s.removed who p).userLocked = s.userLocked := rfl
    rw [huser, hs.userLocked w]
    by_cases hw : w = who
    · subst w
      have hsum := Sums.sum_filter_ne (hs.nodup who) hmem fun q => (s.locked q).amount
      rw [hzero] at hsum
      rw [Function.update_self]
      exact hsum.symm
    · rw [Function.update_of_ne hw]
  · rw [hpositions, howners]
    by_cases hw : w = who
    · subst w
      rw [Function.update_self, List.mem_filter, hs.owner]
      by_cases hq : q = p
      · subst q
        simp
      · rw [Function.update_of_ne hq]
        simp [hq]
    · rw [Function.update_of_ne hw, hs.owner]
      by_cases hq : q = p
      · subst q
        rw [Function.update_self, howner]
        simp [Ne.symm hw]
      · rw [Function.update_of_ne hq]
  · rw [hpositions]
    by_cases hw : w = who
    · subst w
      rw [Function.update_self]
      exact (hs.nodup who).filter _
    · rw [Function.update_of_ne hw]
      exact hs.nodup w

/-! Every call. -/

theorem OutsideOnly.sameLocks (h : OutsideOnly s s') : SameLocks s s' := h.rewardCall.sameLocks

theorem deposits_relocks {value : ℕ} {new : LockedBalance}
    (h : Deposits s who p value (s.locked p) new s') :
    ∃ s₁, Relocks s who p s₁ ∧ SameLocks s₁ s' ∧ s₁.locked p = new := by
  obtain ⟨hamount, ledger, s₂, -, hzero, hset, hmark, houtside⟩ := h
  exact ⟨_, lockMore_relocks hamount hzero hset,
    (markupCalc_recordsOnly hmark).sameLocks.trans houtside.sameLocks, Function.update_self ..⟩

theorem withdrawNoEnsure_relocks (h : withdrawNoEnsure s who p (s.locked p) ifFast = .ok s') :
    ∃ s₁ s₂, Relocks s who p s₁ ∧ SameLocks s₁ s₂ ∧ s₁.locked p = .zero ∧
      p ∈ s₂.userPositions who ∧ s' = s₂.removed who p := by
  obtain ⟨hsupply, huser, ledger, s₁, s₂, s₃, hset, hpay, hcheck, hrefresh, hremove⟩ :=
    withdrawNoEnsure_ok h
  obtain ⟨hmem, rfl⟩ := removePosition_ok hremove
  exact ⟨_, s₃, lockLess_relocks hsupply huser hset,
    (hpay.sameLocks.trans (checkpoint_recordsOnly hcheck).sameLocks).trans
      (refreshGaugePool_outsideOnly hrefresh).sameLocks, Function.update_self .., hmem, rfl⟩

theorem withdrawNoEnsure_booked (hs : Booked s)
    (h : withdrawNoEnsure s who p (s.locked p) ifFast = .ok s') : Booked s' := by
  obtain ⟨s₁, s₂, hrelock, hsame, hzero, hmem, rfl⟩ := withdrawNoEnsure_relocks h
  have howner : s.positionOwner p = some who := by
    rw [← hs.owner, ← hrelock.userPositions, ← hsame.userPositions]
    exact hmem
  apply removed_booked ((relocks_booked hs howner hrelock).of_same hsame) hmem
  rw [hsame.locked]
  exact hzero

theorem keptBySweep_booked : KeptBySweep fun s : State cfg => Booked s where
  withdraw := fun hs _ _ _ h => withdrawNoEnsure_booked hs h
  schedule := fun _ _ hs => hs.scheduled _ _

theorem deposits_booked {value : ℕ} {new : LockedBalance} (hs : Booked s)
    (howner : s.positionOwner p = some who) (h : Deposits s who p value (s.locked p) new s') :
    Booked s' := by
  obtain ⟨s₁, hrelock, hsame, -⟩ := deposits_relocks h
  exact (relocks_booked hs howner hrelock).of_same hsame

theorem step_booked {c : Call cfg} (hs : Booked s) (h : step s c = .ok s') : Booked s' := by
  by_cases hc : c.MovesLocks
  · cases c <;> simp only [Call.MovesLocks] at hc
    case createLock who value time =>
      obtain ⟨endBlock, -, hdeposit⟩ := createLockInner_ok h
      have hcreated : Booked ((s.created who).recorded s.position endBlock) :=
        (created_booked hs who).scheduled _ _
      have hzero : ((s.created who).recorded s.position endBlock).locked s.position = .zero :=
        Function.update_self ..
      rw [← hzero] at hdeposit
      exact deposits_booked hcreated (Function.update_self ..) hdeposit
    case increaseAmount who p value =>
      obtain ⟨hmem, h⟩ := ownPosition_ok h
      exact deposits_booked hs ((hs.owner who p).mp hmem) (increaseAmountInner_ok h).2.2
    case increaseUnlockTime who p time =>
      obtain ⟨hmem, h⟩ := ownPosition_ok h
      obtain ⟨endBlock, -, -, -, -, hdeposit⟩ := increaseUnlockTimeInner_ok h
      have hscheduled : Booked ((removeExpiringPosition s p (s.locked p).endBlock).recorded p
        endBlock) := hs.scheduled _ _
      exact deposits_booked hscheduled ((hs.owner who p).mp hmem) hdeposit
    case withdraw who p =>
      obtain ⟨-, h⟩ := ownPosition_ok h
      have hscheduled : Booked (removeExpiringPosition s p (s.locked p).endBlock) :=
        hs.scheduled _ _
      exact withdrawNoEnsure_booked hscheduled (withdrawInner_ok h).2
    case redeemUnlock who p =>
      obtain ⟨-, h⟩ := ownPosition_ok h
      obtain ⟨-, fast, h⟩ := redeemUnlockInner_ok h
      have hscheduled : Booked (removeExpiringPosition s p (s.locked p).endBlock) :=
        hs.scheduled _ _
      exact withdrawNoEnsure_booked hscheduled h
    case onInitialize =>
      cases h
      apply keptBySweep_booked.withdrawExpired
      have hblock : Booked { s with blockNumber := s.blockNumber + 1 } :=
        ⟨hs.supply, hs.unused, hs.userLocked, hs.lock, hs.owner, hs.nodup⟩
      exact hblock.of_same (notifyOnBlock_rewardCall _).sameLocks
  · exact hs.of_same (step_sameLocks hc h)

/-! Positions with nothing locked. -/

/-- A lock is created with something in it. -/
def KeepsLocks (_ : State cfg) : Call cfg → Prop
  | .createLock _ value _ => 0 < value
  | _ => True

def Funded (s : State cfg) : Prop :=
  ∀ p w, s.positionOwner p = some w → 0 < (s.locked p).amount

theorem Funded.of_same (hs : Funded s) (h : SameLocks s s') : Funded s' := by
  unfold Funded
  rw [h.positionOwner, h.locked]
  exact hs

theorem deposits_funded {value : ℕ} {new : LockedBalance}
    (hs : ∀ q, q ≠ p → ∀ w, s.positionOwner q = some w → 0 < (s.locked q).amount)
    (hnew : 0 < new.amount) (h : Deposits s who p value (s.locked p) new s') : Funded s' := by
  obtain ⟨s₁, hrelock, hsame, hlocked⟩ := deposits_relocks h
  refine Funded.of_same ?_ hsame
  intro q w hq
  rw [hrelock.positionOwner] at hq
  by_cases hp : q = p
  · subst q
    rw [hlocked]
    exact hnew
  · rw [hrelock.locked q hp]
    exact hs q hp w hq

theorem withdrawNoEnsure_funded (hs : Funded s)
    (h : withdrawNoEnsure s who p (s.locked p) ifFast = .ok s') : Funded s' := by
  obtain ⟨s₁, s₂, hrelock, hsame, -, -, rfl⟩ := withdrawNoEnsure_relocks h
  intro q w hq
  have howners : (s₂.removed who p).positionOwner = Function.update s₂.positionOwner p none := rfl
  have hlocked : (s₂.removed who p).locked = Function.update s₂.locked p .zero := rfl
  rw [howners] at hq
  by_cases hp : q = p
  · subst q
    rw [Function.update_self] at hq
    contradiction
  · rw [Function.update_of_ne hp, hsame.positionOwner, hrelock.positionOwner] at hq
    rw [hlocked, Function.update_of_ne hp, hsame.locked, hrelock.locked q hp]
    exact hs q w hq

theorem keptBySweep_funded : KeptBySweep fun s : State cfg => Funded s where
  withdraw := fun hs _ _ _ h => withdrawNoEnsure_funded hs h
  schedule := fun _ _ hs => hs

theorem step_funded {c : Call cfg} (hs : Funded s) (hok : KeepsLocks s c)
    (h : step s c = .ok s') : Funded s' := by
  by_cases hc : c.MovesLocks
  · cases c <;> simp only [Call.MovesLocks] at hc
    case createLock who value time =>
      obtain ⟨endBlock, -, hdeposit⟩ := createLockInner_ok h
      have hzero : ((s.created who).recorded s.position endBlock).locked s.position = .zero :=
        Function.update_self ..
      rw [← hzero] at hdeposit
      have hvalue : 0 < value := hok
      refine deposits_funded ?_ hvalue hdeposit
      intro q hq w howner
      have howners : ((s.created who).recorded s.position endBlock).positionOwner =
        Function.update s.positionOwner s.position (some who) := rfl
      have hlocked : ((s.created who).recorded s.position endBlock).locked =
        Function.update s.locked s.position .zero := rfl
      rw [howners, Function.update_of_ne hq] at howner
      rw [hlocked, Function.update_of_ne hq]
      exact hs q w howner
    case increaseAmount who p value =>
      obtain ⟨-, h⟩ := ownPosition_ok h
      obtain ⟨hamount, -, hdeposit⟩ := increaseAmountInner_ok h
      exact deposits_funded (fun q _ w hq => hs q w hq) (Nat.add_pos_left hamount value) hdeposit
    case increaseUnlockTime who p time =>
      obtain ⟨-, h⟩ := ownPosition_ok h
      obtain ⟨endBlock, -, -, hamount, -, hdeposit⟩ := increaseUnlockTimeInner_ok h
      have hscheduled : Funded ((removeExpiringPosition s p (s.locked p).endBlock).recorded p
        endBlock) := hs
      refine deposits_funded (fun q _ => hscheduled q) ?_ hdeposit
      exact hamount
    case withdraw who p =>
      obtain ⟨-, h⟩ := ownPosition_ok h
      have hscheduled : Funded (removeExpiringPosition s p (s.locked p).endBlock) := hs
      exact withdrawNoEnsure_funded hscheduled (withdrawInner_ok h).2
    case redeemUnlock who p =>
      obtain ⟨-, h⟩ := ownPosition_ok h
      obtain ⟨-, fast, h⟩ := redeemUnlockInner_ok h
      have hscheduled : Funded (removeExpiringPosition s p (s.locked p).endBlock) := hs
      exact withdrawNoEnsure_funded hscheduled h
    case onInitialize =>
      cases h
      apply keptBySweep_funded.withdrawExpired
      have hblock : Funded { s with blockNumber := s.blockNumber + 1 } := hs
      exact hblock.of_same (notifyOnBlock_rewardCall _).sameLocks
  · exact hs.of_same (step_sameLocks hc h)

/-! The ends of the locks. -/

/-- Every lock ends with a week. -/
def EndsWeekly (s : State cfg) : Prop :=
  ∀ p, cfg.week ∣ (s.locked p).endBlock ∧ (s.locked p).endBlock ≤ u32Max

theorem EndsWeekly.of_same (hs : EndsWeekly s) (h : SameLocks s s') : EndsWeekly s' := by
  unfold EndsWeekly
  rw [h.locked]
  exact hs

theorem setLocked_endsWeekly {locked : LockedBalance} (hs : EndsWeekly s)
    (hdvd : cfg.week ∣ locked.endBlock) (hle : locked.endBlock ≤ u32Max) (p : ℕ) :
    EndsWeekly (s.setLocked p locked) := by
  intro q
  by_cases hq : q = p
  · subst q
    have hlocked : (s.setLocked p locked).locked p = locked := Function.update_self ..
    rw [hlocked]
    exact ⟨hdvd, hle⟩
  · rw [setLocked_off rfl q hq]
    exact hs q

theorem deposits_endsWeekly {value : ℕ} {old new : LockedBalance} (hs : EndsWeekly s)
    (hdvd : cfg.week ∣ new.endBlock) (hle : new.endBlock ≤ u32Max)
    (h : Deposits s who p value old new s') : EndsWeekly s' := by
  obtain ⟨-, ledger, s₁, -, -, -, hmark, houtside⟩ := h
  have hmore : EndsWeekly (s.lockMore who p value new ledger) := setLocked_endsWeekly hs hdvd hle p
  exact hmore.of_same ((markupCalc_recordsOnly hmark).sameLocks.trans houtside.sameLocks)

theorem withdrawNoEnsure_endsWeekly {locked : LockedBalance}
    (hs : EndsWeekly s) (h : withdrawNoEnsure s who p locked ifFast = .ok s') : EndsWeekly s' := by
  obtain ⟨-, -, ledger, s₁, s₂, s₃, -, hpay, hcheck, hrefresh, hremove⟩ := withdrawNoEnsure_ok h
  have hless : EndsWeekly (s.lockLess who p locked.amount ledger) :=
    setLocked_endsWeekly hs (dvd_zero _) (Nat.zero_le _) p
  have h₃ := hless.of_same ((hpay.sameLocks.trans (checkpoint_recordsOnly hcheck).sameLocks).trans
    (refreshGaugePool_outsideOnly hrefresh).sameLocks)
  obtain ⟨-, rfl⟩ := removePosition_ok hremove
  exact setLocked_endsWeekly h₃ (dvd_zero _) (Nat.zero_le _) p

theorem keptBySweep_endsWeekly : KeptBySweep fun s : State cfg => EndsWeekly s where
  withdraw := fun hs _ _ _ h => withdrawNoEnsure_endsWeekly hs h
  schedule := fun _ _ hs => hs

theorem step_endsWeekly {c : Call cfg} (hs : EndsWeekly s) (h : step s c = .ok s') :
    EndsWeekly s' := by
  by_cases hc : c.MovesLocks
  · cases c <;> simp only [Call.MovesLocks] at hc
    case createLock who value time =>
      obtain ⟨endBlock, hweek, hdeposit⟩ := createLockInner_ok h
      refine deposits_endsWeekly ?_ hweek.dvd hweek.le hdeposit
      exact setLocked_endsWeekly hs (dvd_zero _) (Nat.zero_le _) _
    case increaseAmount who p value =>
      obtain ⟨-, -, hdeposit⟩ := increaseAmountInner_ok (ownPosition_ok h).2
      refine deposits_endsWeekly hs ?_ ?_ hdeposit
      · exact (hs p).1
      · exact (hs p).2
    case increaseUnlockTime who p time =>
      obtain ⟨endBlock, hweek, -, -, -, hdeposit⟩ := increaseUnlockTimeInner_ok (ownPosition_ok h).2
      refine deposits_endsWeekly ?_ hweek.dvd hweek.le hdeposit
      exact hs
    case withdraw who p =>
      refine withdrawNoEnsure_endsWeekly ?_ (withdrawInner_ok (ownPosition_ok h).2).2
      exact hs
    case redeemUnlock who p =>
      obtain ⟨-, fast, h⟩ := redeemUnlockInner_ok (ownPosition_ok h).2
      refine withdrawNoEnsure_endsWeekly ?_ h
      exact hs
    case onInitialize =>
      cases h
      apply keptBySweep_endsWeekly.withdrawExpired
      refine EndsWeekly.of_same ?_ (notifyOnBlock_rewardCall _).sameLocks
      exact hs
  · exact hs.of_same (step_sameLocks hc h)

structure LocksAgree (s : State cfg) : Prop where
  supply : ∀ n, s.position ≤ n → s.supply = s.amounts (List.range n)
  userLocked : ∀ w, s.userLocked w = s.amounts (s.userPositions w)
  lock : ∀ w, cfg.currencies.lock s.ledger .bbLockId cfg.tokenType w = s.userLocked w
  owner : ∀ w p, p ∈ s.userPositions w ↔ s.positionOwner p = some w ∧ 0 < (s.locked p).amount
  single : ∀ v w p, p ∈ s.userPositions v → p ∈ s.userPositions w → v = w
  nodup : ∀ w, (s.userPositions w).Nodup

theorem Booked.amounts_range (hs : Booked s) {n : ℕ} (h : s.position ≤ n) :
    s.amounts (List.range n) = s.amounts (List.range s.position) := by
  induction n, h using Nat.le_induction with
  | base => rfl
  | succ n hle ih =>
    have hzero := (hs.unused n hle).1
    rw [← ih, State.amounts, List.range_succ, List.map_append, List.sum_append]
    simp [State.amounts, hzero]

theorem Booked.agree (hs : Booked s) (hfunded : Funded s) : LocksAgree s := by
  refine ⟨fun n hn => ?_, hs.userLocked, hs.lock, fun w p => ?_, fun v w p hv hw => ?_, hs.nodup⟩
  · rw [hs.amounts_range hn]
    exact hs.supply
  · rw [hs.owner]
    exact ⟨fun h => ⟨h, hfunded p w h⟩, fun h => h.1⟩
  · rw [hs.owner] at hv hw
    exact Option.some_inj.mp (hv.symm.trans hw)

theorem genesis_booked (accounts : Unlocked cfg) (outside : cfg.Outside) (n : ℕ) :
    Booked (genesis cfg accounts outside n) := by
  refine ⟨rfl, fun _ _ => ⟨rfl, rfl⟩, fun _ => rfl, fun w => accounts.unlocked _ _ w, fun w p => ?_,
    fun _ => List.nodup_nil⟩
  simp [genesis]

/-- In every state of a run in which no lock is created with nothing in it, the maps and the
locks agree. -/
theorem locks_agree (accounts : Unlocked cfg) (outside : cfg.Outside) (n : ℕ)
    (calls : List (Call cfg)) (h : Meets step KeepsLocks (genesis cfg accounts outside n) calls) :
    LocksAgree (run step (genesis cfg accounts outside n) calls) := by
  have hs : Booked (run step (genesis cfg accounts outside n) calls) ∧
      Funded (run step (genesis cfg accounts outside n) calls) :=
    run_invariant (I := fun s => Booked s ∧ Funded s)
      (fun _ _ _ hs hok hstep => ⟨step_booked hs.1 hstep, step_funded hs.2 hok hstep⟩) calls
      ⟨genesis_booked accounts outside n, fun _ _ hfalse => by cases hfalse⟩ h
  exact hs.1.agree hs.2

namespace Sample

def locking : List (Call config) :=
  [.createLock 1 400 12, .createLock 2 800 25, .increaseAmount 1 0 100, .redeemUnlock 2 1]

theorem locking_keeps : Meets step KeepsLocks start locking :=
  ⟨fun _ _ => Nat.succ_pos 399, fun _ _ => Nat.succ_pos 799, fun _ _ => trivial,
    fun _ _ => trivial, trivial⟩

end Sample

theorem locks_agree_sample : LocksAgree (run step Sample.start Sample.locking) :=
  @locks_agree ℕ _ Sample.config Sample.wealth () 1 Sample.locking Sample.locking_keeps

/-- A position with nothing locked is kept for its account. -/
theorem empty_lock_kept : ¬ LocksAgree (run step Sample.start [.createLock 1 0 12]) := by
  intro h
  have howner := h.owner 1 0
  revert howner
  decide +kernel

end Bifrost.BbBnc
