import Bifrost.Lib.Rounding
import Bifrost.LendMarket.Conservation

/-!
# Borrow rewards follow the debt

Between two changes of its debt an account owes a fixed number of base units, the principal over
the borrow index of its snapshot. What it is credited, with what the index still owes it, is the
integral of these units over the reward index, less what truncation takes at each settlement.
This needs every change of a debt to find the account settled, which a liquidation does not
provide: it settles the liquidator.
-/

namespace Bifrost.LendMarket

open Result Machine Rounding
set_option autoImplicit false

variable {AccountId : Type} {cfg : Config AccountId} {s s' s₁ : State cfg} {asset : CurrencyId}

def BorrowUpdated (s : State cfg) (asset : CurrencyId) : Prop :=
  s.blockNumber ≤ (s.rewards.borrowState asset).block

def BorrowerSettled (s : State cfg) (asset : CurrencyId) (who : AccountId) : Prop :=
  BorrowUpdated s asset ∧
    s.rewards.borrowerIndex asset who = (s.rewards.borrowState asset).index

/-- The base units an account owes, not truncated. -/
def State.borrowBase (s : State cfg) (asset : CurrencyId) (who : AccountId) : ℚ :=
  (s.accountBorrows asset who).principal * FixedU128.accuracy /
    (s.accountBorrows asset who).borrowIndex.inner

def State.borrowRewardIndex (s : State cfg) (asset : CurrencyId) : ℚ :=
  (s.rewards.borrowState asset).index

/-- How far the index is ahead of what the account was paid. -/
def State.borrowGap (s : State cfg) (asset : CurrencyId) (who : AccountId) : ℚ :=
  s.borrowRewardIndex asset - s.rewards.borrowerIndex asset who

section Events

variable [DecidableEq AccountId]

/-- The borrow reward that an event reports for an account in a market. -/
def RewardEvent.borrowed (asset : CurrencyId) (who : AccountId) : RewardEvent AccountId → ℕ
  | .distributedBorrowerReward c borrower rewardDelta _ =>
    if c = asset ∧ borrower = who then rewardDelta else 0
  | .distributedSupplierReward .. => 0

/-- One where the event settles the account. -/
def RewardEvent.settlement (asset : CurrencyId) (who : AccountId) : RewardEvent AccountId → ℕ
  | .distributedBorrowerReward c borrower _ _ => if c = asset ∧ borrower = who then 1 else 0
  | .distributedSupplierReward .. => 0

def State.borrowRewards (s : State cfg) (asset : CurrencyId) (who : AccountId) : ℕ :=
  (s.rewards.events.map (RewardEvent.borrowed asset who)).sum

def State.settlements (s : State cfg) (asset : CurrencyId) (who : AccountId) : ℕ :=
  (s.rewards.events.map (RewardEvent.settlement asset who)).sum

/-- The integral of the base units of an account over the reward index of the market. -/
def borrowIntegral :
    State cfg → List (Call AccountId) → CurrencyId → AccountId → ℚ
  | _, [], _, _ => 0
  | s, a :: as, asset, who =>
    s.borrowBase asset who *
        ((exec step s a).borrowRewardIndex asset - s.borrowRewardIndex asset) +
      borrowIntegral (exec step s a) as asset who

/-- The reward accrued and due, in numerators of the scale. -/
def State.borrowDue (s : State cfg) (asset : CurrencyId) (who : AccountId) : ℚ :=
  rewardScale * s.borrowRewards asset who + s.borrowBase asset who * s.borrowGap asset who

/-- What truncation may take of an amount, in parts of the whole, at a borrow index. -/
def truncation (index : FixedU128) : ℚ :=
  (index.inner + FixedU128.accuracy) / (FixedU128.accuracy * FixedU128.accuracy)

/-- The same with what truncation may have taken so far: a unit of reward and two base units at
each settlement, and the part `part` of the base units. -/
def State.borrowDueLeast (s : State cfg) (asset : CurrencyId) (who : AccountId) (part : ℚ) : ℚ :=
  rewardScale * s.borrowRewards asset who + rewardScale * s.settlements asset who +
    2 * s.rewards.borrowerIndex asset who +
      (1 - part) * (s.borrowBase asset who * s.borrowGap asset who)

end Events

/-- A market that is not there has no borrow index, and the others have one of at least one; a
debt was recorded at an index between one and the present one. -/
structure DebtIndexed (s : State cfg) (asset : CurrencyId) (who : AccountId) : Prop where
  absent : (s.markets.get asset).isNone → (s.borrowIndex asset).inner = 0
  present : (s.borrowIndex asset).inner = 0 ∨ FixedU128.accuracy ≤ (s.borrowIndex asset).inner
  debt : (s.accountBorrows asset who).principal = 0 ∨
    (FixedU128.accuracy ≤ (s.accountBorrows asset who).borrowIndex.inner ∧
      (s.accountBorrows asset who).borrowIndex.inner ≤ (s.borrowIndex asset).inner)

variable [DecidableEq AccountId] {who : AccountId} {c : CurrencyId} {n : ℕ} {borrower : AccountId}
  {supplier : AccountId} {liquidator borrower : AccountId}

/-- What a part of an operation does to the borrow side of one account in one market. -/
structure Follows (asset : CurrencyId) (who : AccountId) (s s' : State cfg) : Prop where
  block : s'.blockNumber = s.blockNumber
  still : BorrowUpdated s asset →
    BorrowUpdated s' asset ∧ s'.borrowRewardIndex asset = s.borrowRewardIndex asset
  settled : BorrowerSettled s asset who → BorrowerSettled s' asset who
  changed : s'.accountBorrows asset who ≠ s.accountBorrows asset who →
    BorrowerSettled s' asset who
  indexed : DebtIndexed s asset who → DebtIndexed s' asset who ∧
    (s.borrowIndex asset).inner ≤ (s'.borrowIndex asset).inner
  atMost : DebtIndexed s asset who → s'.borrowDue asset who ≤ s.borrowDue asset who +
    s.borrowBase asset who * (s'.borrowRewardIndex asset - s.borrowRewardIndex asset)
  atLeast : DebtIndexed s asset who → ∀ part, truncation (s'.borrowIndex asset) ≤ part →
    s.borrowDueLeast asset who part + (1 - part) * (s.borrowBase asset who *
      (s'.borrowRewardIndex asset - s.borrowRewardIndex asset)) ≤
        s'.borrowDueLeast asset who part

omit [DecidableEq AccountId] in
theorem truncation_mono {i j : FixedU128} (h : i.inner ≤ j.inner) :
    truncation i ≤ truncation j := by
  have hcast : (i.inner : ℚ) ≤ j.inner := by exact_mod_cast h
  unfold truncation
  gcongr

namespace Follows

theorem base_or_index (h : Follows asset who s s₁) (h' : Follows asset who s₁ s') :
    s₁.borrowBase asset who = s.borrowBase asset who ∨
      s'.borrowRewardIndex asset = s₁.borrowRewardIndex asset := by
  by_cases hchanged : s₁.accountBorrows asset who = s.accountBorrows asset who
  · left
    unfold State.borrowBase
    rw [hchanged]
  · right
    exact (h'.still (h.changed hchanged).1).2

theorem trans (h : Follows asset who s s₁) (h' : Follows asset who s₁ s') :
    Follows asset who s s' := by
  refine ⟨h'.block.trans h.block, ?_, fun hs => h'.settled (h.settled hs), ?_, ?_, ?_, ?_⟩
  · intro hs
    obtain ⟨hs₁, heq⟩ := h.still hs
    obtain ⟨hs', heq'⟩ := h'.still hs₁
    exact ⟨hs', heq'.trans heq⟩
  · intro hne
    by_cases heq : s'.accountBorrows asset who = s₁.accountBorrows asset who
    · exact h'.settled (h.changed (heq ▸ hne))
    · exact h'.changed heq
  · intro hs
    obtain ⟨hs₁, hle⟩ := h.indexed hs
    obtain ⟨hs', hle'⟩ := h'.indexed hs₁
    exact ⟨hs', hle.trans hle'⟩
  · intro hs
    have hfirst := h.atMost hs
    have hsecond := h'.atMost (h.indexed hs).1
    rcases base_or_index h h' with hbase | hindex
    · rw [hbase] at hsecond
      linarith
    · rw [hindex, sub_self, mul_zero] at hsecond
      rw [hindex]
      linarith
  · intro hs part hpart
    obtain ⟨hs₁, hle⟩ := h.indexed hs
    have hfirst := h.atLeast hs part ((truncation_mono (h'.indexed hs₁).2).trans hpart)
    have hsecond := h'.atLeast hs₁ part hpart
    rcases base_or_index h h' with hbase | hindex
    · rw [hbase] at hsecond
      linarith
    · rw [hindex, sub_self, mul_zero, mul_zero] at hsecond
      rw [hindex]
      linarith

end Follows

/-- What the borrow rewards of an account depend on. -/
structure SameBorrowSide (asset : CurrencyId) (who : AccountId) (s s' : State cfg) : Prop where
  blockNumber : s'.blockNumber = s.blockNumber
  accountBorrows : s'.accountBorrows asset who = s.accountBorrows asset who
  borrowState : s'.rewards.borrowState asset = s.rewards.borrowState asset
  borrowerIndex : s'.rewards.borrowerIndex asset who = s.rewards.borrowerIndex asset who
  rewards : s'.borrowRewards asset who = s.borrowRewards asset who
  settlements : s'.settlements asset who = s.settlements asset who
  indexed : DebtIndexed s asset who → DebtIndexed s' asset who ∧
    (s.borrowIndex asset).inner ≤ (s'.borrowIndex asset).inner

theorem SameBorrowSide.follows (h : SameBorrowSide asset who s s') : Follows asset who s s' := by
  have hindex : s'.borrowRewardIndex asset = s.borrowRewardIndex asset := by
    unfold State.borrowRewardIndex
    rw [h.borrowState]
  have hupdated : BorrowUpdated s asset → BorrowUpdated s' asset := by
    unfold BorrowUpdated
    rw [h.blockNumber, h.borrowState]
    exact id
  have hbase : s'.borrowBase asset who = s.borrowBase asset who := by
    unfold State.borrowBase
    rw [h.accountBorrows]
  have hgap : s'.borrowGap asset who = s.borrowGap asset who := by
    unfold State.borrowGap
    rw [hindex, h.borrowerIndex]
  refine ⟨h.blockNumber, fun hs => ⟨hupdated hs, hindex⟩, ?_, ?_, h.indexed, ?_, ?_⟩
  · intro hs
    refine ⟨hupdated hs.1, ?_⟩
    rw [h.borrowerIndex, h.borrowState]
    exact hs.2
  · intro hne
    exact absurd h.accountBorrows hne
  · intro _
    unfold State.borrowDue
    rw [h.rewards, hbase, hgap, hindex, sub_self, mul_zero, add_zero]
  · intro _ part _
    unfold State.borrowDueLeast
    rw [h.rewards, h.settlements, h.borrowerIndex, hbase, hgap, hindex, sub_self, mul_zero,
      mul_zero, add_zero]

omit [DecidableEq AccountId] in
theorem DebtIndexed.congr (hmarkets : s'.markets = s.markets)
    (hindex : s'.borrowIndex asset = s.borrowIndex asset)
    (hborrows : s'.accountBorrows asset who = s.accountBorrows asset who)
    (hs : DebtIndexed s asset who) : DebtIndexed s' asset who ∧
      (s.borrowIndex asset).inner ≤ (s'.borrowIndex asset).inner := by
  refine ⟨⟨?_, ?_, ?_⟩, ?_⟩
  · rw [hmarkets, hindex]
    exact hs.absent
  · rw [hindex]
    exact hs.present
  · rw [hborrows, hindex]
    exact hs.debt
  · rw [hindex]

/-! Settling. -/

theorem updateRewardBorrowIndex_follows (h : s.updateRewardBorrowIndex c = .ok s') :
    Follows asset who s s' ∧ BorrowUpdated s' c := by
  simp only [State.updateRewardBorrowIndex, bind_eq_ok, pure_eq_ok] at h
  obtain ⟨state, hstate, hs'⟩ := h
  obtain ⟨delta, hadvanced, hsame, -⟩ := advance_ok hstate
  have hself : s'.rewards.borrowState c = state := hs' ▸ Function.update_self _ _ _
  have hblock : s'.blockNumber = s.blockNumber := hs' ▸ rfl
  have hborrows : s'.accountBorrows = s.accountBorrows := hs' ▸ rfl
  have hpaid : s'.rewards.borrowerIndex = s.rewards.borrowerIndex := hs' ▸ rfl
  have hevents : s'.rewards.events = s.rewards.events := hs' ▸ rfl
  have hrewards : s'.borrowRewards asset who = s.borrowRewards asset who := by
    unfold State.borrowRewards
    rw [hevents]
  have hsettlements : s'.settlements asset who = s.settlements asset who := by
    unfold State.settlements
    rw [hevents]
  have hindexed : DebtIndexed s asset who → DebtIndexed s' asset who ∧
      (s.borrowIndex asset).inner ≤ (s'.borrowIndex asset).inner :=
    DebtIndexed.congr (hs' ▸ rfl) (hs' ▸ rfl) (hs' ▸ rfl)
  have hupdated : BorrowUpdated s' c := by
    unfold BorrowUpdated
    rw [hself, hadvanced, hblock]
    exact Nat.le_max_right _ _
  refine ⟨?_, hupdated⟩
  by_cases hc : asset = c
  · subst c
    have hindex : s'.borrowRewardIndex asset = s.borrowRewardIndex asset + delta := by
      unfold State.borrowRewardIndex
      rw [hself, hadvanced]
      push_cast
      rfl
    have hbase : s'.borrowBase asset who = s.borrowBase asset who := by
      unfold State.borrowBase
      rw [hborrows]
    have hgap : s'.borrowGap asset who = s.borrowGap asset who + delta := by
      unfold State.borrowGap
      rw [hindex, hpaid]
      ring
    refine ⟨hblock, ?_, ?_, fun hne => absurd (by rw [hborrows]) hne, hindexed, ?_, ?_⟩
    · intro hs
      refine ⟨hupdated, ?_⟩
      rw [hindex, hsame hs]
      exact add_zero _
    · intro hs
      refine ⟨hupdated, ?_⟩
      rw [hpaid, hs.2, hself, hadvanced, hsame hs.1]
      rfl
    · intro _
      unfold State.borrowDue
      rw [hrewards, hbase, hgap, hindex]
      linarith
    · intro _ part _
      unfold State.borrowDueLeast
      rw [hrewards, hsettlements, hpaid, hbase, hgap, hindex]
      linarith
  · apply SameBorrowSide.follows
    refine ⟨hblock, by rw [hborrows], ?_, by rw [hpaid], hrewards, hsettlements, hindexed⟩
    exact hs' ▸ Function.update_of_ne hc _ _

omit [DecidableEq AccountId] in
theorem baseBorrowAmount_ok {n b : ℕ} (h : s.baseBorrowAmount asset n = .ok b) :
    0 < (s.borrowIndex asset).inner ∧ b = FixedU128.accuracy * FixedU128.accuracy /
      (s.borrowIndex asset).inner * n / FixedU128.accuracy := by
  simp only [State.baseBorrowAmount, FixedU128.reciprocal, FixedU128.checkedDiv,
    FixedU128.checkedMulInt, FixedU128.one, okOr_eq_ok, Option.bind_eq_some_iff,
    Option.map_eq_some_iff, U128.mulDiv_eq_some] at h
  obtain ⟨_, ⟨_, ⟨hpos, rfl, -⟩, rfl⟩, -, rfl, -⟩ := h
  exact ⟨hpos, rfl⟩

omit [DecidableEq AccountId] in
theorem settledBase_bounds {d b : ℕ} (hd : s.currentBorrowBalance who asset = .ok d)
    (hb : s.baseBorrowAmount asset d = .ok b) (hs : DebtIndexed s asset who) :
    (b : ℚ) ≤ s.borrowBase asset who ∧
      (1 - truncation (s.borrowIndex asset)) * s.borrowBase asset who - 2 ≤ b := by
  obtain ⟨hpos, rfl⟩ := baseBorrowAmount_ok hb
  simp only [State.currentBorrowBalance] at hd
  split at hd
  · rename_i hzero
    simp only [pure_eq_ok] at hd
    subst hd
    have hbase : s.borrowBase asset who = 0 := by
      unfold State.borrowBase
      rcases hzero with hprincipal | hindex
      · rw [hprincipal]
        simp
      · rw [hindex]
        simp
    rw [hbase]
    simp
  · rename_i hdebt
    rw [not_or] at hdebt
    simp only [okOr_eq_ok, FixedU128.checkedDiv, FixedU128.checkedMulInt, Option.bind_eq_some_iff,
      Option.map_eq_some_iff, U128.mulDiv_eq_some] at hd
    obtain ⟨_, ⟨_, ⟨hsnapshot, rfl, -⟩, rfl⟩, -, rfl, -⟩ := hd
    obtain ⟨hone, hle⟩ := hs.debt.resolve_left hdebt.1
    exact rescaled_bounds (by decide) hone hle

theorem distributed_events {n index : ℕ}
    (h : s'.rewards.events = .distributedBorrowerReward c borrower n index :: s.rewards.events) :
    s'.borrowRewards asset who =
        (if c = asset ∧ borrower = who then n else 0) + s.borrowRewards asset who ∧
      s'.settlements asset who =
        (if c = asset ∧ borrower = who then 1 else 0) + s.settlements asset who := by
  unfold State.borrowRewards State.settlements
  rw [h, List.map_cons, List.sum_cons, List.map_cons, List.sum_cons]
  exact ⟨rfl, rfl⟩

omit [DecidableEq AccountId] in
theorem borrowBase_nonneg (s : State cfg) (asset : CurrencyId) (who : AccountId) :
    0 ≤ s.borrowBase asset who := by
  unfold State.borrowBase
  positivity

theorem distributeBorrowerReward_credits (h : s.distributeBorrowerReward asset borrower = .ok s') :
    ∃ d b n, s.currentBorrowBalance borrower asset = .ok d ∧ s.baseBorrowAmount asset d = .ok b ∧
      s.rewards.borrowerIndex asset borrower ≤ (s.rewards.borrowState asset).index ∧
      n = b * ((s.rewards.borrowState asset).index - s.rewards.borrowerIndex asset borrower) /
        rewardScale ∧
      ∃ accrued, s' = s.withRewards { s.rewards with
        borrowerIndex := Function.update s.rewards.borrowerIndex asset
          (Function.update (s.rewards.borrowerIndex asset) borrower
            (s.rewards.borrowState asset).index)
        accrued := accrued
        events := .distributedBorrowerReward asset borrower n
          (s.rewards.borrowState asset).index :: s.rewards.events } := by
  simp only [State.distributeBorrowerReward, calculateRewardDelta, toU128, bind_eq_ok, okOr_eq_ok,
    ensure_eq_ok, pure_eq_ok, U128.checkedSub_eq_some] at h
  obtain ⟨_, ⟨hle, rfl⟩, d, hd, b, hb, _, ⟨_, -, rfl⟩, accrued, -, rfl⟩ := h
  exact ⟨d, b, _, hd, hb, hle, rfl, _, rfl⟩

theorem distributeBorrowerReward_follows (h : s.distributeBorrowerReward c borrower = .ok s') :
    Follows asset who s s' ∧ (BorrowUpdated s c → BorrowerSettled s' c borrower) := by
  obtain ⟨d, b, n, hd, hb, hle, hn, accrued, hs'⟩ := distributeBorrowerReward_credits h
  have hself : s'.rewards.borrowerIndex c = Function.update (s.rewards.borrowerIndex c) borrower
      (s.rewards.borrowState c).index := hs' ▸ Function.update_self _ _ _
  have hstate : s'.rewards.borrowState = s.rewards.borrowState := hs' ▸ rfl
  have hblock : s'.blockNumber = s.blockNumber := hs' ▸ rfl
  have hborrows : s'.accountBorrows = s.accountBorrows := hs' ▸ rfl
  have hborrowIndex : s'.borrowIndex = s.borrowIndex := hs' ▸ rfl
  have hevents : s'.rewards.events = .distributedBorrowerReward c borrower n
      (s.rewards.borrowState c).index :: s.rewards.events := hs' ▸ rfl
  have hindexed : DebtIndexed s asset who → DebtIndexed s' asset who ∧
      (s.borrowIndex asset).inner ≤ (s'.borrowIndex asset).inner :=
    DebtIndexed.congr (hs' ▸ rfl) (by rw [hborrowIndex]) (by rw [hborrows])
  have hupdated : ∀ c, BorrowUpdated s c → BorrowUpdated s' c := by
    intro c hs
    unfold BorrowUpdated
    rw [hblock, hstate]
    exact hs
  have hsettled : BorrowUpdated s c → BorrowerSettled s' c borrower := by
    intro hs
    refine ⟨hupdated c hs, ?_⟩
    rw [hself, hstate, Function.update_self]
  refine ⟨?_, hsettled⟩
  obtain ⟨hrewards, hsettlements⟩ : s'.borrowRewards asset who = _ ∧ s'.settlements asset who = _ :=
    distributed_events hevents
  by_cases hc : c = asset ∧ borrower = who
  · obtain ⟨rfl, rfl⟩ := hc
    rw [if_pos ⟨rfl, rfl⟩] at hrewards hsettlements
    have hindex : s'.borrowRewardIndex c = s.borrowRewardIndex c := by
      unfold State.borrowRewardIndex
      rw [hstate]
    have hpaid : (s'.rewards.borrowerIndex c borrower : ℚ) = s.borrowRewardIndex c := by
      rw [hself, Function.update_self]
      rfl
    have hgap : s'.borrowGap c borrower = 0 := by
      unfold State.borrowGap
      rw [hindex, hpaid, sub_self]
    have hbefore : (((s.rewards.borrowState c).index - s.rewards.borrowerIndex c borrower : ℕ) : ℚ) =
        s.borrowGap c borrower := by
      rw [Nat.cast_sub hle]
      rfl
    have hgap0 : 0 ≤ s.borrowGap c borrower := hbefore ▸ Nat.cast_nonneg _
    refine ⟨hblock, fun hs => ⟨hupdated c hs, hindex⟩, fun hs => hsettled hs.1,
      fun hne => absurd (by rw [hborrows]) hne, hindexed, ?_, ?_⟩
    · intro hs
      have hbase := (settledBase_bounds hd hb hs).1
      have hcredit : (rewardScale : ℚ) * n ≤ b * s.borrowGap c borrower := by
        rw [← hbefore, hn]
        exact_mod_cast Nat.mul_div_le _ _
      have hmul := mul_le_mul_of_nonneg_right hbase hgap0
      unfold State.borrowDue
      rw [hrewards, hgap, hindex]
      push_cast
      linarith
    · intro hs part hpart
      have hbase := (settledBase_bounds hd hb hs).2
      rw [hborrowIndex] at hpart
      have hcredit : b * s.borrowGap c borrower ≤ (rewardScale : ℚ) * n + rewardScale := by
        rw [← hbefore, hn]
        exact_mod_cast le_mul_div_add (by decide) _
      have hpart : (1 - part) * s.borrowBase c borrower ≤ b + 2 := by
        have hmul := mul_le_mul_of_nonneg_right hpart (borrowBase_nonneg s c borrower)
        linarith
      have hmul := mul_le_mul_of_nonneg_right hpart hgap0
      have hahead : s.borrowRewardIndex c =
          s.borrowGap c borrower + s.rewards.borrowerIndex c borrower := by
        unfold State.borrowGap
        ring
      unfold State.borrowDueLeast
      rw [hrewards, hsettlements, hgap, hpaid, hindex, hahead]
      push_cast
      linarith
  · rw [if_neg hc, Nat.zero_add] at hrewards hsettlements
    apply SameBorrowSide.follows
    refine ⟨hblock, by rw [hborrows], by rw [hstate], ?_, hrewards, hsettlements, hindexed⟩
    by_cases hca : c = asset
    · subst c
      have hwho : who ≠ borrower := fun heq => hc ⟨rfl, heq.symm⟩
      rw [hself, Function.update_of_ne hwho]
    · have hother : s'.rewards.borrowerIndex asset = s.rewards.borrowerIndex asset :=
        hs' ▸ Function.update_of_ne (Ne.symm hca) _ _
      rw [hother]

theorem settleBorrower_follows (h : s.settleBorrower c borrower = .ok s') :
    Follows asset who s s' ∧ BorrowerSettled s' c borrower := by
  simp only [State.settleBorrower, bind_eq_ok] at h
  obtain ⟨s₁, h₁, h₂⟩ := h
  obtain ⟨hupdate, hupdated⟩ := updateRewardBorrowIndex_follows h₁
  obtain ⟨hdistribute, hsettled⟩ := distributeBorrowerReward_follows h₂
  exact ⟨hupdate.trans hdistribute, hsettled hupdated⟩

theorem settleBorrower_borrowIndex
    (h : s.settleBorrower asset borrower = .ok s') : 0 < (s'.borrowIndex asset).inner := by
  simp only [State.settleBorrower, State.updateRewardBorrowIndex, bind_eq_ok, pure_eq_ok] at h
  obtain ⟨_, ⟨state, -, rfl⟩, h₁⟩ := h
  obtain ⟨d, b, n, -, hb, -, -, accrued, rfl⟩ := distributeBorrowerReward_credits h₁
  exact (baseBorrowAmount_ok hb).1

/-! Writing debts. -/

theorem accountBorrows_setBorrows_ne {principal : ℕ} (h : asset ≠ c ∨ who ≠ borrower) :
    (s.setBorrows c borrower principal).accountBorrows asset who =
      s.accountBorrows asset who := by
  by_cases hc : asset = c
  · subst c
    have hwho : who ≠ borrower := h.resolve_left (not_not.mpr rfl)
    simp [State.setBorrows, hwho]
  · simp [State.setBorrows, Function.update_of_ne hc]

theorem setBorrows_indexed {principal : ℕ}
    (hindex : 0 < (s.borrowIndex c).inner) (hs : DebtIndexed s asset who) :
    DebtIndexed (s.setBorrows c borrower principal) asset who := by
  refine ⟨hs.absent, hs.present, ?_⟩
  by_cases hc : asset = c ∧ who = borrower
  · obtain ⟨rfl, rfl⟩ := hc
    have hwritten : (s.setBorrows asset who principal).accountBorrows asset who =
        ⟨principal, s.borrowIndex asset⟩ := by
      simp [State.setBorrows]
    rw [hwritten]
    rcases hs.present with hzero | hone
    · omega
    · exact Or.inr ⟨hone, Nat.le_refl _⟩
  · rw [accountBorrows_setBorrows_ne (not_and_or.mp hc)]
    exact hs.debt

theorem setBorrows_follows {principal : ℕ}
    (hsettled : BorrowerSettled s c borrower) (hindex : 0 < (s.borrowIndex c).inner) :
    Follows asset who s (s.setBorrows c borrower principal) := by
  have hindexed : DebtIndexed s asset who →
      DebtIndexed (s.setBorrows c borrower principal) asset who ∧
        (s.borrowIndex asset).inner ≤ (s.borrowIndex asset).inner :=
    fun hs => ⟨setBorrows_indexed hindex hs, Nat.le_refl _⟩
  by_cases hc : asset = c ∧ who = borrower
  · obtain ⟨rfl, rfl⟩ := hc
    have hgap : s.borrowGap asset who = 0 := by
      unfold State.borrowGap State.borrowRewardIndex
      rw [hsettled.2, sub_self]
    have hgap' : (s.setBorrows asset who principal).borrowGap asset who = 0 := hgap
    have hstays : (s.setBorrows asset who principal).borrowRewardIndex asset =
        s.borrowRewardIndex asset := rfl
    have hrewards : (s.setBorrows asset who principal).borrowRewards asset who =
        s.borrowRewards asset who := rfl
    have hsettlements : (s.setBorrows asset who principal).settlements asset who =
        s.settlements asset who := rfl
    have hpaid : (s.setBorrows asset who principal).rewards.borrowerIndex asset who =
        s.rewards.borrowerIndex asset who := rfl
    refine ⟨rfl, fun hs => ⟨hs, rfl⟩, fun hs => hs, fun _ => hsettled, hindexed, ?_, ?_⟩
    · intro _
      unfold State.borrowDue
      rw [hrewards, hgap, hgap', hstays]
      linarith
    · intro _ part _
      unfold State.borrowDueLeast
      rw [hrewards, hsettlements, hpaid, hgap, hgap', hstays]
      linarith
  · apply SameBorrowSide.follows
    refine ⟨rfl, ?_, rfl, rfl, rfl, rfl, hindexed⟩
    exact accountBorrows_setBorrows_ne (not_and_or.mp hc)

omit [DecidableEq AccountId] in
theorem incrementIndex_zero {rate r index : FixedU128} {time : ℕ}
    (h : incrementIndex rate index time = some r) (hindex : index.inner = 0) : r.inner = 0 := by
  simp only [incrementIndex, FixedU128.checkedMul, FixedU128.checkedDiv, hindex, bind,
    Option.bind_eq_some_iff, Option.map_eq_some_iff, U128.mulDiv_eq_some] at h
  obtain ⟨_, ⟨_, ⟨-, rfl, -⟩, rfl⟩, _, ⟨_, ⟨-, rfl, -⟩, rfl⟩, _, ⟨-, rfl, -⟩, rfl⟩ := h
  simp

omit [DecidableEq AccountId] in
theorem accrueInterest_borrowIndex (h : s.accrueInterest asset = .ok s') :
    s'.borrowIndex asset = s.borrowIndex asset ∨ ((s.markets.get asset).isSome ∧
      (s.borrowIndex asset).inner ≤ (s'.borrowIndex asset).inner ∧
      ((s.borrowIndex asset).inner = 0 → (s'.borrowIndex asset).inner = 0)) := by
  rcases accrueInterest_ok h with ⟨-, rfl⟩ | ⟨-, rfl⟩ | ⟨status, hlast, hstatus, rfl⟩
  · exact Or.inl rfl
  · exact Or.inl rfl
  · right
    obtain ⟨market, _, _, hmarket, -, -, hinterest, -⟩ := getMarketStatus_ok hstatus hlast
    obtain ⟨_, -, -, -, hindex⟩ := addInterest_ok hinterest
    simp only [FixedU128.checkedAdd, Option.bind_eq_some_iff, Option.map_eq_some_iff,
      U128.checkedAdd_eq_some] at hindex
    obtain ⟨r, hr, _, ⟨rfl, -⟩, hstatus⟩ := hindex
    have hsaved : ((s.updateLastAccruedInterestTime asset s.now).saveMarketStatus asset
        status).borrowIndex asset = status.borrowIndex := Function.update_self _ _ _
    rw [hsaved, ← hstatus, hmarket]
    refine ⟨rfl, Nat.le_add_left _ _, ?_⟩
    intro hzero
    show r.inner + (s.borrowIndex asset).inner = 0
    rw [incrementIndex_zero hr hzero, hzero]

theorem accrueInterest_follows (h : s.accrueInterest c = .ok s') : Follows asset who s s' := by
  have hframe := accrueInterest_frame h
  apply SameBorrowSide.follows
  refine ⟨hframe.blockNumber, by rw [hframe.accountBorrows], by rw [hframe.rewards],
    by rw [hframe.rewards], ?_, ?_, ?_⟩
  · unfold State.borrowRewards
    rw [hframe.rewards]
  · unfold State.settlements
    rw [hframe.rewards]
  · by_cases hc : asset = c
    · subst c
      rcases accrueInterest_borrowIndex h with hsame | ⟨hsome, hle, hzero⟩
      · exact DebtIndexed.congr hframe.markets hsame (by rw [hframe.accountBorrows])
      · intro hs
        refine ⟨⟨?_, ?_, ?_⟩, hle⟩
        · rw [hframe.markets]
          intro hnone
          rw [Option.isNone_iff_eq_none] at hnone
          rw [hnone] at hsome
          contradiction
        · exact hs.present.imp hzero (fun hone => hone.trans hle)
        · rw [hframe.accountBorrows]
          exact hs.debt.imp_right (fun hdebt => ⟨hdebt.1, hdebt.2.trans hle⟩)
    · exact DebtIndexed.congr hframe.markets (hframe.borrowIndex asset hc)
        (by rw [hframe.accountBorrows])

/-! Everything else. -/

theorem follows_of_eq (hblock : s'.blockNumber = s.blockNumber)
    (hborrows : s'.accountBorrows = s.accountBorrows) (hrewards : s'.rewards = s.rewards)
    (hmarkets : s'.markets = s.markets) (hindex : s'.borrowIndex = s.borrowIndex) :
    Follows asset who s s' := by
  apply SameBorrowSide.follows
  refine ⟨hblock, by rw [hborrows], by rw [hrewards], by rw [hrewards], ?_, ?_, ?_⟩
  · unfold State.borrowRewards
    rw [hrewards]
  · unfold State.settlements
    rw [hrewards]
  · exact DebtIndexed.congr hmarkets (by rw [hindex]) (by rw [hborrows])

theorem Follows.refl (s : State cfg) : Follows asset who s s := follows_of_eq rfl rfl rfl rfl rfl

theorem transfer_follows {source dest : AccountId} {p : Preservation}
    (h : s.transfer c source dest n p = .ok s') : Follows asset who s s' := by
  obtain ⟨L, -, rfl⟩ := transfer_ok h
  exact follows_of_eq rfl rfl rfl rfl rfl

theorem setDebt_follows {principal borrows : ℕ}
    (hsettled : BorrowerSettled s c borrower) (hindex : 0 < (s.borrowIndex c).inner) :
    Follows asset who s ((s.setBorrows c borrower principal).setTotalBorrows c borrows) :=
  (setBorrows_follows hsettled hindex).trans (follows_of_eq rfl rfl rfl rfl rfl)

omit [DecidableEq AccountId] in
theorem transfer_borrowIndex {source dest : AccountId}
    {p : Preservation} (h : s.transfer c source dest n p = .ok s') :
    s'.borrowIndex = s.borrowIndex := by
  obtain ⟨L, -, rfl⟩ := transfer_ok h
  rfl

theorem updateRewardSupplyIndex_follows
    (h : s.updateRewardSupplyIndex c = .ok s') : Follows asset who s s' := by
  simp only [State.updateRewardSupplyIndex, bind_eq_ok, pure_eq_ok] at h
  obtain ⟨state, -, rfl⟩ := h
  apply SameBorrowSide.follows
  exact ⟨rfl, rfl, rfl, rfl, rfl, rfl, DebtIndexed.congr rfl rfl rfl⟩

theorem settleSuppliers_follows {suppliers : List AccountId}
    (h : s.settleSuppliers c suppliers = .ok s') : Follows asset who s s' := by
  simp only [State.settleSuppliers, bind_eq_ok] at h
  obtain ⟨s₁, h₁, h₂⟩ := h
  apply (updateRewardSupplyIndex_follows h₁).trans
  apply foldlM_rel (R := Follows asset who) Follows.refl .trans _ h₂
  intro s supplier s' h
  simp only [State.distributeSupplierReward, bind_eq_ok, pure_eq_ok] at h
  obtain ⟨_, -, n, -, _, -, rfl⟩ := h
  apply SameBorrowSide.follows
  exact ⟨rfl, rfl, rfl, rfl, Nat.zero_add _, Nat.zero_add _, DebtIndexed.congr rfl rfl rfl⟩

theorem updateEarnedStored_follows {rate : FixedU128}
    (h : s.updateEarnedStored supplier c rate = .ok s') : Follows asset who s s' := by
  obtain ⟨-, total, rfl⟩ := updateEarnedStored_ok h
  exact follows_of_eq rfl rfl rfl rfl rfl

theorem addVouchers_follows {holder : AccountId}
    (h : s.addVouchers c holder n = .ok s') : Follows asset who s s' := by
  obtain rfl := addVouchers_ok h
  exact follows_of_eq rfl rfl rfl rfl rfl

theorem removeVouchers_follows {holder : AccountId}
    (h : s.removeVouchers c holder n = .ok s') : Follows asset who s s' := by
  obtain ⟨-, o, rfl, -⟩ := removeVouchers_ok h
  exact follows_of_eq rfl rfl rfl rfl rfl

theorem setSupply_follows {supply : ℕ} : Follows asset who s (s.setSupply c supply) :=
  follows_of_eq rfl rfl rfl rfl rfl

/-! The operations. -/

theorem mint_follows (h : doMint s supplier c n = .ok s') : Follows asset who s s' := by
  obtain ⟨-, s₁, s₂, s₃, s₄, rate, v, h₁, ⟨rewards, -, h₂⟩, -, h₃, -, -, h₄, s₅, h₅, rfl⟩ :=
    doMint_ok h
  exact ((((accrueInterest_follows h₁).trans (settleSuppliers_follows h₂)).trans
    (updateEarnedStored_follows h₃)).trans (transfer_follows h₄)).trans
      ((addVouchers_follows h₅).trans setSupply_follows)

theorem redeemVoucher_follows {v paid : ℕ}
    (h : doRedeemVoucher s supplier c v = .ok (paid, s')) : Follows asset who s s' := by
  obtain ⟨-, s₁, s₂, rate, ⟨rewards, -, h₁⟩, -, -, h₂, -, h₃⟩ := doRedeemVoucher_ok h
  exact ((settleSuppliers_follows h₁).trans (removeVouchers_follows h₂)).trans
    (setSupply_follows.trans (transfer_follows h₃))

theorem redeem_follows {n paid : ℕ}
    (h : doRedeem s supplier c n = .ok (paid, s')) : Follows asset who s s' := by
  obtain ⟨s₁, s₂, rate, v, h₁, -, h₂, -, h₃⟩ := doRedeem_ok h
  exact ((accrueInterest_follows h₁).trans (updateEarnedStored_follows h₂)).trans
    (redeemVoucher_follows h₃)

theorem redeemAll_follows {paid : ℕ}
    (h : doRedeemAll s supplier c = .ok (paid, s')) : Follows asset who s s' := by
  obtain ⟨s₁, s₂, rate, h₁, -, h₂, h₃⟩ := doRedeemAll_ok h
  exact ((accrueInterest_follows h₁).trans (updateEarnedStored_follows h₂)).trans
    (redeemVoucher_follows h₃)

theorem borrow_follows (h : doBorrow s borrower c n = .ok s') : Follows asset who s s' := by
  obtain ⟨s₁, s₂, borrows, h₁, -, -, ⟨rewards, -, h₂⟩, -, h₃⟩ := doBorrow_ok h
  obtain ⟨hsettle, hsettled⟩ := settleBorrower_follows h₂
  exact ((accrueInterest_follows h₁).trans hsettle).trans
    ((setDebt_follows hsettled (settleBorrower_borrowIndex h₂)).trans (transfer_follows h₃))

theorem repay_follows (h : doRepayBorrow s borrower c n = .ok s') : Follows asset who s s' := by
  obtain ⟨s₁, borrows, h₁, -, h₂⟩ := doRepayBorrow_ok h
  obtain ⟨-, s₂, s₃, ⟨rewards, -, h₃⟩, h₄, rfl⟩ := doRepayBorrowWithAmount_ok h₂
  obtain ⟨hsettle, hsettled⟩ := settleBorrower_follows h₃
  have hpaid : Follows c borrower s₂ s₃ := transfer_follows h₄
  have hindex : 0 < (s₃.borrowIndex c).inner :=
    transfer_borrowIndex h₄ ▸ settleBorrower_borrowIndex h₃
  exact (((accrueInterest_follows h₁).trans hsettle).trans (transfer_follows h₄)).trans
    (setDebt_follows (hpaid.settled hsettled) hindex)

/-! Liquidation. -/

/-- The borrower was paid up to the reward index that the liquidation finds. -/
def DebtorPaid (s : State cfg) (asset : CurrencyId) (borrower : AccountId) : Prop :=
  Ensures (s.updateRewardBorrowIndex asset) fun s =>
    s.rewards.borrowerIndex asset borrower = (s.rewards.borrowState asset).index

/-- A liquidation that leaves the borrower settled, who is not the account it settles. -/
def DebtorSettled (s : State cfg) : Call AccountId → Prop
  | .liquidateBorrow _ borrower asset _ collateral => Ensures (s.accrueInterest asset) fun s =>
    Ensures (s.accrueInterest collateral) fun s => DebtorPaid s asset borrower
  | _ => True

theorem repayForBorrower_follows
    (h : repayForBorrower s liquidator borrower c n = .ok s') (hdebtor : DebtorPaid s c borrower) :
    Follows asset who s s' := by
  obtain ⟨s₂, s₃, borrows, ⟨rewards, -, h₂⟩, h₃, -, -, -, rfl⟩ := repayForBorrower_ok h
  obtain ⟨hsettle, -⟩ := settleBorrower_follows h₂
  have hsettled : BorrowerSettled s₂ c borrower := by
    simp only [State.settleBorrower, bind_eq_ok] at h₂
    obtain ⟨s₁, h₁, h₂⟩ := h₂
    obtain ⟨-, hupdated⟩ : Follows c borrower s s₁ ∧ BorrowUpdated s₁ c :=
      updateRewardBorrowIndex_follows h₁
    obtain ⟨hdistribute, -⟩ : Follows c borrower s₁ s₂ ∧ _ := distributeBorrowerReward_follows h₂
    exact hdistribute.settled ⟨hupdated, hdebtor.of_ok h₁⟩
  have hpaid : Follows c borrower s₂ s₃ := transfer_follows h₃
  have hindex : 0 < (s₃.borrowIndex c).inner :=
    transfer_borrowIndex h₃ ▸ settleBorrower_borrowIndex h₂
  exact (hsettle.trans (transfer_follows h₃)).trans
    (setDebt_follows (hpaid.settled hsettled) hindex)

theorem repayForBorrower_indexed
    (h : repayForBorrower s liquidator borrower c n = .ok s') (hs : DebtIndexed s asset who) :
    DebtIndexed s' asset who := by
  obtain ⟨s₂, s₃, borrows, ⟨rewards, -, h₂⟩, h₃, -, -, -, rfl⟩ := repayForBorrower_ok h
  obtain ⟨hsettle, -⟩ := settleBorrower_follows h₂
  have hpaid := ((hsettle.trans (transfer_follows h₃)).indexed hs).1
  have hindex : 0 < (s₃.borrowIndex c).inner :=
    transfer_borrowIndex h₃ ▸ settleBorrower_borrowIndex h₂
  have hwritten : DebtIndexed (s₃.setBorrows c borrower (borrows - n)) asset who :=
    setBorrows_indexed hindex hpaid
  exact ⟨hwritten.absent, hwritten.present, hwritten.debt⟩

theorem seizeCollateral_follows {amount : ℕ}
    {market : Market} (h : seizeCollateral s liquidator borrower c amount market = .ok s') :
    Follows asset who s s' := by
  obtain ⟨s₁, s₂, s₃, rate, v, reserved, ⟨rewards, -, h₁⟩, -, -, h₂, -, h₃, h₄⟩ :=
    seizeCollateral_ok h
  obtain ⟨-, rfl⟩ := seizeVouchers_ok h₂
  have hseized : Follows asset who s₁ (s₁.setDeposits c borrower
      (some { s₁.depositsOf c borrower with
        voucherBalance := (s₁.depositsOf c borrower).voucherBalance - v })) :=
    follows_of_eq rfl rfl rfl rfl rfl
  exact ((settleSuppliers_follows h₁).trans hseized).trans
    ((addVouchers_follows h₃).trans (addVouchers_follows h₄))

theorem liquidate_follows {c collateral : CurrencyId}
    (h : liquidateBorrow s liquidator borrower c n collateral = .ok s')
    (hdebtor : DebtorSettled s (.liquidateBorrow liquidator borrower c n collateral)) :
    Follows asset who s s' := by
  obtain ⟨s₁, s₂, s₃, market, amount, h₁, h₂, -, -, -, -, h₃, h₄⟩ := liquidateBorrow_ok h
  have hpaid := (hdebtor.of_ok h₁).of_ok h₂
  exact ((accrueInterest_follows h₁).trans (accrueInterest_follows h₂)).trans
    ((repayForBorrower_follows h₃ hpaid).trans (seizeCollateral_follows h₄))

theorem liquidate_indexed {c collateral : CurrencyId}
    (h : liquidateBorrow s liquidator borrower c n collateral = .ok s')
    (hs : DebtIndexed s asset who) : DebtIndexed s' asset who := by
  obtain ⟨s₁, s₂, s₃, market, amount, h₁, h₂, -, -, -, -, h₃, h₄⟩ := liquidateBorrow_ok h
  have haccrued := (((accrueInterest_follows h₁).trans (accrueInterest_follows h₂)).indexed hs).1
  exact ((seizeCollateral_follows h₄).indexed (repayForBorrower_indexed h₃ haccrued)).1

theorem transferLendToken_follows {source dest : AccountId} {token : CurrencyId}
    (h : transferLendToken s token source dest n = .ok s') : Follows asset who s s' := by
  obtain ⟨-, s₁, s₂, underlying, ⟨rewards, -, h₁⟩, -, h₂, h₃⟩ := transferLendToken_ok h
  exact ((settleSuppliers_follows h₁).trans (removeVouchers_follows h₂)).trans
    (addVouchers_follows h₃)

theorem doCollateralAsset_follows {enable : Bool}
    (h : doCollateralAsset s supplier c enable = .ok s') : Follows asset who s s' := by
  obtain ⟨-, rfl, -⟩ := doCollateralAsset_ok h
  exact follows_of_eq rfl rfl rfl rfl rfl

theorem collectMarketReward_follows {user : AccountId}
    (h : s.collectMarketReward c user = .ok s') : Follows asset who s s' := by
  simp only [State.collectMarketReward, bind_eq_ok] at h
  obtain ⟨s₁, h₁, s₂, h₂, s₃, h₃, h₄⟩ := h
  have hborrower : s₂.settleBorrower c user = .ok s' := bind_eq_ok.mpr ⟨s₃, h₃, h₄⟩
  exact (settleSuppliers_follows (settleSuppliers_one h₁ h₂)).trans
    (settleBorrower_follows hborrower).1

theorem payReward_follows {user : AccountId} (h : s.payReward user = .ok s') :
    Follows asset who s s' := by
  simp only [State.payReward] at h
  split at h
  · simp only [pure_eq_ok] at h
    exact h ▸ .refl s
  · simp only [bind_eq_ok, pure_eq_ok] at h
    obtain ⟨s₁, h₁, rfl⟩ := h
    apply (transfer_follows h₁).trans
    apply SameBorrowSide.follows
    exact ⟨rfl, rfl, rfl, rfl, rfl, rfl, DebtIndexed.congr rfl rfl rfl⟩

theorem updateSupplySpeed_follows {speed : ℕ}
    (h : updateSupplySpeed s c speed = .ok s') : Follows asset who s s' := by
  unfold updateSupplySpeed at h
  split at h
  · simp only [pure_eq_ok] at h
    exact h ▸ .refl s
  · simp only [bind_eq_ok, pure_eq_ok] at h
    obtain ⟨s₁, h₁, rfl⟩ := h
    apply (updateRewardSupplyIndex_follows h₁).trans
    apply SameBorrowSide.follows
    exact ⟨rfl, rfl, rfl, rfl, rfl, rfl, DebtIndexed.congr rfl rfl rfl⟩

theorem updateBorrowSpeed_follows {speed : ℕ}
    (h : updateBorrowSpeed s c speed = .ok s') : Follows asset who s s' := by
  unfold updateBorrowSpeed at h
  split at h
  · simp only [pure_eq_ok] at h
    exact h ▸ .refl s
  · simp only [bind_eq_ok, pure_eq_ok] at h
    obtain ⟨s₁, h₁, rfl⟩ := h
    apply (updateRewardBorrowIndex_follows h₁).1.trans
    apply SameBorrowSide.follows
    exact ⟨rfl, rfl, rfl, rfl, rfl, rfl, DebtIndexed.congr rfl rfl rfl⟩

theorem administers_indexed {a : Call AccountId} (ha : a.administers = true)
    (h : step s a = .ok s') (hs : DebtIndexed s asset who) : DebtIndexed s' asset who ∧
      (s.borrowIndex asset).inner ≤ (s'.borrowIndex asset).inner := by
  have hframe := step_administers ha h
  rcases hframe.borrowIndex asset with hsame | ⟨hnone, hsome, hone⟩
  · refine ⟨⟨?_, ?_, ?_⟩, ?_⟩
    · intro hnone
      rw [hsame]
      exact hs.absent (hframe.markets asset hnone)
    · rw [hsame]
      exact hs.present
    · rw [hframe.accountBorrows, hsame]
      exact hs.debt
    · rw [hsame]
  · have hzero : (s.borrowIndex asset).inner = 0 := hs.absent (by rw [hnone]; rfl)
    refine ⟨⟨?_, ?_, ?_⟩, ?_⟩
    · intro hnone'
      rw [Option.isNone_iff_eq_none] at hnone'
      rw [hnone'] at hsome
      contradiction
    · rw [hone]
      exact Or.inr (Nat.le_refl _)
    · rw [hframe.accountBorrows]
      rcases hs.debt with hprincipal | ⟨hpos, hle⟩
      · exact Or.inl hprincipal
      · rw [hzero] at hle
        have hpos : 0 < FixedU128.accuracy := by decide
        omega
    · rw [hzero]
      exact Nat.zero_le _

theorem step_follows {a : Call AccountId} (hblocks : a.blocks = 0) (hdebtor : DebtorSettled s a)
    (h : step s a = .ok s') : Follows asset who s s' := by
  by_cases hadmin : a.administers = true
  · have hframe := step_administers hadmin h
    have hblock := step_blockNumber hadmin h
    apply SameBorrowSide.follows
    refine ⟨hblock.trans (by omega), by rw [hframe.accountBorrows], by rw [hframe.rewards],
      by rw [hframe.rewards], ?_, ?_, administers_indexed hadmin h⟩
    · unfold State.borrowRewards
      rw [hframe.rewards]
    · unfold State.settlements
      rw [hframe.rewards]
  · cases a with
    | mint supplier c n => exact mint_follows h
    | redeem supplier c n =>
      simp only [step, bind_eq_ok, pure_eq_ok] at h
      obtain ⟨_, -, ⟨paid, s₁⟩, h₁, rfl⟩ := h
      exact redeem_follows h₁
    | doRedeem supplier c n =>
      simp only [step, bind_eq_ok, pure_eq_ok] at h
      obtain ⟨⟨paid, s₁⟩, h₁, rfl⟩ := h
      exact redeem_follows h₁
    | redeemAll supplier c =>
      simp only [step, bind_eq_ok, pure_eq_ok] at h
      obtain ⟨⟨paid, s₁⟩, h₁, rfl⟩ := h
      exact redeemAll_follows h₁
    | reduceIncentiveReserves receiver c n =>
      obtain ⟨rate, v, paid, s₁, -, -, h₁, h₂⟩ := reduceIncentiveReserves_ok h
      exact (redeemVoucher_follows h₁).trans (transfer_follows h₂)
    | addReward payer n =>
      simp only [step, addReward, bind_eq_ok] at h
      obtain ⟨_, -, h⟩ := h
      exact transfer_follows h
    | withdrawMissingReward target n =>
      simp only [step, withdrawMissingReward, bind_eq_ok] at h
      obtain ⟨_, -, h⟩ := h
      exact transfer_follows h
    | updateMarketRewardSpeed c supply borrow =>
      simp only [step, updateMarketRewardSpeed, bind_eq_ok] at h
      obtain ⟨_, -, s₁, h₁, h₂⟩ := h
      exact (updateSupplySpeed_follows h₁).trans (updateBorrowSpeed_follows h₂)
    | claimReward user =>
      simp only [step, claimReward, bind_eq_ok] at h
      obtain ⟨s₁, h₁, h₂⟩ := h
      have hcollected : Follows asset who s s₁ :=
        foldlM_rel Follows.refl .trans (fun _ _ _ => collectMarketReward_follows) h₁
      exact hcollected.trans (payReward_follows h₂)
    | claimRewardForMarket user c =>
      simp only [step, claimRewardForMarket, bind_eq_ok] at h
      obtain ⟨s₁, h₁, h₂⟩ := h
      exact (collectMarketReward_follows h₁).trans (payReward_follows h₂)
    | borrow borrower c n => exact borrow_follows h
    | repayBorrow borrower c n => exact repay_follows h
    | repayBorrowAll borrower c =>
      obtain ⟨s₁, borrows, h₁, -, h₂⟩ := repayBorrowAll_ok h
      exact (accrueInterest_follows h₁).trans (repay_follows h₂)
    | collateralAsset supplier c enable =>
      exact doCollateralAsset_follows (collateralAsset_ok h).2
    | doCollateralAsset supplier c enable => exact doCollateralAsset_follows h
    | liquidateBorrow liquidator borrower c n collateral => exact liquidate_follows h hdebtor
    | addReserves payer c n =>
      obtain ⟨s₁, h₁, rfl⟩ := addReserves_ok h
      exact (transfer_follows h₁).trans (follows_of_eq rfl rfl rfl rfl rfl)
    | reduceReserves receiver c n =>
      obtain ⟨-, h₁⟩ := reduceReserves_ok h
      have hreserves : Follows asset who s { s with
          totalReserves := Function.update s.totalReserves c (s.totalReserves c - n) } :=
        follows_of_eq rfl rfl rfl rfl rfl
      exact hreserves.trans (transfer_follows h₁)
    | accrueInterest c => exact accrueInterest_follows h
    | moveAssets c source dest n => exact transfer_follows h
    | transferLendToken token source dest n => exact transferLendToken_follows h
    | _ => exact absurd rfl hadmin

theorem step_indexed {a : Call AccountId} (h : step s a = .ok s')
    (hs : DebtIndexed s asset who) : DebtIndexed s' asset who := by
  by_cases hadmin : a.administers = true
  · exact (administers_indexed hadmin h hs).1
  · cases a with
    | liquidateBorrow liquidator borrower c n collateral => exact liquidate_indexed h hs
    | advance seconds blocks => exact absurd rfl hadmin
    | _ =>
      refine ((step_follows ?_ ?_ h).indexed hs).1
      · rfl
      · trivial

/-- What one step does to the reward an account is due, and to its debt. -/
structure StepFollows (asset : CurrencyId) (who : AccountId) (s s' : State cfg) : Prop where
  indexed : DebtIndexed s' asset who
  borrowIndex : (s.borrowIndex asset).inner ≤ (s'.borrowIndex asset).inner
  changed : s'.accountBorrows asset who ≠ s.accountBorrows asset who →
    BorrowerSettled s' asset who
  atMost : s'.borrowDue asset who ≤ s.borrowDue asset who +
    s.borrowBase asset who * (s'.borrowRewardIndex asset - s.borrowRewardIndex asset)
  atLeast : ∀ part, truncation (s'.borrowIndex asset) ≤ part →
    s.borrowDueLeast asset who part + (1 - part) * (s.borrowBase asset who *
      (s'.borrowRewardIndex asset - s.borrowRewardIndex asset)) ≤
        s'.borrowDueLeast asset who part

theorem Follows.step (h : Follows asset who s s') (hs : DebtIndexed s asset who) :
    StepFollows asset who s s' :=
  ⟨(h.indexed hs).1, (h.indexed hs).2, h.changed, h.atMost hs, h.atLeast hs⟩

theorem step_stepFollows {a : Call AccountId} (hdebtor : DebtorSettled s a)
    (hs : DebtIndexed s asset who) (h : step s a = .ok s') : StepFollows asset who s s' := by
  by_cases hblocks : a.blocks = 0
  · exact (step_follows hblocks hdebtor h).step hs
  · cases a with
    | advance seconds blocks =>
      simp only [step, pure_eq_ok] at h
      subst h
      refine ⟨⟨hs.absent, hs.present, hs.debt⟩, Nat.le_refl _, fun hne => absurd rfl hne, ?_, ?_⟩
      · show s.borrowDue asset who ≤ s.borrowDue asset who + s.borrowBase asset who *
          (s.borrowRewardIndex asset - s.borrowRewardIndex asset)
        linarith
      · intro part _
        show s.borrowDueLeast asset who part + (1 - part) * (s.borrowBase asset who *
          (s.borrowRewardIndex asset - s.borrowRewardIndex asset)) ≤
            s.borrowDueLeast asset who part
        linarith
    | _ => exact absurd rfl hblocks

omit [DecidableEq AccountId] in
theorem indexed_genesis (ledger : cfg.assets.Ledger) (prices : CurrencyId → Option FixedU128)
    (now block : ℕ) : DebtIndexed (genesis cfg ledger prices now block) asset who :=
  ⟨fun _ => rfl, Or.inl rfl, Or.inl rfl⟩

theorem indexed_run (as : List (Call AccountId)) (hs : DebtIndexed s asset who) :
    DebtIndexed (run step s as) asset who := by
  have hstep : ∀ (s : State cfg) a s', DebtIndexed s asset who → True → step s a = .ok s' →
      DebtIndexed s' asset who := by
    intro s a s' hs _ h
    exact step_indexed h hs
  exact run_invariant (I := fun s => DebtIndexed s asset who) hstep as hs (meets_true as s)

theorem run_borrowDue {as : List (Call AccountId)} (hs : DebtIndexed s asset who)
    (has : Meets step DebtorSettled s as) :
    (s.borrowIndex asset).inner ≤ ((run step s as).borrowIndex asset).inner ∧
      (run step s as).borrowDue asset who ≤
        s.borrowDue asset who + borrowIntegral s as asset who ∧
      ∀ part, truncation ((run step s as).borrowIndex asset) ≤ part →
        s.borrowDueLeast asset who part + (1 - part) * borrowIntegral s as asset who ≤
          (run step s as).borrowDueLeast asset who part := by
  induction as generalizing s with
  | nil =>
    refine ⟨Nat.le_refl _, ?_, ?_⟩
    · show s.borrowDue asset who ≤ s.borrowDue asset who + 0
      linarith
    · intro part _
      show s.borrowDueLeast asset who part + (1 - part) * 0 ≤ s.borrowDueLeast asset who part
      linarith
  | cons a as ih =>
    have hstep : StepFollows asset who s (exec step s a) := by
      rcases exec_cases step s a with h | h
      · exact step_stepFollows (has.1 _ h) hs h
      · rw [h]
        exact (Follows.refl s).step hs
    obtain ⟨hindex, hmost, hleast⟩ := ih hstep.indexed has.2
    have hintegral : borrowIntegral s (a :: as) asset who = s.borrowBase asset who *
        ((exec step s a).borrowRewardIndex asset - s.borrowRewardIndex asset) +
          borrowIntegral (exec step s a) as asset who := rfl
    rw [run_cons, hintegral]
    refine ⟨hstep.borrowIndex.trans hindex, ?_, ?_⟩
    · have hfirst := hstep.atMost
      linarith
    · intro part hpart
      have hfirst := hstep.atLeast part ((truncation_mono hindex).trans hpart)
      have hrest := hleast part hpart
      linarith

/-- From any reachable state, over every run whose liquidations find the borrower settled: the
reward due to an account grows by the integral of its base units over the reward index, less at
most a unit of reward and two base units a settlement and the truncated part of the base units;
and a step that changes a debt leaves that account settled under an up-to-date index. -/
theorem borrow_rewards_follow_debt (ledger : cfg.assets.Ledger)
    (prices : CurrencyId → Option FixedU128) (now block : ℕ) (before as : List (Call AccountId))
    (has : Meets step DebtorSettled
      (run step (genesis cfg ledger prices now block) before) as)
    (asset : CurrencyId) (who : AccountId) :
    let s := run step (genesis cfg ledger prices now block) before
    let s' := run step s as
    let part := truncation (s'.borrowIndex asset)
    s'.borrowDue asset who - s.borrowDue asset who ≤ borrowIntegral s as asset who ∧
      (1 - part) * borrowIntegral s as asset who ≤
        s'.borrowDueLeast asset who part - s.borrowDueLeast asset who part ∧
      ∀ a s'', step s' a = .ok s'' → DebtorSettled s' a →
        s''.accountBorrows asset who ≠ s'.accountBorrows asset who →
          BorrowerSettled s'' asset who := by
  intro s s' part
  have hs : DebtIndexed s asset who := indexed_run before (indexed_genesis ledger prices now block)
  obtain ⟨-, hmost, hleast⟩ := run_borrowDue hs has
  have hleast := hleast part (le_refl _)
  refine ⟨by linarith, by linarith, ?_⟩
  intro a s'' h hdebtor hne
  exact (step_stepFollows hdebtor (indexed_run as hs) h).changed hne

/-! What is owed. -/

theorem liquidate_borrowIndex {c collateral : CurrencyId}
    (h : liquidateBorrow s liquidator borrower c n collateral = .ok s')
    (hs : DebtIndexed s asset who) :
    (s.borrowIndex asset).inner ≤ (s'.borrowIndex asset).inner := by
  obtain ⟨s₁, s₂, s₃, market, amount, h₁, h₂, -, -, -, -, h₃, h₄⟩ := liquidateBorrow_ok h
  obtain ⟨hs₂, haccrued⟩ :=
    ((accrueInterest_follows h₁).trans (accrueInterest_follows h₂)).indexed hs
  have hseized := ((seizeCollateral_follows h₄).indexed (repayForBorrower_indexed h₃ hs₂)).2
  obtain ⟨_, _, _, ⟨_, -, h₅⟩, h₆, -, -, -, rfl⟩ := repayForBorrower_ok h₃
  have hrepaid := (((settleBorrower_follows h₅).1.trans (transfer_follows h₆)).indexed hs₂).2
  exact haccrued.trans (hrepaid.trans hseized)

theorem step_borrowIndex {a : Call AccountId} (h : step s a = .ok s')
    (hs : DebtIndexed s asset who) :
    (s.borrowIndex asset).inner ≤ (s'.borrowIndex asset).inner := by
  by_cases hadmin : a.administers = true
  · exact (administers_indexed hadmin h hs).2
  · cases a with
    | liquidateBorrow liquidator borrower c n collateral => exact liquidate_borrowIndex h hs
    | advance seconds blocks => exact absurd rfl hadmin
    | _ =>
      refine ((step_follows ?_ ?_ h).indexed hs).2
      · rfl
      · trivial

omit [DecidableEq AccountId] in
theorem currentBorrowBalance_mono {n' : ℕ}
    (hborrows : s'.accountBorrows asset who = s.accountBorrows asset who)
    (hindex : (s.borrowIndex asset).inner ≤ (s'.borrowIndex asset).inner)
    (h : s.currentBorrowBalance who asset = .ok n)
    (h' : s'.currentBorrowBalance who asset = .ok n') : n ≤ n' := by
  simp only [State.currentBorrowBalance, hborrows] at h h'
  split at h
  · cases h
    exact Nat.zero_le _
  · rename_i hdebt
    rw [if_neg hdebt] at h'
    simp only [okOr_eq_ok, FixedU128.checkedDiv, FixedU128.checkedMulInt, Option.bind_eq_some_iff,
      Option.map_eq_some_iff, U128.mulDiv_eq_some] at h h'
    obtain ⟨_, ⟨_, ⟨-, rfl, -⟩, rfl⟩, -, rfl, -⟩ := h
    obtain ⟨_, ⟨_, ⟨-, rfl, -⟩, rfl⟩, -, rfl, -⟩ := h'
    have hratio := Nat.div_le_div_right (c := (s.accountBorrows asset who).borrowIndex.inner)
      (Nat.mul_le_mul_right FixedU128.accuracy hindex)
    exact Nat.div_le_div_right (Nat.mul_le_mul_right _ hratio)

/-- Over every run the borrow index does not fall, and a debt that is as it was recorded has not
shrunk. -/
theorem untouched_debt_grows (ledger : cfg.assets.Ledger)
    (prices : CurrencyId → Option FixedU128) (now block : ℕ) (before as : List (Call AccountId))
    (asset : CurrencyId) (who : AccountId) :
    let s := run step (genesis cfg ledger prices now block) before
    let s' := run step s as
    (s.borrowIndex asset).inner ≤ (s'.borrowIndex asset).inner ∧
      (s'.accountBorrows asset who = s.accountBorrows asset who → ∀ n n',
        s.currentBorrowBalance who asset = .ok n → s'.currentBorrowBalance who asset = .ok n' →
          n ≤ n') := by
  intro s s'
  have hs : DebtIndexed s asset who := indexed_run before (indexed_genesis ledger prices now block)
  obtain ⟨-, hindex⟩ := run_invariant (I := fun t => DebtIndexed t asset who ∧
      (s.borrowIndex asset).inner ≤ (t.borrowIndex asset).inner)
    (fun t a t' ht _ h => ⟨step_indexed h ht.1, ht.2.trans (step_borrowIndex h ht.1)⟩) as
    ⟨hs, le_rfl⟩ (meets_true as s)
  exact ⟨hindex, fun hsame n n' h h' => currentBorrowBalance_mono hsame hindex h h'⟩

namespace Sample

def indebted : List (Call ℕ) :=
  underwater ⟨1100000000000000000⟩ ++
    [.updateMarketRewardSpeed dot none (some 1000), .addReward 2 50000, .advance 0 10]

theorem claimed_settled : DebtorSettled
    (exec step (run step wealthy indebted) (.claimRewardForMarket 1 dot)) liquidation := by
  unfold DebtorSettled DebtorPaid liquidation
  decide +kernel

end Sample

/-- Account 1 claims 10000 and is liquidated in the same block. -/
theorem borrow_rewards_follow_debt_sample :
    let s := run step Sample.wealthy Sample.indebted
    let as := [.claimRewardForMarket 1 Sample.dot, Sample.liquidation]
    let s' := run step s as
    s'.borrowRewards Sample.dot 1 = 10000 ∧ (s'.accountBorrows Sample.dot 1).principal = 3000 ∧
      s'.borrowDue Sample.dot 1 - s.borrowDue Sample.dot 1 ≤
        borrowIntegral s as Sample.dot 1 := by
  intro s as s'
  have hnumbers : s'.borrowRewards Sample.dot 1 = 10000 ∧
      (s'.accountBorrows Sample.dot 1).principal = 3000 := by decide +kernel
  have hmeets : Meets step DebtorSettled s as :=
    ⟨fun _ _ => trivial, fun _ _ => Sample.claimed_settled, trivial⟩
  have hdue := (@borrow_rewards_follow_debt ℕ Sample.config _ Sample.wealth (fun _ => some .one) 1 1
    Sample.indebted as hmeets Sample.dot 1).1
  exact ⟨hnumbers.1, hnumbers.2, hdue⟩

/-- Account 1 is liquidated without being settled, and its 5000 units of debt over ten blocks are
paid as 3000. -/
theorem debtor_not_settled :
    let s := run step Sample.wealthy Sample.indebted
    let s' := exec step s Sample.liquidation
    let as := [Sample.liquidation, .claimRewardForMarket 1 Sample.dot]
    ((s.accountBorrows Sample.dot 1).principal, (s'.accountBorrows Sample.dot 1).principal) =
        (5000, 3000) ∧
      s'.rewards.borrowerIndex Sample.dot 1 ≠ (s'.rewards.borrowState Sample.dot).index ∧
      s.borrowRewards Sample.dot 1 = 0 ∧ (run step s as).borrowRewards Sample.dot 1 = 6000 ∧
      (run step s as).borrowGap Sample.dot 1 = 0 ∧
      borrowIntegral s as Sample.dot 1 = rewardScale * 10000 := by
  decide +kernel

end Bifrost.LendMarket
