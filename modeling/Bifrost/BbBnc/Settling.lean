import Bifrost.BbBnc.Locks

/-!
# What settling an account does

The rewards of an account are settled at the reward per token of the current block. Read as
amounts, the records say the same whether or not a currency has an entry of zero.
-/

namespace Bifrost.BbBnc

open Result Machine
set_option autoImplicit false

variable {AccountId : Type} [DecidableEq AccountId] {cfg : Config AccountId}
  {s s' s₁ t : State cfg} {who w : AccountId} {p : ℕ}

def State.rewardOf (s : State cfg) (w : AccountId) (c : CurrencyId) : ℕ :=
  (((s.rewards w).getD ∅).get c).getD 0

def State.paidOf (s : State cfg) (w : AccountId) (c : CurrencyId) : ℕ :=
  ((s.userRewardPerTokenPaid w).get c).getD 0

def State.perToken (s : State cfg) (c : CurrencyId) : ℕ :=
  (s.incentive.rewardPerTokenStored.get c).getD 0

def State.rateOf (s : State cfg) (c : CurrencyId) : ℕ :=
  (s.incentive.rewardRate.get c).getD 0

/-- The amounts of the reward records are 128-bit numbers. -/
structure RewardsInRange (s : State cfg) : Prop where
  perToken : ∀ c, s.perToken c ≤ u128Max
  rewards : ∀ w c, s.rewardOf w c ≤ u128Max

/-- What an account has of a currency once a balance of it is settled at a reward per token. -/
def State.settledAt (s : State cfg) (w : AccountId) (balance : ℕ) (c : CurrencyId)
    (perToken : ℕ) : ℕ :=
  U128.saturatingAdd (s.rewardOf w c) (earnedIncrement s w balance c perToken)

theorem saturatingAdd_zero {n : ℕ} (h : n ≤ u128Max) : U128.saturatingAdd n 0 = n := by
  unfold U128.saturatingAdd
  omega

theorem earnedIncrement_eq (s : State cfg) (w : AccountId) (balance : ℕ) (c : CurrencyId) (n : ℕ) :
    earnedIncrement s w balance c n = balance * (n - s.paidOf w c) / cfg.multiplier := rfl

theorem settledAt_of_le {balance n : ℕ} {c : CurrencyId} (hs : RewardsInRange s)
    (h : n ≤ s.paidOf w c) : s.settledAt w balance c n = s.rewardOf w c := by
  unfold State.settledAt
  rw [earnedIncrement_eq, Nat.sub_eq_zero_of_le h, Nat.mul_zero, Nat.zero_div]
  exact saturatingAdd_zero (hs.rewards w c)

/-! The reward per token. -/

/-- The reward per token once what the rates add is in it. -/
def State.perTokenAt (s : State cfg) (totalSupply : ℕ) (c : CurrencyId) : ℕ :=
  if totalSupply = 0 then s.perToken c
  else (s.incentive.rewardRate.get c).elim (s.perToken c) fun reward =>
    U128.saturatingAdd (s.perToken c) (rewardIncrement s totalSupply reward)

theorem rewardPerToken_stored (h : rewardPerToken s = .ok t) :
    ∃ total stored, totalSupply s (some s.blockNumber) = .ok total ∧
      (∀ c, rewardIncrement s total (s.rateOf c) ≤ u128Max ∨ total = 0) ∧
      t = s.setIncentive { s.incentive with rewardPerTokenStored := stored } ∧
      ∀ c, t.perToken c = s.perTokenAt total c := by
  obtain ⟨conf, hconf, rfl⟩ := rewardPerToken_ok h
  simp only [calculateRewardPerToken, bind_eq_ok] at hconf
  obtain ⟨total, htotal, hconf⟩ := hconf
  by_cases hzero : total = 0
  · rw [if_pos hzero, pure_eq_ok] at hconf
    subst conf
    refine ⟨total, s.incentive.rewardPerTokenStored, htotal, fun c => Or.inr hzero, rfl, fun c => ?_⟩
    unfold State.perTokenAt
    rw [if_pos hzero]
    rfl
  · rw [if_neg hzero] at hconf
    simp only [bind_eq_ok, ensure_eq_ok, pure_eq_ok] at hconf
    obtain ⟨-, hbound, rfl⟩ := hconf
    refine ⟨total, _, htotal, fun c => Or.inl ?_, rfl, fun c => ?_⟩
    · unfold State.rateOf
      cases hrate : s.incentive.rewardRate.get c with
      | none => simp [rewardIncrement]
      | some reward => exact hbound (c, reward) (Table.mem_entries.mpr hrate)
    · unfold State.perTokenAt
      rw [if_neg hzero]
      unfold State.perToken State.setIncentive
      dsimp only
      rw [Table.get_update]
      cases s.incentive.rewardRate.get c <;> rfl

theorem perTokenAt_le (hs : RewardsInRange s) (total : ℕ) (c : CurrencyId) :
    s.perTokenAt total c ≤ u128Max := by
  unfold State.perTokenAt
  split
  · exact hs.perToken c
  · cases s.incentive.rewardRate.get c with
    | none => exact hs.perToken c
    | some reward => exact Nat.min_le_right _ _

def State.PoolSettled (s : State cfg) : Prop :=
  lastTimeRewardApplicable s ≤ s.incentive.lastUpdateTime

theorem perTokenAt_settled (hs : RewardsInRange s) (hsettled : s.PoolSettled) (total : ℕ)
    (c : CurrencyId) : s.perTokenAt total c = s.perToken c := by
  unfold State.perTokenAt
  split
  · rfl
  · cases s.incentive.rewardRate.get c with
    | none => rfl
    | some reward =>
      have hzero : rewardIncrement s total reward = 0 := by
        unfold rewardIncrement
        rw [Nat.sub_eq_zero_of_le hsettled]
        simp
      rw [Option.elim_some, hzero]
      exact saturatingAdd_zero (hs.perToken c)

theorem rewardPerToken_inRange (hs : RewardsInRange s) (h : rewardPerToken s = .ok t) :
    RewardsInRange t := by
  obtain ⟨total, stored, -, -, heq, hper⟩ := rewardPerToken_stored h
  refine ⟨fun c => ?_, ?_⟩
  · rw [hper]
    exact perTokenAt_le hs total c
  · rw [heq]
    exact hs.rewards

theorem rewardPerToken_settled (hs : RewardsInRange s) (hsettled : s.PoolSettled)
    (h : rewardPerToken s = .ok t) : t.perToken = s.perToken := by
  obtain ⟨total, -, -, -, -, hper⟩ := rewardPerToken_stored h
  funext c
  rw [hper, perTokenAt_settled hs hsettled]

theorem settlePool_ok (h : settlePool s = .ok s') :
    (∃ conf, s' = s.setIncentive conf) ∧ s'.PoolSettled ∧
      ∃ t, rewardPerToken s = .ok t ∧ s'.perToken = t.perToken := by
  simp only [settlePool, bind_eq_ok, pure_eq_ok] at h
  obtain ⟨t, ht, rfl⟩ := h
  obtain ⟨total, stored, -, -, rfl, -⟩ := rewardPerToken_stored ht
  exact ⟨⟨_, rfl⟩, Nat.le_refl _, _, ht, rfl⟩

theorem settlePool_inRange (hs : RewardsInRange s) (h : settlePool s = .ok s') :
    RewardsInRange s' := by
  obtain ⟨⟨conf, rfl⟩, -, t, ht, hper⟩ := settlePool_ok h
  refine ⟨fun c => ?_, hs.rewards⟩
  rw [hper]
  exact (rewardPerToken_inRange hs ht).perToken c

/-! Accounts. -/

theorem earned_ok {total : Table CurrencyId ℕ} (hs : RewardsInRange s)
    (h : earned s w = .ok (t, total)) :
    rewardPerToken s = .ok t ∧ ∃ balance, balanceOfCurrentBlock s w = .ok balance ∧
      ∀ c, (total.get c).getD 0 = s.settledAt w balance c (t.perToken c) := by
  simp only [earned, bind_eq_ok, pure_eq_ok, Prod.mk_inj] at h
  obtain ⟨t', ht, balance, hbalance, -, -, rfl, rfl⟩ := h
  refine ⟨ht, balance, ?_, fun c => ?_⟩
  · obtain ⟨-, stored, -, -, rfl, -⟩ := rewardPerToken_stored ht
    exact hbalance
  · rw [Table.get_update]
    cases hstored : t'.incentive.rewardPerTokenStored.get c with
    | none =>
      have hzero : t'.perToken c = 0 := by
        unfold State.perToken
        rw [hstored, Option.getD_none]
      rw [hzero, settledAt_of_le hs (Nat.zero_le _)]
      obtain ⟨-, stored, -, -, rfl, -⟩ := rewardPerToken_stored ht
      rfl
    | some reward =>
      have hreward : t'.perToken c = reward := by
        unfold State.perToken
        rw [hstored, Option.getD_some]
      rw [hreward]
      obtain ⟨-, stored, -, -, rfl, -⟩ := rewardPerToken_stored ht
      rfl

theorem credit_rewardOf {total : Table CurrencyId ℕ} {balance : ℕ} {f : CurrencyId → ℕ}
    (hs : RewardsInRange s)
    (htotal : ∀ c, (total.get c).getD 0 = s.settledAt who balance c (f c)) (w : AccountId)
    (c : CurrencyId) : (s.credit who total).rewardOf w c =
      if w = who then s.settledAt who balance c (f c) else s.rewardOf w c := by
  unfold State.credit
  by_cases hempty : total.entries = []
  · rw [if_pos hempty]
    by_cases hw : w = who
    · subst w
      rw [if_pos rfl]
      have hget : total.get c = none := by
        cases h : total.get c with
        | none => rfl
        | some v =>
          have hmem := Table.mem_entries.mpr h
          rw [hempty] at hmem
          exact absurd hmem List.not_mem_nil
      have hzero : s.settledAt who balance c (f c) = 0 := by
        rw [← htotal, hget, Option.getD_none]
      have hle := hs.rewards who c
      unfold State.settledAt U128.saturatingAdd at hzero ⊢
      omega
    · rw [if_neg hw]
  · rw [if_neg hempty]
    unfold State.rewardOf
    dsimp only
    by_cases hw : w = who
    · subst w
      rw [if_pos rfl, Function.update_self, Option.getD_some, htotal]
    · rw [if_neg hw, Function.update_of_ne hw]

theorem credit_eq (s : State cfg) (who : AccountId) (total : Table CurrencyId ℕ) :
    ∃ rewards history, s.credit who total = { s with rewards := rewards, history := history } := by
  unfold State.credit
  split
  · exact ⟨s.rewards, s.history, rfl⟩
  · exact ⟨_, _, rfl⟩

structure Updates (s : State cfg) (who : AccountId) (s' : State cfg) : Prop where
  rewardsOnly : RewardsOnly s s'
  inRange : RewardsInRange s'
  settled : s'.PoolSettled
  perToken : ∃ t, rewardPerToken s = .ok t ∧ s'.perToken = t.perToken
  paid : ∀ w, s'.paidOf w = if w = who then s'.perToken else s.paidOf w
  rewards : ∃ balance, balanceOfCurrentBlock s who = .ok balance ∧ ∀ w c, s'.rewardOf w c =
    if w = who then s.settledAt who balance c (s'.perToken c) else s.rewardOf w c

theorem updateReward_updates (hs : RewardsInRange s) (h : updateReward s (some who) = .ok s') :
    Updates s who s' := by
  have hrewards := updateReward_rewardsOnly h
  simp only [updateReward, bind_eq_ok, pure_eq_ok] at h
  obtain ⟨s₁, hsettle, ⟨s₂, total⟩, hearned, hs'⟩ := h
  have hrange₁ := settlePool_inRange hs hsettle
  obtain ⟨⟨conf, rfl⟩, hsettled, t, ht, hper⟩ := settlePool_ok hsettle
  obtain ⟨ht₂, balance, hbalance, htotal⟩ := earned_ok hrange₁ hearned
  have hrange₂ := rewardPerToken_inRange hrange₁ ht₂
  have hsame := rewardPerToken_settled hrange₁ hsettled ht₂
  obtain ⟨-, stored, -, -, hs₂, -⟩ := rewardPerToken_stored ht₂
  subst hs₂
  have hcredit := credit_rewardOf hrange₂ htotal
  obtain ⟨rewards, history, heq⟩ := credit_eq ((s.setIncentive conf).setIncentive
    { (s.setIncentive conf).incentive with rewardPerTokenStored := stored }) who total
  rw [heq] at hcredit hs'
  subst hs'
  refine ⟨hrewards, ⟨hrange₂.perToken, fun w c => ?_⟩, hsettled, ⟨t, ht, hsame.trans hper⟩,
    fun w => ?_, balance, hbalance, hcredit⟩
  · have hw := hcredit w c
    refine Eq.trans_le hw ?_
    split
    · exact Nat.min_le_right _ _
    · exact hs.rewards w c
  · funext c
    unfold State.paidOf
    dsimp only
    by_cases hw : w = who
    · subst w
      rw [if_pos rfl, Function.update_self]
      exact (congrFun hsame c).symm
    · rw [if_neg hw, Function.update_of_ne hw]
      rfl

/-! The records stay in range. -/

theorem checkpoint_inRange {old new : LockedBalance} (hs : RewardsInRange s)
    (h : checkpoint s who p old new = .ok s') : RewardsInRange s' := by
  obtain ⟨s₁, hupdate, hmove⟩ := checkpoint_ok h
  obtain ⟨_, _, _, _, _, rfl⟩ := movePoints_pointsOnly hmove
  have hrange := (updateReward_updates hs hupdate).inRange
  exact ⟨hrange.perToken, hrange.rewards⟩

theorem OutsideOnly.inRange (h : OutsideOnly s s') (hs : RewardsInRange s) : RewardsInRange s' := by
  obtain ⟨_, _, -, rfl⟩ := h
  exact ⟨hs.perToken, hs.rewards⟩

theorem deposits_inRange {value : ℕ} {old new : LockedBalance} (hs : RewardsInRange s)
    (h : Deposits s who p value old new s') : RewardsInRange s' := by
  obtain ⟨-, ledger, s₁, -, -, -, hmark, houtside⟩ := h
  have hmore : RewardsInRange (s.lockMore who p value new ledger) := ⟨hs.perToken, hs.rewards⟩
  exact houtside.inRange (checkpoint_inRange hmore (markupCalc_ok hmark))

theorem withdrawNoEnsure_inRange {locked : LockedBalance} {ifFast : Option FixedU128}
    (hs : RewardsInRange s) (h : withdrawNoEnsure s who p locked ifFast = .ok s') :
    RewardsInRange s' := by
  obtain ⟨-, -, ledger, s₁, s₂, s₃, -, hpay, hcheck, hrefresh, hremove⟩ := withdrawNoEnsure_ok h
  have hless : RewardsInRange (s.lockLess who p locked.amount ledger) :=
    ⟨hs.perToken, hs.rewards⟩
  have h₂ := checkpoint_inRange (hpay.inRange hless) hcheck
  have h₃ := (refreshGaugePool_outsideOnly hrefresh).inRange h₂
  obtain ⟨-, rfl⟩ := removePosition_ok hremove
  exact ⟨h₃.perToken, h₃.rewards⟩

theorem remarkPositions_inRange {info : UserMarkupInfo} (hs : RewardsInRange s)
    (h : remarkPositions s who info = .ok s') : RewardsInRange s' := by
  refine foldlM_rel (R := fun s s' => RewardsInRange s → RewardsInRange s') (fun _ hs => hs)
    (fun h h' hs => h' (h hs)) ?_ h hs
  intro s p s' h hs
  exact checkpoint_inRange hs (remarkPosition_ok h).2

theorem refreshInner_inRange {currency : CurrencyId} (hs : RewardsInRange s)
    (h : refreshInner s currency = .ok s') : RewardsInRange s' := by
  obtain ⟨coefficient, -, hfold⟩ := refreshInner_ok h
  refine foldlM_rel (R := fun s s' => RewardsInRange s → RewardsInRange s') (fun _ hs => hs)
    (fun h h' hs => h' (h hs)) ?_ hfold hs
  intro s e s' h hs
  obtain ⟨info, new, -, -, hmark⟩ := refreshAccount_ok h
  refine remarkPositions_inRange ?_ hmark
  exact ⟨hs.perToken, hs.rewards⟩

theorem claimRewards_inRange (hs : RewardsInRange s) (h : claimRewards s who = .ok s') :
    RewardsInRange s' := by
  simp only [claimRewards, bind_eq_ok] at h
  obtain ⟨balance, -, h⟩ := h
  split at h
  · rw [pure_eq_ok] at h
    exact h ▸ hs
  · split at h
    · rw [pure_eq_ok] at h
      exact h ▸ hs
    · simp only [bind_eq_ok, pure_eq_ok] at h
      obtain ⟨s₁, hfold, rfl⟩ := h
      have h₁ : RewardsInRange s₁ := foldlM_rel
        (R := fun s s' => RewardsInRange s → RewardsInRange s') (fun _ hs => hs)
        (fun h h' hs => h' (h hs)) (fun _ _ _ h hs => (payReward_outsideOnly h).inRange hs) hfold hs
      refine ⟨h₁.perToken, fun w c => ?_⟩
      unfold State.rewardOf
      by_cases hw : w = who
      · subst w
        simp
      · dsimp only
        rw [Function.update_of_ne hw]
        exact h₁.rewards w c

theorem addRewardOf_inRange {remaining : ℕ} {currency : CurrencyId} (hs : RewardsInRange s)
    (h : addRewardOf who remaining s currency = .ok s') : RewardsInRange s' := by
  simp only [addRewardOf, bind_eq_ok] at h
  obtain ⟨total, -, -, -, rate, -, h⟩ := h
  split at h
  · rw [pure_eq_ok] at h
    exact h ▸ ⟨hs.perToken, hs.rewards⟩
  · simp only [bind_eq_ok, mapErr_eq_ok, pure_eq_ok] at h
    obtain ⟨ledger, -, rfl⟩ := h
    exact ⟨hs.perToken, hs.rewards⟩

theorem startRound_inRange {rewards : List CurrencyId} (hs : RewardsInRange s)
    (h : startRound s who rewards = .ok s') : RewardsInRange s' := by
  simp only [startRound, bind_eq_ok, pure_eq_ok] at h
  obtain ⟨s₁, hfold, rfl⟩ := h
  have h₁ : RewardsInRange s₁ := foldlM_rel
    (R := fun s s' => RewardsInRange s → RewardsInRange s') (fun _ hs => hs)
    (fun h h' hs => h' (h hs)) (fun _ _ _ h hs => addRewardOf_inRange hs h) hfold hs
  exact ⟨h₁.perToken, h₁.rewards⟩

theorem notifyOnBlock_inRange (hs : RewardsInRange s) : RewardsInRange (notifyOnBlock s) := by
  unfold notifyOnBlock
  split
  · split
    · rename_i hsettle
      have hsettled := settlePool_inRange hs hsettle
      split
      · rename_i hround
        exact startRound_inRange hsettled hround
      · exact hsettled
    · exact hs
  · exact hs

theorem keptBySweep_inRange : KeptBySweep fun s : State cfg => RewardsInRange s where
  withdraw := fun hs _ _ _ h => withdrawNoEnsure_inRange hs h
  schedule := fun _ _ hs => ⟨hs.perToken, hs.rewards⟩

theorem step_inRange {c : Call cfg} (hs : RewardsInRange s) (h : step s c = .ok s') :
    RewardsInRange s' := by
  cases c with
  | createLock who value time =>
    obtain ⟨_, -, hdeposit⟩ := createLockInner_ok h
    refine deposits_inRange ?_ hdeposit
    exact ⟨hs.perToken, hs.rewards⟩
  | increaseAmount who p value =>
    exact deposits_inRange hs (increaseAmountInner_ok (ownPosition_ok h).2).2.2
  | increaseUnlockTime who p time =>
    obtain ⟨_, -, -, -, -, hdeposit⟩ := increaseUnlockTimeInner_ok (ownPosition_ok h).2
    refine deposits_inRange ?_ hdeposit
    exact ⟨hs.perToken, hs.rewards⟩
  | withdraw who p =>
    refine withdrawNoEnsure_inRange ?_ (withdrawInner_ok (ownPosition_ok h).2).2
    exact ⟨hs.perToken, hs.rewards⟩
  | redeemUnlock who p =>
    obtain ⟨-, fast, h⟩ := redeemUnlockInner_ok (ownPosition_ok h).2
    refine withdrawNoEnsure_inRange ?_ h
    exact ⟨hs.perToken, hs.rewards⟩
  | depositMarkup who currency value =>
    obtain ⟨coefficient, new, ledger, s₁, -, -, -, -, -, hmark, rfl⟩ := depositMarkupInner_ok h
    have h₁ : RewardsInRange s₁ := by
      refine remarkPositions_inRange ?_ hmark
      exact ⟨hs.perToken, hs.rewards⟩
    exact ⟨h₁.perToken, h₁.rewards⟩
  | withdrawMarkup who currency =>
    obtain ⟨coefficient, token, ledger, -, -, -, -, hmark⟩ := withdrawMarkupInner_ok h
    refine remarkPositions_inRange ?_ hmark
    exact ⟨hs.perToken, hs.rewards⟩
  | refresh currency => exact refreshInner_inRange hs h
  | onInitialize =>
    cases h
    exact keptBySweep_inRange.withdrawExpired (notifyOnBlock_inRange ⟨hs.perToken, hs.rewards⟩)
  | notifyRewards incentiveFrom duration rewards =>
    simp only [step, notifyRewards, notifyRewardAmount, bind_eq_ok, okOr_eq_ok] at h
    obtain ⟨account, -, s₁, hsettle, hround⟩ := h
    have hset : RewardsInRange (setIncentive s duration (some incentiveFrom)) :=
      ⟨hs.perToken, hs.rewards⟩
    exact startRound_inRange (settlePool_inRange hset hsettle) hround
  | getRewards who =>
    simp only [step, getRewards, bind_eq_ok] at h
    obtain ⟨s₁, hupdate, hclaim⟩ := h
    exact claimRewards_inRange (updateReward_updates hs hupdate).inRange hclaim
  | getGaugeRewards who =>
    refine claimRewards_inRange ?_ (getGaugeRewards_ok h)
    exact ⟨hs.perToken, hs.rewards⟩
  | setConfig | setMarkupCoefficient | elsewhere =>
    cases h
    exact ⟨hs.perToken, hs.rewards⟩
  | pay | issue | burn =>
    obtain ⟨ledger, -, rfl⟩ := moveTokens_ok h
    exact ⟨hs.perToken, hs.rewards⟩

end Bifrost.BbBnc
