import Bifrost.BbBnc.Settling
import Bifrost.BbBnc.UserPoints
import Bifrost.BbBnc.Schedule

/-!
# Rewards are settled before balances change

A call that changes the locks of an account first credits what the account had earned, at the
reward per token of the block. Only an early redemption clears the lock before.
-/

namespace Bifrost.BbBnc

open Result Machine
set_option autoImplicit false

variable {AccountId : Type} [DecidableEq AccountId] {cfg : Config AccountId}
  {s s' s₁ t : State cfg} {who w : AccountId} {p : ℕ} {f R : CurrencyId → ℕ}

def IncentiveConfig.perToken (conf : IncentiveConfig AccountId) (c : CurrencyId) : ℕ :=
  (conf.rewardPerTokenStored.get c).getD 0

/-- What `earned` returns for an account, as amounts. -/
def Earned (s : State cfg) (w : AccountId) (R : CurrencyId → ℕ) : Prop :=
  ∃ conf balance, calculateRewardPerToken s = .ok conf ∧
    balanceOfCurrentBlock s w = .ok balance ∧
    ∀ c, R c = s.settledAt w balance c (conf.perToken c)

theorem earned_earned {total : Table CurrencyId ℕ} (hs : RewardsInRange s)
    (h : earned s w = .ok (t, total)) : Earned s w fun c => (total.get c).getD 0 := by
  obtain ⟨ht, balance, hbalance, htotal⟩ := earned_ok hs h
  obtain ⟨conf, hconf, rfl⟩ := rewardPerToken_ok ht
  exact ⟨conf, balance, hconf, hbalance, htotal⟩

theorem checkpoint_earned {old new : LockedBalance} (hs : RewardsInRange s)
    (h : checkpoint s who p old new = .ok s') : Earned s who (s'.rewardOf who) := by
  obtain ⟨s₁, hupdate, hmove⟩ := checkpoint_ok h
  have hupdates := updateReward_updates hs hupdate
  obtain ⟨_, _, _, _, _, rfl⟩ := movePoints_pointsOnly hmove
  obtain ⟨t, ht, hper⟩ := hupdates.perToken
  obtain ⟨conf, hconf, rfl⟩ := rewardPerToken_ok ht
  obtain ⟨balance, hbalance, hrewards⟩ := hupdates.rewards
  refine ⟨conf, balance, hconf, hbalance, fun c => ?_⟩
  have hc := hrewards who c
  rw [if_pos rfl, hper] at hc
  exact hc

theorem Earned.eq {R' : CurrencyId → ℕ} (h : Earned s w R) (h' : Earned s' w R')
    (hconf : calculateRewardPerToken s' = calculateRewardPerToken s)
    (hbalance : balanceOfCurrentBlock s' w = balanceOfCurrentBlock s w)
    (hsettled : s'.settledAt w = s.settledAt w) : R' = R := by
  obtain ⟨conf, balance, hc, hb, hR⟩ := h
  obtain ⟨conf', balance', hc', hb', hR'⟩ := h'
  rw [hconf, hc, Except.ok.injEq] at hc'
  rw [hbalance, hb, Except.ok.injEq] at hb'
  subst conf' balance'
  funext c
  rw [hR', hR, hsettled]

/-- Whenever the account is settled in this block, it is settled at `f` and comes to `R`. -/
structure Settles (f R : CurrencyId → ℕ) (w : AccountId) (s : State cfg) : Prop where
  inRange : RewardsInRange s
  booked : Booked s
  perToken : ∀ conf, calculateRewardPerToken s = .ok conf →
    conf.perToken = f
  owed : ∀ balance, balanceOfCurrentBlock s w = .ok balance →
    ∀ c, s.settledAt w balance c (f c) = R c

theorem Earned.settles (h : Earned s w R) (hrange : RewardsInRange s) (hbooked : Booked s) :
    ∃ f, Settles f R w s := by
  obtain ⟨conf, balance, hconf, hbalance, hR⟩ := h
  refine ⟨conf.perToken, hrange, hbooked, fun conf' hconf' => ?_, fun balance' hbalance' c => ?_⟩
  · rw [hconf, Except.ok.injEq] at hconf'
    rw [hconf']
  · rw [hbalance, Except.ok.injEq] at hbalance'
    rw [← hbalance', hR]

theorem calculateRewardPerToken_settled {conf : IncentiveConfig AccountId}
    (hs : RewardsInRange s) (hsettled : s.PoolSettled)
    (h : calculateRewardPerToken s = .ok conf) : conf.perToken = s.perToken := by
  have hper : rewardPerToken s = .ok (s.setIncentive conf) := by
    simp only [rewardPerToken, bind_eq_ok, pure_eq_ok]
    exact ⟨conf, h, rfl⟩
  exact rewardPerToken_settled hs hsettled hper

/-- A checkpoint of the account settles it; a checkpoint of another leaves it to be settled. -/
theorem Settles.checkpoint {old new : LockedBalance} (hs : Settles f R w s)
    (hp : p ∈ s.userPositions who) (h : checkpoint s who p old new = .ok s') :
    Settles f R w s' ∧ ((who = w ∨ s.rewardOf w = R) → s'.rewardOf w = R) := by
  obtain ⟨line, -, hpoints⟩ := checkpoint_repoints h
  have hrecords := checkpoint_recordsOnly h
  have hbooked := hs.booked.of_same hrecords.sameLocks
  have hrange := checkpoint_inRange hs.inRange h
  obtain ⟨s₁, hupdate, hmove⟩ := checkpoint_ok h
  have hupdates := updateReward_updates hs.inRange hupdate
  have hper : s₁.perToken = f := by
    obtain ⟨t, ht, heq⟩ := hupdates.perToken
    obtain ⟨conf, hconf, rfl⟩ := rewardPerToken_ok ht
    rw [heq]
    exact hs.perToken conf hconf
  obtain ⟨balance, hbalance, hrewards⟩ := hupdates.rewards
  have hpaid := hupdates.paid w
  obtain ⟨_, _, _, _, _, rfl⟩ := movePoints_pointsOnly hmove
  have hconf := fun conf (h : calculateRewardPerToken _ = .ok conf) =>
    (calculateRewardPerToken_settled hrange hupdates.settled h).trans hper
  by_cases hw : w = who
  · subst w
    have hR : s₁.rewardOf who = R := by
      funext c
      rw [hrewards, if_pos rfl, hper]
      exact hs.owed balance hbalance c
    rw [if_pos rfl, hper] at hpaid
    refine ⟨⟨hrange, hbooked, hconf, fun b _ c => ?_⟩, fun _ => hR⟩
    exact (settledAt_of_le hrange (congrFun hpaid c).ge).trans (congrFun hR c)
  · have hsame : s₁.rewardOf w = s.rewardOf w := by
      funext c
      rw [hrewards, if_neg hw]
    rw [if_neg hw] at hpaid
    have hbal := hpoints.balance_others hrecords (hs.booked.notMem hp hw)
    refine ⟨⟨hrange, hbooked, hconf, fun b hb c => ?_⟩, ?_⟩
    · rw [← hs.owed b (hbal.symm.trans hb) c]
      unfold State.settledAt
      rw [earnedIncrement_eq, earnedIncrement_eq]
      exact congrArg₂ U128.saturatingAdd (congrFun hsame c)
        (congrArg (fun paid => b * (f c - paid) / cfg.multiplier) (congrFun hpaid c))
    · rintro (rfl | hR)
      · exact absurd rfl hw
      · exact hsame.trans hR

/-- Marking the positions of the account anew settles it, if only because it has none. -/
theorem Settles.remarkPositions {info : UserMarkupInfo} (hs : Settles f R w s)
    (h : remarkPositions s who info = .ok s') :
    Settles f R w s' ∧ ((who = w ∨ s.rewardOf w = R) → s'.rewardOf w = R) := by
  have hstep : ∀ p ∈ s.userPositions who, ∀ t t' : State cfg,
      Settles f R w t ∧ t.userPositions = s.userPositions →
      remarkPosition who info t p = .ok t' →
      (Settles f R w t' ∧ t'.userPositions = s.userPositions) ∧
        ((who = w ∨ t.rewardOf w = R) → t'.rewardOf w = R) := by
    rintro p hp t t' ⟨ht, hpositions⟩ h
    have hcheck := (remarkPosition_ok h).2
    obtain ⟨ht', hR⟩ := ht.checkpoint (hpositions ▸ hp) hcheck
    exact ⟨⟨ht', (checkpoint_recordsOnly hcheck).sameLocks.userPositions.trans hpositions⟩, hR⟩
  unfold BbBnc.remarkPositions at h
  cases hl : s.userPositions who with
  | nil =>
    rw [hl, List.foldlM_nil, pure_eq_ok] at h
    subst s'
    refine ⟨hs, ?_⟩
    rintro (rfl | hR)
    · funext c
      rw [← hs.owed 0 (by unfold balanceOfCurrentBlock; rw [hl]; rfl) c]
      unfold State.settledAt earnedIncrement
      rw [Nat.zero_mul, Nat.zero_div, saturatingAdd_zero (hs.inRange.rewards who c)]
    · exact hR
  | cons p positions =>
    rw [hl, List.foldlM_cons, bind_eq_ok] at h
    rw [hl] at hstep
    obtain ⟨s₁, hfirst, h⟩ := h
    obtain ⟨h₁, hR₁⟩ := hstep p List.mem_cons_self s s₁ ⟨hs, rfl⟩ hfirst
    have hkept := foldlM_invariant (I := fun t : State cfg =>
      (Settles f R w t ∧ t.userPositions = s.userPositions) ∧
        ((who = w ∨ s.rewardOf w = R) → t.rewardOf w = R)) (fun q hq t t' ht h => by
          obtain ⟨ht', hR⟩ := hstep q (List.mem_cons_of_mem p hq) t t' ht.1 h
          exact ⟨ht', fun hw => hR (Or.inr (ht.2 hw))⟩) ⟨h₁, hR₁⟩ h
    exact ⟨hkept.1.1, hkept.2⟩

/-! Each call. -/

theorem deposits_earned {value : ℕ} {old new : LockedBalance} (hs : RewardsInRange s)
    (h : Deposits s who p value old new s') :
    ∃ ledger, Earned (s.lockMore who p value new ledger) who (s'.rewardOf who) := by
  obtain ⟨-, ledger, s₁, -, -, -, hmark, houtside⟩ := h
  have hmore : RewardsInRange (s.lockMore who p value new ledger) := ⟨hs.perToken, hs.rewards⟩
  have hearned := checkpoint_earned hmore (markupCalc_ok hmark)
  obtain ⟨_, _, -, rfl⟩ := houtside
  exact ⟨ledger, hearned⟩

theorem withdrawNoEnsure_earned {locked : LockedBalance} {ifFast : Option FixedU128}
    (hs : RewardsInRange s) (h : withdrawNoEnsure s who p locked ifFast = .ok s') :
    Earned (s.setLocked p .zero) who (s'.rewardOf who) := by
  obtain ⟨-, -, ledger, s₁, s₂, s₃, -, hpay, hcheck, hrefresh, hremove⟩ := withdrawNoEnsure_ok h
  have hless : RewardsInRange (s.lockLess who p locked.amount ledger) :=
    ⟨hs.perToken, hs.rewards⟩
  have hearned := checkpoint_earned (hpay.inRange hless) hcheck
  obtain ⟨_, _, -, rfl⟩ := hpay
  obtain ⟨_, _, -, rfl⟩ := refreshGaugePool_outsideOnly hrefresh
  obtain ⟨-, rfl⟩ := removePosition_ok hremove
  exact hearned

theorem balance_setLocked (hblock : t.blockNumber = s.blockNumber)
    (hepochs : t.userPointEpoch = s.userPointEpoch)
    (hpoints : t.userPointHistory = s.userPointHistory)
    (hoff : ∀ q, q ≠ p → t.locked q = s.locked q)
    (hp : balanceOfPositionCurrentBlock t p = balanceOfPositionCurrentBlock s p)
    (q : ℕ) : balanceOfPositionCurrentBlock t q = balanceOfPositionCurrentBlock s q := by
  by_cases hq : q = p
  · subst q
    exact hp
  · refine balanceOfPosition_congr hblock ?_ ?_ ?_
    · rw [hoff q hq]
    · rw [hepochs]
    · unfold State.lastUserPoint
      rw [hepochs, hpoints]

theorem balance_live (hblock : t.blockNumber = s.blockNumber)
    (hepochs : t.userPointEpoch = s.userPointEpoch)
    (hpoints : t.userPointHistory = s.userPointHistory)
    (hlive : s.blockNumber < (s.locked p).endBlock) (hlive' : s.blockNumber < (t.locked p).endBlock) :
    balanceOfPositionCurrentBlock t p = balanceOfPositionCurrentBlock s p := by
  unfold balanceOfPositionCurrentBlock State.lastUserPoint
  rw [hblock, hepochs, hpoints, if_neg (Nat.not_le.mpr hlive), if_neg (Nat.not_le.mpr hlive')]

theorem createLock_earned {value time : ℕ} (hs : RewardsInRange s) (hbooked : Booked s)
    (hpoints : PointsOwned s) (hearned : Earned s who R)
    (h : createLockInner s who value time = .ok s') : s'.rewardOf who = R := by
  obtain ⟨endBlock, -, hdeposit⟩ := createLockInner_ok h
  obtain ⟨ledger, hafter⟩ := deposits_earned (s := (s.created who).recorded s.position endBlock)
    ⟨hs.perToken, hs.rewards⟩ hdeposit
  refine hearned.eq hafter rfl ?_ rfl
  have hblank := balanceOfPosition_blank (hpoints s.position (hbooked.unused _ (Nat.le_refl _)).2)
  unfold balanceOfCurrentBlock
  have hpositions : (State.lockMore ((s.created who).recorded s.position endBlock) who s.position
      value ⟨value, endBlock⟩ ledger).userPositions who =
      s.userPositions who ++ [s.position] := Function.update_self ..
  rw [hpositions, ← sumBalances_append_zero (s.userPositions who) hblank]
  apply sumBalances_congr
  intro q _
  refine balance_setLocked (s := s) (p := s.position) (t := State.lockMore
    ((s.created who).recorded s.position endBlock) who s.position value ⟨value, endBlock⟩ ledger)
    rfl rfl rfl ?_ ?_ q
  · intro q hq
    have hcreated : (s.created who).locked q = s.locked q := setLocked_off rfl q hq
    exact (setLocked_off (s := s.created who) rfl q hq).trans hcreated
  · rw [hblank]
    exact balanceOfPosition_blank (hpoints s.position (hbooked.unused _ (Nat.le_refl _)).2)

theorem deposits_live {value : ℕ} {new : LockedBalance} (hs : RewardsInRange s)
    (hearned : Earned s who R) (hlive : s.blockNumber < (s.locked p).endBlock)
    (hlive' : s.blockNumber < new.endBlock) (h : Deposits s who p value (s.locked p) new s') :
    s'.rewardOf who = R := by
  obtain ⟨ledger, hafter⟩ := deposits_earned hs h
  refine hearned.eq hafter rfl ?_ rfl
  have hnew : (s.lockMore who p value new ledger).locked p = new := Function.update_self ..
  refine balanceOfCurrentBlock_congr rfl fun q _ =>
    balance_setLocked (s := s) (p := p) (t := s.lockMore who p value new ledger) rfl rfl rfl ?_ ?_ q
  · exact setLocked_off rfl
  · refine balance_live rfl rfl rfl hlive ?_
    rw [hnew]
    exact hlive'

theorem withdraw_earned (hs : RewardsInRange s) (hearned : Earned s who R)
    (h : withdrawInner s who p = .ok s') : s'.rewardOf who = R := by
  obtain ⟨hexpired, h⟩ := withdrawInner_ok h
  have hafter : Earned (State.setLocked (removeExpiringPosition s p (s.locked p).endBlock) p .zero)
      who (s'.rewardOf who) := by
    refine withdrawNoEnsure_earned ?_ h
    exact ⟨hs.perToken, hs.rewards⟩
  refine hearned.eq hafter rfl (balanceOfCurrentBlock_congr rfl fun q _ => ?_) rfl
  refine balance_setLocked (s := s) (p := p) (t := State.setLocked
    (removeExpiringPosition s p (s.locked p).endBlock) p .zero) rfl rfl rfl (setLocked_off rfl) ?_ q
  rw [balanceOfPosition_expired hexpired]
  apply balanceOfPosition_expired
  have hzero : (State.setLocked (removeExpiringPosition s p (s.locked p).endBlock) p .zero).locked p =
    .zero := Function.update_self ..
  rw [hzero]
  exact Nat.zero_le _

def Unforfeited (s : State cfg) : Call cfg → Prop
  | .redeemUnlock who p => ∀ conf balance rest, calculateRewardPerToken s = .ok conf →
    balanceOfCurrentBlock s who = .ok balance →
    balanceOfCurrentBlock (s.setLocked p .zero) who = .ok rest →
    ∀ c, s.settledAt who rest c (conf.perToken c) = s.settledAt who balance c (conf.perToken c)
  | _ => True

theorem redeemUnlock_earned (hs : RewardsInRange s) (hearned : Earned s who R)
    (h : redeemUnlockInner s who p = .ok s') :
    s'.rewardOf who = R ↔ Unforfeited s (.redeemUnlock who p) := by
  obtain ⟨-, fast, h⟩ := redeemUnlockInner_ok h
  have hafter : Earned (s.setLocked p .zero) who (s'.rewardOf who) := by
    have hcleared := withdrawNoEnsure_earned
      (s := removeExpiringPosition s p (s.locked p).endBlock) ⟨hs.perToken, hs.rewards⟩ h
    exact hcleared
  obtain ⟨conf, balance, hconf, hbalance, hR⟩ := hearned
  obtain ⟨conf', rest, hconf', hrest, hR'⟩ := hafter
  have hsame : calculateRewardPerToken (s.setLocked p .zero) = calculateRewardPerToken s := rfl
  rw [hsame, hconf, Except.ok.injEq] at hconf'
  subst conf'
  constructor
  · intro heq conf₂ balance₂ rest₂ hconf₂ hbalance₂ hrest₂ c
    rw [hconf, Except.ok.injEq] at hconf₂
    rw [hbalance, Except.ok.injEq] at hbalance₂
    rw [hrest, Except.ok.injEq] at hrest₂
    subst conf₂ balance₂ rest₂
    rw [← hR c, ← heq]
    exact (hR' c).symm
  · intro hkept
    funext c
    rw [hR c, ← hkept conf balance rest hconf hbalance hrest c]
    exact hR' c

/-! Markups. -/

theorem Settles.remarked {currency : CurrencyId} {token : Option LockedToken} {total : ℕ}
    {ledger : cfg.currencies.Ledger} {info : UserMarkupInfo} (hs : Settles f R w s)
    (hlock : ∀ c w, cfg.currencies.lock ledger .bbLockId c w =
      cfg.currencies.lock s.ledger .bbLockId c w) :
    Settles f R w (s.remarked currency who token total ledger info) :=
  ⟨⟨hs.inRange.perToken, hs.inRange.rewards⟩,
    hs.booked.of_same ⟨rfl, rfl, rfl, rfl, rfl, rfl, rfl, rfl, rfl, hlock⟩, hs.perToken, hs.owed⟩

theorem Settles.touched (hs : Settles f R w s) (currency : CurrencyId)
    (coefficient : MarkupCoefficientInfo) : Settles f R w (s.touched currency coefficient) :=
  ⟨⟨hs.inRange.perToken, hs.inRange.rewards⟩,
    hs.booked.of_same ⟨rfl, rfl, rfl, rfl, rfl, rfl, rfl, rfl, rfl, fun _ _ => rfl⟩, hs.perToken,
    hs.owed⟩

theorem depositMarkup_settles {currency : CurrencyId} {value : ℕ} (hs : Settles f R who s)
    (h : depositMarkupInner s who currency value = .ok s') : s'.rewardOf who = R := by
  obtain ⟨coefficient, new, ledger, s₁, -, hvalue, -, -, hset, hmark, rfl⟩ :=
    depositMarkupInner_ok h
  have hamount : U128.saturatingAdd (s.lockedToken currency who).amount value ≠ 0 := by
    unfold U128.saturatingAdd u128Max
    omega
  refine ((hs.remarked fun c w => ?_).remarkPositions hmark).2 (Or.inl rfl)
  rw [cfg.currencies.setLock_lock hset hamount, if_neg (by simp)]

theorem withdrawMarkup_settles {currency : CurrencyId} (hs : Settles f R who s)
    (h : withdrawMarkupInner s who currency = .ok s') : s'.rewardOf who = R := by
  obtain ⟨coefficient, token, ledger, -, -, -, hremove, hmark⟩ := withdrawMarkupInner_ok h
  refine (((hs.touched currency coefficient).remarked fun c w => ?_).remarkPositions hmark).2
    (Or.inl rfl)
  rw [cfg.currencies.removeLock_lock hremove, if_neg (by simp)]
  rfl

theorem refresh_settles {currency : CurrencyId} {coefficient : MarkupCoefficientInfo}
    {accounts : List (AccountId × LockedToken)} (hs : Settles f R w s)
    (h : accounts.foldlM (refreshAccount currency coefficient) s = .ok s')
    (hw : w ∈ accounts.map Prod.fst ∨ s.rewardOf w = R) : s'.rewardOf w = R := by
  induction accounts generalizing s with
  | nil =>
    rw [List.foldlM_nil, pure_eq_ok] at h
    subst s'
    rcases hw with hw | hw
    · exact absurd hw List.not_mem_nil
    · exact hw
  | cons e accounts ih =>
    rw [List.foldlM_cons, bind_eq_ok] at h
    obtain ⟨s₁, haccount, h⟩ := h
    obtain ⟨info, new, -, -, hmark⟩ := refreshAccount_ok haccount
    obtain ⟨h₁, hR⟩ := (hs.remarked fun _ _ => rfl).remarkPositions hmark
    refine ih h₁ h ?_
    rcases hw with hw | hw
    · rcases List.mem_cons.mp hw with rfl | hw
      · exact Or.inr (hR (Or.inl rfl))
      · exact Or.inl hw
    · exact Or.inr (hR (Or.inr hw))

def Call.LocksOf (s : State cfg) (w : AccountId) : Call cfg → Prop
  | .createLock who _ _ | .increaseAmount who _ _ | .increaseUnlockTime who _ _ | .withdraw who _
  | .redeemUnlock who _ | .depositMarkup who _ _ | .withdrawMarkup who _ => w = who
  | .refresh currency => ∃ coefficient, s.markupCoefficient currency = some coefficient ∧
    w ∈ (dueTokens s currency coefficient).map Prod.fst
  | _ => False

theorem step_settles {c : Call cfg} {total : Table CurrencyId ℕ} (hs : RewardsInRange s)
    (hbooked : Booked s) (hpoints : PointsOwned s) (hends : EndsWeekly s) (hw : c.LocksOf s w)
    (hearned : earned s w = .ok (t, total)) (h : step s c = .ok s') :
    (∀ currency, s'.rewardOf w currency = (total.get currency).getD 0) ↔ Unforfeited s c := by
  have hbefore := earned_earned hs hearned
  obtain ⟨f, hsettles⟩ := hbefore.settles hs hbooked
  rw [← funext_iff]
  cases c <;> simp only [Call.LocksOf] at hw
  case createLock =>
    subst hw
    exact iff_of_true (createLock_earned hs hbooked hpoints hbefore h) trivial
  case increaseAmount =>
    subst hw
    obtain ⟨-, hlive, hdeposit⟩ := increaseAmountInner_ok (ownPosition_ok h).2
    refine iff_of_true (deposits_live hs hbefore hlive ?_ hdeposit) trivial
    exact hlive
  case increaseUnlockTime p time =>
    subst hw
    obtain ⟨endBlock, -, hlater, -, hlive, hdeposit⟩ := increaseUnlockTimeInner_ok
      (ownPosition_ok h).2
    rw [Nat.min_eq_left (hends p).2] at hlater
    have hrange : RewardsInRange ((removeExpiringPosition s p (s.locked p).endBlock).recorded p
      endBlock) := ⟨hs.perToken, hs.rewards⟩
    refine iff_of_true (deposits_live hrange ?_ ?_ ?_ hdeposit) trivial
    · exact hbefore
    · exact hlive
    · exact hlive.trans_le hlater
  case withdraw =>
    subst hw
    exact iff_of_true (withdraw_earned hs hbefore (ownPosition_ok h).2) trivial
  case redeemUnlock =>
    subst hw
    exact redeemUnlock_earned hs hbefore (ownPosition_ok h).2
  case depositMarkup =>
    subst hw
    exact iff_of_true (depositMarkup_settles hsettles h) trivial
  case withdrawMarkup =>
    subst hw
    exact iff_of_true (withdrawMarkup_settles hsettles h) trivial
  case refresh currency =>
    obtain ⟨coefficient, hcoefficient, hfold⟩ := refreshInner_ok h
    obtain ⟨coefficient', hcoefficient', hmem⟩ := hw
    rw [hcoefficient, Option.some_inj] at hcoefficient'
    subst coefficient'
    exact iff_of_true (refresh_settles hsettles hfold (Or.inl hmem)) trivial

/-- What every reachable state has for the settlement of rewards. -/
structure Settleable (s : State cfg) : Prop where
  inRange : RewardsInRange s
  booked : Booked s
  pointsOwned : PointsOwned s
  endsWeekly : EndsWeekly s

theorem genesis_settleable (accounts : Unlocked cfg) (outside : cfg.Outside) (n : ℕ) :
    Settleable (genesis cfg accounts outside n) :=
  ⟨⟨fun _ => Nat.zero_le _, fun _ _ => Nat.zero_le _⟩, genesis_booked accounts outside n,
    fun _ _ => rfl, fun _ => ⟨dvd_zero _, Nat.zero_le _⟩⟩

theorem step_settleable {c : Call cfg} (hs : Settleable s) (h : step s c = .ok s') :
    Settleable s' :=
  ⟨step_inRange hs.inRange h, step_booked hs.booked h,
    step_pointsOwned hs.pointsOwned hs.booked h, step_endsWeekly hs.endsWeekly h⟩

theorem run_settleable (accounts : Unlocked cfg) (outside : cfg.Outside) (n : ℕ)
    (calls : List (Call cfg)) : Settleable (run step (genesis cfg accounts outside n) calls) :=
  run_invariant (I := Settleable) (fun _ _ _ hs _ hstep => step_settleable hs hstep) calls
    (genesis_settleable accounts outside n) (meets_true _ _)

/-- In every state that is reached, a call that changes the locks of an account leaves it the
rewards that it had earned before the call, unless it redeems a position early that some of them
were earned by. -/
theorem rewards_settled (accounts : Unlocked cfg) (outside : cfg.Outside) (n : ℕ)
    (calls : List (Call cfg)) (c : Call cfg) (w : AccountId) (s' t : State cfg)
    (total : Table CurrencyId ℕ)
    (hw : c.LocksOf (run step (genesis cfg accounts outside n) calls) w)
    (hearned : earned (run step (genesis cfg accounts outside n) calls) w = .ok (t, total))
    (h : step (run step (genesis cfg accounts outside n) calls) c = .ok s') :
    (∀ currency, s'.rewardOf w currency = (total.get currency).getD 0) ↔
      Unforfeited (run step (genesis cfg accounts outside n) calls) c :=
  have hs := run_settleable accounts outside n calls
  step_settles hs.inRange hs.booked hs.pointsOwned hs.endsWeekly hw hearned h

namespace Sample

def accruing : List (Call config) :=
  [.createLock 1 4000 12, .notifyRewards 3 (some 20) [vdot]] ++ blocks 2

theorem accruing_increases :
    (step (run step (genesis config wealth () 1) accruing) (.increaseAmount 1 0 100)).toBool ∧
      (earned (run step (genesis config wealth () 1) accruing) 1).toBool := by
  decide +kernel

end Sample

theorem rewards_settled_accruing : ∃ s' t total,
    step (run step (genesis Sample.config Sample.wealth () 1) Sample.accruing)
      (.increaseAmount 1 0 100) = .ok s' ∧
    earned (run step (genesis Sample.config Sample.wealth () 1) Sample.accruing) 1 =
      .ok (t, total) ∧
    ∀ currency, s'.rewardOf 1 currency = (total.get currency).getD 0 := by
  obtain ⟨s', hstep⟩ := exists_of_toBool Sample.accruing_increases.1
  obtain ⟨⟨t, total⟩, hearned⟩ := exists_of_toBool Sample.accruing_increases.2
  exact ⟨s', t, total, hstep, hearned, (rewards_settled Sample.wealth () 1 Sample.accruing
    (.increaseAmount 1 0 100) 1 s' t total rfl hearned hstep).mpr trivial⟩

/-- An account redeems its only position early: it had earned rewards and is left none. -/
theorem rewards_forfeited :
    Yields (earned (run step Sample.start Sample.accruing) 1) fun e =>
      Yields (step (run step Sample.start Sample.accruing) (.redeemUnlock 1 0)) fun s' =>
        (e.2.get Sample.vdot).getD 0 = 99999 ∧ s'.rewardOf 1 Sample.vdot = 0 := by
  decide +kernel

end Bifrost.BbBnc
