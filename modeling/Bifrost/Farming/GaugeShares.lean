import Bifrost.Farming.Moves

/-!
# The shares of the gauge pools

A call on a pool sets the account's share in the gauge pool to its balance times some units. What
is left by a claim, a refresh or a withdrawal are the units of the account; a deposit takes what
it adds for them, and a withdrawal leaves an account without a gauge share as it is.
-/

namespace Bifrost.Farming

open Result Machine
set_option autoImplicit false

variable {AccountId : Type} [DecidableEq AccountId] {cfg : Config AccountId}
  {s s' : State cfg} {who : AccountId} {pid : ℕ} {pool : PoolInfo AccountId}

/-- The share in the gauge pool, if there is one, is the balance times the share in the pool. -/
def GaugeTracks (s : State cfg) (who : AccountId) (pid : ℕ) : Prop :=
  s.poolInfos (gaugePid pid) ≠ none → ∀ balance, s.bbBalance who = some balance →
    s.shareUnits (gaugePid pid) who = balance * s.shareUnits pid who

/-- What is to hold after a call: a refresh is for all pools of the account. -/
def CallTracks (s s' : State cfg) : Call cfg → Prop
  | .deposit who pid _ | .withdraw who pid _ | .claim who pid | .withdrawClaim who pid =>
    GaugeTracks s' who pid
  | .refresh who => ∀ pid ∈ s.userFarmingPool who, GaugeTracks s' who pid
  | _ => True

/-- No gauge pool, no balance, or a first deposit; one of all units is one, too. -/
def DepositTracks (s : State cfg) (who : AccountId) (pid n : ℕ) : Prop :=
  s.poolInfos (gaugePid pid) = none ∨ s.bbBalance who = some 0 ∨
    s.shareUnits pid who = 0 ∧ n ≤ u128Max ∨ n = u128Max

/-- No gauge pool, a gauge share, no balance, or nothing left. -/
def WithdrawTracks (s : State cfg) (who : AccountId) (pid : ℕ) (removeValue : Option ℕ) : Prop :=
  s.poolInfos (gaugePid pid) = none ∨ (s.shareOf (gaugePid pid) who).isSome ∨
    s.bbBalance who = some 0 ∨
    s.shareUnits pid who - removeValue.getD (s.shareUnits pid who) = 0

/-- No later pool has an earlier one, or the gauge pool of an earlier one, for its gauge pool;
the first only matters for an earlier pool with a gauge pool of its own. -/
def RefreshTracks (s : State cfg) (pids : List ℕ) : Prop :=
  pids.Pairwise fun pid later => s.poolInfos (gaugePid pid) = none ∨ later = pid ∨
    gaugePid later ≠ pid ∧ gaugePid later ≠ gaugePid pid

def KeepsGauge (s : State cfg) : Call cfg → Prop
  | .deposit who pid n => DepositTracks s who pid n
  | .withdraw who pid removeValue => WithdrawTracks s who pid removeValue
  | .refresh who => RefreshTracks s (s.userFarmingPool who)
  | _ => True

/-! What a function leaves of the units. -/

theorem shareUnits_eq (s : State cfg) (pid : ℕ) (who : AccountId) :
    s.shareUnits pid who = (s.shareOf pid who).elim 0 ShareInfo.share := by
  unfold State.shareUnits State.shareView
  cases s.shareOf pid who <;> rfl

theorem Local.shareUnits (h : Local pid s s') {j : ℕ} (hj : j ≠ pid) (w : AccountId) :
    s'.shareUnits j w = s.shareUnits j w := by
  unfold State.shareUnits
  rw [(h.view hj).2 w]

theorem addShare_ownUnits (s : State cfg) (who : AccountId) (pid : ℕ) (pool : PoolInfo AccountId)
    (n : ℕ) : (addShare s who pid pool n).shareUnits pid who =
      if n = 0 then s.shareUnits pid who else min (s.shareUnits pid who + n) u128Max := by
  unfold addShare
  split
  · rfl
  · rw [shareUnits_eq, shareUnits_eq, setPool_shareOf, shareOf_setShare_self]
    cases s.shareOf pid who <;> rfl

theorem claimRewards_units (h : claimRewards s who pid = .ok s') (j : ℕ) (w : AccountId) :
    s'.shareUnits j w = s.shareUnits j w := by
  unfold State.shareUnits
  rw [(claimRewards_view h j).2 w]

theorem removeShare_units {input : Option ℕ} {limitTime : ℕ}
    (h : removeShare s who pid input limitTime = .ok s') : s'.shareUnits pid who =
      s.shareUnits pid who - input.getD (s.shareUnits pid who) := by
  rcases removeShare_cases h with ⟨rfl, rfl⟩ | ⟨hinput, s₁, hclaim, htake⟩
  · simp
  · rw [← claimRewards_units hclaim pid who]
    rcases takeShare_cases htake with
      ⟨rfl, hnone⟩ | ⟨info, hinfo, -, ⟨hzero, rfl⟩ | ⟨pool, -, -, rfl⟩⟩
    · simp [shareUnits_eq, hnone]
    · rw [shareUnits_eq, shareUnits_eq, shareOf_setShare_self, hinfo]
      change 0 = info.share - input.getD info.share
      cases input with
      | none => simp
      | some n => exact absurd (congrArg some hzero) hinput
    · rw [shareUnits_eq, shareUnits_eq, setPool_shareOf, shareOf_setShare_self, hinfo]
      rfl

/-! The gauge share. -/

theorem updateGaugeShare_units {gid n : ℕ} {info : ShareInfo}
    (hinfo : s.shareOf gid who = some info) (hn : n ≤ u128Max)
    (h : updateGaugeShare s who gid n info.share pool = .ok s') : s'.shareUnits gid who = n := by
  have hunits : s.shareUnits gid who = info.share := shareUnits_some (shareView_some hinfo)
  unfold updateGaugeShare at h
  split at h
  · rw [removeShare_units h, hunits, Option.getD_some]
    omega
  · rw [← pure_eq_ok.mp h, addShare_ownUnits, hunits]
    split
    · omega
    · rw [Nat.min_eq_left (by omega)]
      omega

theorem updateGaugeShare_local {gid n share : ℕ}
    (h : updateGaugeShare s who gid n share pool = .ok s') : Local gid s s' := by
  unfold updateGaugeShare at h
  split at h
  · exact removeShare_local h
  · exact pure_eq_ok.mp h ▸ addShare_local ..

omit [DecidableEq AccountId] in
theorem gaugeValue_le {units n : ℕ} (h : gaugeValue s who units = .ok n) : n ≤ u128Max := by
  simp only [gaugeValue, bind_eq_ok, okOr_eq_ok, U128.checkedMul_eq_some] at h
  obtain ⟨balance, -, -, hle⟩ := h
  exact hle

theorem setGaugeShare_local {units : ℕ} (h : setGaugeShare s who pid units = .ok s') :
    Local (gaugePid pid) s s' := by
  unfold setGaugeShare at h
  cases hpool : s.poolInfos (gaugePid pid) with
  | none =>
    simp only [hpool, pure_eq_ok] at h
    exact h ▸ .refl s
  | some pool =>
    simp only [hpool, bind_eq_ok] at h
    obtain ⟨n, hn, h⟩ := h
    cases hinfo : s.shareOf (gaugePid pid) who with
    | none =>
      simp only [hinfo, pure_eq_ok] at h
      exact h ▸ addShare_local ..
    | some info =>
      simp only [hinfo] at h
      exact updateGaugeShare_local h

theorem setGaugeShare_units {units balance : ℕ} (hpool : s.poolInfos (gaugePid pid) ≠ none)
    (hbalance : s.bbBalance who = some balance) (h : setGaugeShare s who pid units = .ok s') :
    s'.shareUnits (gaugePid pid) who = balance * units := by
  unfold setGaugeShare at h
  cases hsome : s.poolInfos (gaugePid pid) with
  | none => exact absurd hsome hpool
  | some pool =>
    simp only [hsome, bind_eq_ok] at h
    obtain ⟨n, hn, h⟩ := h
    have hle := gaugeValue_le hn
    obtain ⟨balance', hbalance', rfl⟩ := gaugeValue_ok hn
    obtain rfl : balance = balance' := Option.some.inj (hbalance.symm.trans hbalance')
    cases hinfo : s.shareOf (gaugePid pid) who with
    | none =>
      simp only [hinfo, pure_eq_ok] at h
      have hzero : s.shareUnits (gaugePid pid) who = 0 := by
        rw [shareUnits_eq, hinfo]
        rfl
      rw [← h, addShare_ownUnits, hzero]
      split
      · omega
      · rw [Nat.zero_add, Nat.min_eq_left hle]
    | some info =>
      simp only [hinfo] at h
      exact updateGaugeShare_units hinfo hle h

/-! Which pools there are. -/

structure GaugeMoved (gid : ℕ) (s s' : State cfg) : Prop where
  bbBalance : s'.bbBalance = s.bbBalance
  pools : ∀ j, s'.poolInfos j = none ↔ s.poolInfos j = none
  units : ∀ j, j ≠ gid → ∀ w, s'.shareUnits j w = s.shareUnits j w

omit [DecidableEq AccountId] in
theorem setPool_pools {pool' : PoolInfo AccountId} (hpool : s.poolInfos pid = some pool) (j : ℕ) :
    (s.setPool pid (some pool')).poolInfos j = none ↔ s.poolInfos j = none := by
  by_cases hj : j = pid
  · subst j
    rw [setPool_self, hpool]
    exact iff_of_false (Option.some_ne_none _) (Option.some_ne_none _)
  · rw [setPool_ne _ _ _ hj]

theorem addShare_pools (hpool : s.poolInfos pid = some pool) (n j : ℕ) :
    (addShare s who pid pool n).poolInfos j = none ↔ s.poolInfos j = none := by
  unfold addShare
  split
  · exact Iff.rfl
  · exact setPool_pools (s := s.setShare pid who _) hpool j

theorem removeShare_pools {input : Option ℕ} {limitTime : ℕ}
    (h : removeShare s who pid input limitTime = .ok s') (j : ℕ) :
    s'.poolInfos j = none ↔ s.poolInfos j = none := by
  rcases removeShare_cases h with ⟨-, rfl⟩ | ⟨-, s₁, hclaim, htake⟩
  · exact Iff.rfl
  · have hclaimed : s₁.poolInfos j = none ↔ s.poolInfos j = none := by
      have hview := (claimRewards_view hclaim j).1
      unfold State.poolView at hview
      rw [← Option.map_eq_none_iff, hview, Option.map_eq_none_iff]
    rw [← hclaimed]
    rcases takeShare_cases htake with
      ⟨rfl, -⟩ | ⟨info, -, -, ⟨-, rfl⟩ | ⟨pool, -, hpool, rfl⟩⟩
    · exact Iff.rfl
    · exact Iff.rfl
    · exact setPool_pools (s := s₁.setShare pid who _) hpool j

theorem setGaugeShare_pools {units : ℕ} (h : setGaugeShare s who pid units = .ok s') (j : ℕ) :
    s'.poolInfos j = none ↔ s.poolInfos j = none := by
  unfold setGaugeShare at h
  cases hpool : s.poolInfos (gaugePid pid) with
  | none =>
    simp only [hpool, pure_eq_ok] at h
    rw [h]
  | some pool =>
    simp only [hpool, bind_eq_ok] at h
    obtain ⟨n, -, h⟩ := h
    cases hinfo : s.shareOf (gaugePid pid) who with
    | none =>
      simp only [hinfo, pure_eq_ok] at h
      rw [← h]
      exact addShare_pools hpool n j
    | some info =>
      simp only [hinfo, updateGaugeShare] at h
      split at h
      · exact removeShare_pools h j
      · rw [← pure_eq_ok.mp h]
        exact addShare_pools hpool _ j

theorem setGaugeShare_moved {units : ℕ} (h : setGaugeShare s who pid units = .ok s') :
    GaugeMoved (gaugePid pid) s s' :=
  ⟨(setGaugeShare_local h).bbBalance, setGaugeShare_pools h,
    fun _ hj => (setGaugeShare_local h).shareUnits hj⟩

theorem GaugeMoved.tracks_iff {balance : ℕ} (h : GaugeMoved (gaugePid pid) s s')
    (hpool : s.poolInfos (gaugePid pid) ≠ none) (hbalance : s.bbBalance who = some balance) :
    GaugeTracks s' who pid ↔
      s'.shareUnits (gaugePid pid) who = balance * s'.shareUnits pid who := by
  constructor
  · intro ht
    exact ht (fun hnone => hpool ((h.pools _).mp hnone)) balance (h.bbBalance ▸ hbalance)
  · intro heq _ balance' hbalance'
    rw [h.bbBalance, hbalance] at hbalance'
    cases hbalance'
    exact heq

theorem GaugeMoved.tracks_of_none (h : GaugeMoved (gaugePid pid) s s')
    (hnone : s.poolInfos (gaugePid pid) = none) : GaugeTracks s' who pid :=
  fun hpool => absurd ((h.pools _).mpr hnone) hpool

theorem setGaugeShare_balance {units : ℕ} (hpool : s.poolInfos (gaugePid pid) ≠ none)
    (h : setGaugeShare s who pid units = .ok s') : ∃ balance, s.bbBalance who = some balance := by
  unfold setGaugeShare at h
  cases hsome : s.poolInfos (gaugePid pid) with
  | none => exact absurd hsome hpool
  | some gaugePool =>
    simp only [hsome, bind_eq_ok] at h
    obtain ⟨n, hn, -⟩ := h
    obtain ⟨balance, hbalance, -⟩ := gaugeValue_ok hn
    exact ⟨balance, hbalance⟩

/-! The calls. -/

theorem setGaugeShare_tracks
    (h : setGaugeShare s who pid (s.shareUnits pid who) = .ok s') : GaugeTracks s' who pid := by
  have hmoved := setGaugeShare_moved h
  intro hpool balance hbalance
  rw [hmoved.bbBalance] at hbalance
  rw [hmoved.units pid (gaugePid_ne pid).symm]
  exact setGaugeShare_units (fun hnone => hpool ((hmoved.pools _).mpr hnone)) hbalance h

theorem refreshInner_tracks (h : refreshInner s who pid = .ok s') : GaugeTracks s' who pid := by
  unfold refreshInner at h
  cases hinfo : s.shareOf pid who with
  | none =>
    simp only [hinfo, pure_eq_ok] at h
    intro _ balance _
    rw [← h, shareUnits_eq, shareUnits_eq, shareOf_setShare_self, shareOf_setShare,
      if_neg fun hpid => gaugePid_ne pid hpid.1.symm]
    change 0 = balance * (s.shareOf pid who).elim 0 ShareInfo.share
    rw [hinfo]
    rfl
  | some info =>
    simp only [hinfo] at h
    have hunits : s.shareUnits pid who = info.share := shareUnits_some (shareView_some hinfo)
    rw [← hunits] at h
    exact setGaugeShare_tracks h

theorem refreshInner_moved (h : refreshInner s who pid = .ok s') :
    GaugeMoved (gaugePid pid) s s' := by
  unfold refreshInner at h
  cases hinfo : s.shareOf pid who with
  | none =>
    simp only [hinfo, pure_eq_ok] at h
    subst s'
    exact ⟨rfl, fun _ => Iff.rfl, fun _ hj w => (Local.setShare _ _ who none).shareUnits hj w⟩
  | some info =>
    simp only [hinfo] at h
    exact setGaugeShare_moved h

theorem refreshInner_keeps {later : ℕ} (hs : GaugeTracks s who pid)
    (hother : s.poolInfos (gaugePid pid) = none ∨ later = pid ∨
      gaugePid later ≠ pid ∧ gaugePid later ≠ gaugePid pid)
    (h : refreshInner s who later = .ok s') : GaugeTracks s' who pid := by
  have hmoved := refreshInner_moved h
  rcases hother with hnone | rfl | ⟨hpid, hgauge⟩
  · exact fun hpool => absurd ((hmoved.pools _).mpr hnone) hpool
  · exact refreshInner_tracks h
  · intro hpool balance hbalance
    rw [hmoved.bbBalance] at hbalance
    rw [hmoved.units _ hgauge.symm, hmoved.units _ hpid.symm]
    exact hs (fun hnone => hpool ((hmoved.pools _).mpr hnone)) balance hbalance

omit [DecidableEq AccountId] in
theorem RefreshTracks.of_pools {pids : List ℕ} (h : RefreshTracks s pids)
    (hpools : ∀ j, s'.poolInfos j = none ↔ s.poolInfos j = none) : RefreshTracks s' pids :=
  List.Pairwise.imp (fun hpair => hpair.imp_left (hpools _).mpr) h

theorem refreshAll_tracks {pids : List ℕ} (hok : RefreshTracks s pids)
    (h : pids.foldlM (fun s pid => refreshInner s who pid) s = .ok s') :
    ∀ pid ∈ pids, GaugeTracks s' who pid := by
  induction pids generalizing s with
  | nil => exact List.forall_mem_nil _
  | cons pid pids ih =>
    simp only [List.foldlM_cons, bind_eq_ok] at h
    obtain ⟨s₁, hfirst, hrest⟩ := h
    have hpools := (refreshInner_moved hfirst).pools
    obtain ⟨hlater, hrefresh⟩ := List.pairwise_cons.mp hok
    have hrefresh : RefreshTracks s pids := hrefresh
    refine List.forall_mem_cons.mpr ⟨?_, ih (hrefresh.of_pools hpools) hrest⟩
    have hkept : GaugeTracks s' who pid ∧
        ∀ j, s'.poolInfos j = none ↔ s₁.poolInfos j = none := by
      refine foldlM_invariant (I := fun t : State cfg => GaugeTracks t who pid ∧
        ∀ j, t.poolInfos j = none ↔ s₁.poolInfos j = none) ?_
        ⟨refreshInner_tracks hfirst, fun _ => Iff.rfl⟩ hrest
      rintro later hmem t t' ⟨ht, htpools⟩ hstep
      refine ⟨refreshInner_keeps ht ?_ hstep, fun j => ?_⟩
      · rw [htpools, hpools]
        exact hlater later hmem
      · rw [(refreshInner_moved hstep).pools, htpools]
    exact hkept.1

theorem claim_tracks (h : claim s who pid = .ok s') : GaugeTracks s' who pid := by
  simp only [claim, bind_eq_ok] at h
  obtain ⟨-, -, -, -, -, -, -, -, s₁, -, s₂, -, s₃, -, h⟩ := h
  exact refreshInner_tracks h

theorem withdrawClaim_tracks (h : withdrawClaim s who pid = .ok s') : GaugeTracks s' who pid := by
  simp only [withdrawClaim, bind_eq_ok] at h
  obtain ⟨-, -, s₁, -, h⟩ := h
  exact refreshInner_tracks h

theorem deposit_units_iff {u n : ℕ} :
    n = (if n = 0 then u else min (u + n) u128Max) ↔
      u = 0 ∧ n ≤ u128Max ∨ n = u128Max := by
  have hmax : 0 < u128Max := by decide
  split
  · omega
  · rcases Nat.le_total (u + n) u128Max with hle | hle
    · rw [Nat.min_eq_left hle]
      omega
    · rw [Nat.min_eq_right hle]
      omega

theorem deposit_tracks_iff {n : ℕ} (h : deposit s who pid n = .ok s') :
    GaugeTracks s' who pid ↔ DepositTracks s who pid n := by
  simp only [deposit, State.pool, bind_eq_ok, okOr_eq_ok, ensure_eq_ok] at h
  obtain ⟨pool, hpool, -, -, -, -, s₁, hpay, s₂, hgauge, h⟩ := h
  have hlocal := payShare_local hpay
  have hmoved := setGaugeShare_moved hgauge
  have hsame : GaugeTracks s' who pid ↔ GaugeTracks s₂ who pid := by
    split at h
    · rw [pure_eq_ok.mp h]
    · simp only [bind_eq_ok, ensure_eq_ok, pure_eq_ok] at h
      obtain ⟨-, -, rfl⟩ := h
      exact Iff.rfl
  have hunits : s₂.shareUnits pid who =
      if n = 0 then s.shareUnits pid who else min (s.shareUnits pid who + n) u128Max := by
    rw [hmoved.units pid (gaugePid_ne pid).symm]
    obtain ⟨tokens, ledger, -, rfl⟩ := payShare_ok hpay
    exact addShare_ownUnits ..
  have hbb : s₁.bbBalance = s.bbBalance := hlocal.bbBalance
  have hpools : s₁.poolInfos (gaugePid pid) = s.poolInfos (gaugePid pid) :=
    hlocal.poolInfos _ (gaugePid_ne pid)
  rw [hsame, DepositTracks, ← deposit_units_iff, ← hunits, ← hbb, ← hpools]
  by_cases hnone : s₁.poolInfos (gaugePid pid) = none
  · exact iff_of_true (hmoved.tracks_of_none hnone) (Or.inl hnone)
  · obtain ⟨balance, hbalance⟩ := setGaugeShare_balance hnone hgauge
    rw [hmoved.tracks_iff hnone hbalance, setGaugeShare_units hnone hbalance hgauge,
      mul_eq_mul_left_iff, hbalance, Option.some_inj]
    simp only [hnone, false_or]
    exact or_comm

theorem withdrawGauge_cases {units : ℕ} (h : withdrawGauge s who pid units = .ok s') :
    (s' = s ∧ (s.poolInfos (gaugePid pid) = none ∨ s.shareOf (gaugePid pid) who = none ∧
      ∃ balance, s.bbBalance who = some balance)) ∨
    (s.shareOf (gaugePid pid) who).isSome ∧ setGaugeShare s who pid units = .ok s' := by
  unfold withdrawGauge at h
  cases hpool : s.poolInfos (gaugePid pid) with
  | none =>
    simp only [hpool, pure_eq_ok] at h
    exact Or.inl ⟨h.symm, Or.inl rfl⟩
  | some gaugePool =>
    simp only [hpool, bind_eq_ok] at h
    obtain ⟨n, hn, h⟩ := h
    cases hinfo : s.shareOf (gaugePid pid) who with
    | none =>
      simp only [hinfo, pure_eq_ok] at h
      obtain ⟨balance, hbalance, -⟩ := gaugeValue_ok hn
      exact Or.inl ⟨h.symm, Or.inr ⟨rfl, balance, hbalance⟩⟩
    | some info =>
      simp only [hinfo] at h
      refine Or.inr ⟨rfl, ?_⟩
      unfold setGaugeShare
      simp only [hpool, hinfo, bind_eq_ok]
      exact ⟨n, hn, h⟩

theorem withdraw_tracks_iff {removeValue : Option ℕ}
    (h : withdraw s who pid removeValue = .ok s') :
    GaugeTracks s' who pid ↔ WithdrawTracks s who pid removeValue := by
  simp only [withdraw, State.pool, bind_eq_ok, okOr_eq_ok, ensure_eq_ok] at h
  obtain ⟨pool, -, -, -, info, hinfo, -, -, s₁, hremove, hgauge⟩ := h
  have hlocal := removeShare_local hremove
  have hshare : s.shareUnits pid who = info.share := shareUnits_some (shareView_some hinfo)
  have hunits : s₁.shareUnits pid who = info.share - removeValue.getD info.share := by
    rw [removeShare_units hremove, hshare]
  have hbb : s₁.bbBalance = s.bbBalance := hlocal.bbBalance
  have hpools : s₁.poolInfos (gaugePid pid) = s.poolInfos (gaugePid pid) :=
    hlocal.poolInfos _ (gaugePid_ne pid)
  have hrecord : s₁.shareOf (gaugePid pid) who = s.shareOf (gaugePid pid) who :=
    hlocal.shareOf (gaugePid_ne pid) who
  rw [WithdrawTracks, hshare, ← hunits, ← hbb, ← hpools, ← hrecord]
  rw [← hunits] at hgauge
  rcases withdrawGauge_cases hgauge with
    ⟨rfl, hnone | ⟨hgone, balance, hbalance⟩⟩ | ⟨hsome, hset⟩
  · exact iff_of_true (fun hpool => absurd hnone hpool) (Or.inl hnone)
  · by_cases hnone : s'.poolInfos (gaugePid pid) = none
    · exact iff_of_true (fun hpool => absurd hnone hpool) (Or.inl hnone)
    · have hmoved : GaugeMoved (gaugePid pid) s' s' :=
        ⟨rfl, fun _ => Iff.rfl, fun _ _ _ => rfl⟩
      have hzero : s'.shareUnits (gaugePid pid) who = 0 := by
        rw [shareUnits_eq, hgone]
        rfl
      rw [hmoved.tracks_iff hnone hbalance, hzero, hgone, hbalance, Option.some_inj, eq_comm,
        Nat.mul_eq_zero]
      simp [hnone]
  · exact iff_of_true (setGaugeShare_tracks hset) (Or.inr (Or.inl hsome))

theorem step_tracks {c : Call cfg} (hok : KeepsGauge s c) (h : step s c = .ok s') :
    CallTracks s s' c := by
  cases c with
  | deposit who pid n => exact (deposit_tracks_iff h).mpr hok
  | withdraw who pid removeValue => exact (withdraw_tracks_iff h).mpr hok
  | claim who pid => exact claim_tracks h
  | withdrawClaim who pid => exact withdrawClaim_tracks h
  | refresh who => exact refreshAll_tracks hok h
  | _ => trivial

/-- In every run of admitted calls the gauge shares track after each call; a call on one pool is
admitted exactly if they do after it. -/
theorem gauge_shares_track (s : State cfg) (calls : List (Call cfg)) :
    (Meets step KeepsGauge s calls →
      Meets step (fun s c => ∀ s', step s c = .ok s' → CallTracks s s' c) s calls) ∧
    ∀ (t t' : State cfg) (c : Call cfg), (∀ who, c ≠ .refresh who) → step t c = .ok t' →
      (CallTracks t t' c ↔ KeepsGauge t c) := by
  refine ⟨Meets.imp fun s c hok s' h => step_tracks hok h, ?_⟩
  intro t t' c hone h
  cases c with
  | deposit who pid n => exact deposit_tracks_iff h
  | withdraw who pid removeValue => exact withdraw_tracks_iff h
  | claim who pid => exact iff_of_true (claim_tracks h) trivial
  | withdrawClaim who pid => exact iff_of_true (withdrawClaim_tracks h) trivial
  | refresh who => exact absurd rfl (hone who)
  | _ => exact Iff.rfl

namespace Sample

/-- A deposit, a claim and a withdrawal of a part. -/
def gauging : List (Call config) :=
  opened (some []) ++ [.deposit 1 0 100, .onInitialize, .claim 1 0, .withdraw 1 0 (some 40)]

end Sample

theorem gauge_shares_track_gauging :
    Meets step (fun s c => ∀ s', step s c = .ok s' → CallTracks s s' c) Sample.start
      Sample.gauging :=
  (@gauge_shares_track ℕ _ Sample.config Sample.start Sample.gauging).1
    ⟨fun _ _ => trivial, fun _ _ => trivial,
      fun _ _ => Or.inr (Or.inr (Or.inl ⟨by decide +kernel, by decide +kernel⟩)),
      fun _ _ => trivial, fun _ _ => trivial,
      fun _ _ => Or.inr (Or.inl (by decide +kernel)), trivial⟩

/-- Two deposits with a balance of two: the gauge share follows the second one alone. -/
theorem second_deposit_untracked :
    ¬GaugeTracks (run step Sample.start (Sample.opened (some []) ++
      [.deposit 1 0 100, .deposit 1 0 50])) 1 0 := by
  intro h
  have hshare := h (by decide +kernel) 2 (by decide +kernel)
  revert hshare
  decide +kernel

end Bifrost.Farming
