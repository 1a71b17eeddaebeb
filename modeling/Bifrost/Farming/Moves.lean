import Bifrost.Farming.Transitions

/-!
# Calls as moves of shares

What an invariant has to survive is a list of moves (`Keeps`): shares are paid for, added, taken
or dropped, rewards are claimed, a withdraw list is processed. `Rules` says which moves it admits.
A call admits a rule when the moves it is going to make do, judged in the state before it; the
calls that go through a list judge each round in the state before that round.
-/

namespace Bifrost.Farming

open Result Machine
set_option autoImplicit false

variable {AccountId : Type} [DecidableEq AccountId] {cfg : Config AccountId}
  {s s' : State cfg} {who : AccountId} {pid : ℕ} {pool : PoolInfo AccountId}

/-- The arguments are a pool id, what is seen of the pool and of the record, and the amount. -/
structure Rules where
  pay : ℕ → PoolView → ℕ → ℕ → Prop
  add : ℕ → PoolView → ℕ → ℕ → Prop
  take : ℕ → ShareView → Option ℕ → Prop
  process : ℕ → ℕ → PoolView → ShareView → Prop
  drop : ℕ → ShareView → Prop

def State.shareUnits (s : State cfg) (pid : ℕ) (who : AccountId) : ℕ :=
  (s.shareView pid who).elim 0 ShareView.share

def State.SameBasket (s : State cfg) (pid : ℕ) (pool : PoolInfo AccountId) : Prop :=
  ∃ v, s.poolView pid = some v ∧
    v.tokensProportion = pool.tokensProportion ∧ v.basicToken = pool.basicToken

structure Keeps (rules : Rules) (I : State cfg → Prop) : Prop where
  pids : ∀ {s} f, I s → I { s with userFarmingPool := f }
  pay : ∀ {s s' who pid pool n}, I s → s.poolInfos pid = some pool →
    rules.pay pid pool.view (s.shareUnits pid who) n → payShare s who pid pool n = .ok s' → I s'
  add : ∀ {s who pid pool n}, I s → s.poolInfos pid = some pool →
    rules.add pid pool.view (s.shareUnits pid who) n → I (addShare s who pid pool n)
  claim : ∀ {s s' who pid}, I s → claimRewards s who pid = .ok s' → I s'
  take : ∀ {s s' who pid input limitTime}, I s → input ≠ some 0 →
    (∀ v, s.shareView pid who = some v → rules.take pid v input) →
    takeShare s who pid input limitTime = .ok s' → I s'
  process : ∀ {s s' who pid pool ifRemove}, I s → s.SameBasket pid pool →
    (∀ v, s.shareView pid who = some v → rules.process pid s.blockNumber pool.view v) →
    processWithdrawList s who pid pool ifRemove = .ok s' → I s'
  drop : ∀ {s who pid}, I s → (∀ v, s.shareView pid who = some v → rules.drop pid v) →
    I (s.setShare pid who none)

section Admits

variable (rules : Rules) (s : State cfg) (who : AccountId) (pid : ℕ)

def UpdateAdmits (gid : ℕ) (v : PoolView) (i : ShareView) (gaugeNewValue : ℕ) : Prop :=
  if gaugeNewValue < i.share then rules.take gid i (some (i.share - gaugeNewValue))
  else rules.add gid v i.share (gaugeNewValue - i.share)

/-- The gauge share that `units` of the pool give. -/
def GaugeAdmits (units : ℕ) : Prop :=
  ∀ balance v, s.bbBalance who = some balance → s.poolView (gaugePid pid) = some v →
    (∀ i, s.shareView (gaugePid pid) who = some i →
      UpdateAdmits rules (gaugePid pid) v i (balance * units)) ∧
    (s.shareView (gaugePid pid) who = none → rules.add (gaugePid pid) v 0 (balance * units))

def DropAdmits : Prop :=
  ∀ i, s.shareView (gaugePid pid) who = some i → rules.drop (gaugePid pid) i

def RefreshAdmits : Prop :=
  (∀ i, s.shareView pid who = some i → GaugeAdmits rules s who pid i.share) ∧
    (s.shareView pid who = none → DropAdmits rules s who pid)

def DepositAdmits (n : ℕ) : Prop :=
  (∀ v, s.poolView pid = some v → rules.pay pid v (s.shareUnits pid who) n) ∧
    GaugeAdmits rules s who pid n

def WithdrawAdmits (removeValue : Option ℕ) : Prop :=
  ∀ i, s.shareView pid who = some i → rules.take pid i removeValue ∧
    ∀ balance v j, s.bbBalance who = some balance → s.poolView (gaugePid pid) = some v →
      s.shareView (gaugePid pid) who = some j →
      UpdateAdmits rules (gaugePid pid) v j (balance * (i.share - removeValue.getD i.share))

/-- The record goes away when a claim is processed. -/
def ShareView.Leaves (i : ShareView) (now : ℕ) : Prop :=
  i.share = 0 ∧ ∀ e ∈ i.withdrawList, e.1 ≤ now

def ClaimAdmits : Prop :=
  ∀ v i, s.poolView pid = some v → s.shareView pid who = some i →
    rules.process pid s.blockNumber v i ∧
    (i.Leaves s.blockNumber → DropAdmits rules s who pid) ∧
    (¬ i.Leaves s.blockNumber → GaugeAdmits rules s who pid i.share)

def WithdrawClaimAdmits : Prop :=
  (∀ v i, s.poolView pid = some v → s.shareView pid who = some i →
    rules.process pid s.blockNumber v i) ∧ RefreshAdmits rules s who pid

/-- One round of `force_retire_pool`: the shares join the withdraw list, which is processed. -/
def RetireAdmits (pool : PoolInfo AccountId) : Prop :=
  ∀ i, s.shareView pid who = some i → rules.take pid i none ∧
    (i.share ≠ 0 → rules.process pid s.blockNumber pool.view
      ⟨0, i.withdrawList ++ [(s.blockNumber % 2 ^ 32, i.share)]⟩)

def MovesAdmit : Call cfg → Prop
  | .deposit who pid n => DepositAdmits rules s who pid n
  | .withdraw who pid removeValue => WithdrawAdmits rules s who pid removeValue
  | .claim who pid => ClaimAdmits rules s who pid
  | .withdrawClaim who pid => WithdrawClaimAdmits rules s who pid
  | .forceRetirePool pid => ∀ pool, s.poolInfos pid = some pool →
    Meets (retireShare pid pool) (fun s who => RetireAdmits rules s who pid pool) s
      ((cfg.accountOrder.arrange (s.shares pid).keys).take s.retireLimit)
  | .refresh who =>
    Meets (fun s pid => refreshInner s who pid) (fun s pid => RefreshAdmits rules s who pid) s
      (s.userFarmingPool who)
  | _ => True

end Admits

theorem shareUnits_some {i : ShareView} (h : s.shareView pid who = some i) :
    s.shareUnits pid who = i.share := by simp [State.shareUnits, h]

omit [DecidableEq AccountId] in
theorem poolView_some (h : s.poolInfos pid = some pool) : s.poolView pid = some pool.view := by
  simp [State.poolView, h]

theorem shareView_some {info : ShareInfo} (h : s.shareOf pid who = some info) :
    s.shareView pid who = some info.view := by simp [State.shareView, h]

theorem shareView_none (h : s.shareOf pid who = none) : s.shareView pid who = none := by
  simp [State.shareView, h]

omit [DecidableEq AccountId] in
theorem sameBasket_of_view {v : PoolView} (h : s.poolView pid = some v)
    (hpool : v = pool.view) : s.SameBasket pid pool := by
  subst v
  exact ⟨_, h, rfl, rfl⟩

theorem Local.view (h : Local pid s s') {j : ℕ} (hj : j ≠ pid) :
    s'.poolView j = s.poolView j ∧ ∀ w, s'.shareView j w = s.shareView j w := by
  unfold State.poolView State.shareView
  rw [h.poolInfos j hj]
  exact ⟨rfl, fun w => by rw [h.shareOf hj w]⟩

theorem GaugeAdmits.of_view {rules : Rules} {units : ℕ} (h : GaugeAdmits rules s who pid units)
    (hbb : s'.bbBalance = s.bbBalance) (hview : s'.poolView (gaugePid pid) =
      s.poolView (gaugePid pid) ∧ ∀ w, s'.shareView (gaugePid pid) w =
        s.shareView (gaugePid pid) w) : GaugeAdmits rules s' who pid units := by
  unfold GaugeAdmits
  rw [hbb, hview.1, hview.2 who]
  exact h

theorem DropAdmits.of_view {rules : Rules} (h : DropAdmits rules s who pid)
    (hview : ∀ w, s'.shareView (gaugePid pid) w = s.shareView (gaugePid pid) w) :
    DropAdmits rules s' who pid := by
  unfold DropAdmits
  rw [hview who]
  exact h

omit [DecidableEq AccountId] in
theorem gaugeValue_ok {units n : ℕ} (h : gaugeValue s who units = .ok n) :
    ∃ balance, s.bbBalance who = some balance ∧ n = balance * units := by
  simp only [gaugeValue, bind_eq_ok, okOr_eq_ok, U128.checkedMul_eq_some] at h
  obtain ⟨balance, hbalance, hmul, -⟩ := h
  exact ⟨balance, hbalance, hmul.symm⟩

omit [DecidableEq AccountId] in
theorem State.SameBasket.of_view (h : s.SameBasket pid pool)
    (hview : s'.poolView pid = s.poolView pid) : s'.SameBasket pid pool := by
  obtain ⟨v, hv, hsame⟩ := h
  exact ⟨v, hview.trans hv, hsame⟩

theorem State.SameBasket.remove {input : Option ℕ} {limitTime : ℕ}
    (h : s.SameBasket pid pool) (hremove : removeShare s who pid input limitTime = .ok s') :
    s'.SameBasket pid pool := by
  rcases removeShare_cases hremove with ⟨-, rfl⟩ | ⟨-, s₁, hclaim, htake⟩
  · exact h
  · have h₁ := h.of_view (claimRewards_view hclaim pid).1
    rcases takeShare_cases htake with ⟨rfl, -⟩ | ⟨info, -, -, ⟨-, rfl⟩ | ⟨pool₁, -, hpool₁, rfl⟩⟩
    · exact h₁
    · exact h₁
    · obtain ⟨v, hv, hsame⟩ := h₁
      rw [poolView_some hpool₁] at hv
      cases hv
      exact ⟨_, poolView_some (setPool_self _ pid _), hsame⟩

theorem State.SameBasket.process {pool pool' : PoolInfo AccountId} {ifRemove : Bool}
    (h : s.SameBasket pid pool)
    (hprocess : processWithdrawList s who pid pool' ifRemove = .ok s') :
    s'.SameBasket pid pool := by
  rcases processWithdrawList_cases hprocess with ⟨rfl, -⟩ | ⟨info, s₁, -, hpay, rfl⟩
  · exact h
  · obtain ⟨ledger, p, rfl⟩ := payUnits_all hpay
    exact h

theorem removeShare_all {v : ShareView} (h : removeShare s who pid none 0 = .ok s')
    (hv : s'.shareView pid who = some v) :
    ∃ i, s.shareView pid who = some i ∧ i.share ≠ 0 ∧
      v = ⟨0, i.withdrawList ++ [(s.blockNumber % 2 ^ 32, i.share)]⟩ := by
  rcases removeShare_cases h with ⟨hzero, -⟩ | ⟨-, s₁, hclaim, htake⟩
  · contradiction
  · have hview := (claimRewards_view hclaim pid).2 who
    have hnow := (claimRewards_local hclaim).blockNumber
    rcases takeShare_cases htake with ⟨rfl, hnone⟩ | ⟨info, hinfo, -, ⟨-, rfl⟩ | ⟨pool, hne, -, rfl⟩⟩
    · rw [shareView_none hnone] at hv
      contradiction
    · simp [State.shareView] at hv
    · refine ⟨info.view, ?_, hne, ?_⟩
      · rw [← hview]
        exact shareView_some hinfo
      · simp only [State.shareView, setPool_shareOf, shareOf_setShare_self, Option.map_some,
          Option.some.injEq, hnow, Nat.add_zero, Option.getD_none] at hv
        rw [← hv]
        simp [ShareInfo.view, ShareInfo.deflated]

theorem processWithdrawList_record {ifRemove : Bool} {i : ShareView}
    (h : processWithdrawList s who pid pool ifRemove = .ok s')
    (hi : s.shareView pid who = some i) :
    (ifRemove = true ∧ i.Leaves s.blockNumber ∧ s'.shareView pid who = none) ∨
    (¬ (ifRemove = true ∧ i.Leaves s.blockNumber) ∧
      ∃ i', s'.shareView pid who = some i' ∧ i'.share = i.share) := by
  rcases processWithdrawList_cases h with ⟨-, hnone⟩ | ⟨info, s₁, hinfo, -, rfl⟩
  · rw [shareView_none hnone] at hi
    contradiction
  · rw [shareView_some hinfo] at hi
    cases hi
    unfold State.shareView
    rw [shareOf_setShare_self, ShareInfo.processed]
    have hrest : (info.pending s.blockNumber).withdrawList = [] ↔
        ∀ e ∈ info.withdrawList, e.1 ≤ s.blockNumber := by
      simp [ShareInfo.pending, List.filter_eq_nil_iff]
    split
    · rename_i hkeep
      refine Or.inr ⟨?_, _, rfl, rfl⟩
      rintro ⟨hremove, hzero, hdue⟩
      rcases hkeep with hlist | hshare | hfalse
      · exact hlist (hrest.mpr hdue)
      · exact hshare hzero
      · rw [hremove] at hfalse
        contradiction
    · rename_i hgone
      simp only [ne_eq, not_or, not_not, Bool.not_eq_false] at hgone
      exact Or.inl ⟨hgone.2.2, ⟨hgone.2.1, hrest.mp hgone.1⟩, rfl⟩

namespace Keeps

variable {rules : Rules} {I : State cfg → Prop} (hI : Keeps rules I)
include hI

theorem remove {input : Option ℕ} {limitTime : ℕ} (hs : I s)
    (hok : ∀ v, s.shareView pid who = some v → rules.take pid v input)
    (h : removeShare s who pid input limitTime = .ok s') : I s' := by
  rcases removeShare_cases h with ⟨-, rfl⟩ | ⟨hinput, s₁, hclaim, htake⟩
  · exact hs
  · refine hI.take (hI.claim hs hclaim) hinput ?_ htake
    rw [(claimRewards_view hclaim pid).2 who]
    exact hok

theorem update {gid n : ℕ} {info : ShareInfo} (hs : I s) (hpool : s.poolInfos gid = some pool)
    (hinfo : s.shareOf gid who = some info) (hok : UpdateAdmits rules gid pool.view info.view n)
    (h : updateGaugeShare s who gid n info.share pool = .ok s') : I s' := by
  unfold updateGaugeShare at h
  unfold UpdateAdmits at hok
  split at h
  · rename_i hlt
    rw [if_pos (by exact hlt)] at hok
    refine hI.remove hs ?_ h
    intro v hv
    rw [shareView_some hinfo] at hv
    cases hv
    exact hok
  · rename_i hge
    rw [if_neg (by exact hge)] at hok
    rw [pure_eq_ok] at h
    subst s'
    apply hI.add hs hpool
    rw [shareUnits_some (shareView_some hinfo)]
    exact hok

theorem gauge {units : ℕ} (hs : I s) (hok : GaugeAdmits rules s who pid units)
    (h : setGaugeShare s who pid units = .ok s') : I s' := by
  unfold setGaugeShare at h
  cases hpool : s.poolInfos (gaugePid pid) with
  | none =>
    simp only [hpool, pure_eq_ok] at h
    exact h ▸ hs
  | some pool =>
    simp only [hpool, bind_eq_ok] at h
    obtain ⟨n, hn, h⟩ := h
    obtain ⟨balance, hbalance, rfl⟩ := gaugeValue_ok hn
    obtain ⟨hupdate, hadd⟩ := hok balance _ hbalance (poolView_some hpool)
    cases hinfo : s.shareOf (gaugePid pid) who with
    | none =>
      simp only [hinfo, pure_eq_ok] at h
      subst s'
      apply hI.add hs hpool
      rw [State.shareUnits, shareView_none hinfo]
      exact hadd (shareView_none hinfo)
    | some info =>
      simp only [hinfo] at h
      exact hI.update hs hpool hinfo (hupdate _ (shareView_some hinfo)) h

theorem dropGauge (hs : I s) (hok : DropAdmits rules s who pid) (f : AccountId → List ℕ) :
    I ({ s with userFarmingPool := f }.setShare (gaugePid pid) who none) :=
  hI.drop (hI.pids f hs) hok

theorem refresh (hs : I s) (hok : RefreshAdmits rules s who pid)
    (h : refreshInner s who pid = .ok s') : I s' := by
  unfold refreshInner at h
  cases hinfo : s.shareOf pid who with
  | none =>
    simp only [hinfo, pure_eq_ok] at h
    subst s'
    exact hI.dropGauge hs (hok.2 (shareView_none hinfo)) _
  | some info =>
    simp only [hinfo] at h
    exact hI.gauge hs (hok.1 _ (shareView_some hinfo)) h

theorem refreshAll (hs : I s) (hok : MovesAdmit rules s (.refresh who))
    (h : refreshGaugePool s who = .ok s') : I s' := by
  have hrun := run_of_foldlM h
  rw [← hrun]
  exact run_invariant (fun s pid s' hs hok h => hI.refresh hs hok h) _ hs hok

theorem deposit {n : ℕ} (hs : I s) (hok : DepositAdmits rules s who pid n)
    (h : deposit s who pid n = .ok s') : I s' := by
  simp only [Farming.deposit, State.pool, bind_eq_ok, okOr_eq_ok, ensure_eq_ok] at h
  obtain ⟨pool, hpool, -, -, -, -, s₁, hpay, s₂, hgauge, h⟩ := h
  have hs₁ := hI.pay hs hpool (hok.1 _ (poolView_some hpool)) hpay
  have hlocal := payShare_local hpay
  have hs₂ := hI.gauge hs₁ (hok.2.of_view hlocal.bbBalance (hlocal.view (gaugePid_ne pid))) hgauge
  split at h
  · exact pure_eq_ok.mp h ▸ hs₂
  · simp only [bind_eq_ok, ensure_eq_ok, pure_eq_ok] at h
    obtain ⟨-, -, rfl⟩ := h
    exact hI.pids _ hs₂

theorem withdraw {removeValue : Option ℕ} (hs : I s)
    (hok : WithdrawAdmits rules s who pid removeValue)
    (h : withdraw s who pid removeValue = .ok s') : I s' := by
  simp only [Farming.withdraw, State.pool, bind_eq_ok, okOr_eq_ok, ensure_eq_ok] at h
  obtain ⟨pool, -, -, -, info, hinfo, -, -, s₁, hremove, h⟩ := h
  obtain ⟨htake, hgauge⟩ := hok _ (shareView_some hinfo)
  have hs₁ : I s₁ := by
    refine hI.remove hs ?_ hremove
    intro v hv
    rw [shareView_some hinfo] at hv
    cases hv
    exact htake
  have hlocal := removeShare_local hremove
  have hview := hlocal.view (gaugePid_ne pid)
  unfold withdrawGauge at h
  cases hg : s₁.poolInfos (gaugePid pid) with
  | none =>
    simp only [hg, pure_eq_ok] at h
    exact h ▸ hs₁
  | some gaugePool =>
    simp only [hg, bind_eq_ok] at h
    obtain ⟨n, hn, h⟩ := h
    obtain ⟨balance, hbalance, rfl⟩ := gaugeValue_ok hn
    cases hj : s₁.shareOf (gaugePid pid) who with
    | none =>
      simp only [hj, pure_eq_ok] at h
      exact h ▸ hs₁
    | some j =>
      simp only [hj] at h
      refine hI.update hs₁ hg hj ?_ h
      apply hgauge balance _ _ (hlocal.bbBalance ▸ hbalance)
      · rw [← hview.1]
        exact poolView_some hg
      · rw [← hview.2 who]
        exact shareView_some hj

theorem claimCall (hs : I s) (hok : ClaimAdmits rules s who pid)
    (h : Farming.claim s who pid = .ok s') : I s' := by
  simp only [Farming.claim, State.pool, bind_eq_ok, okOr_eq_ok, ensure_eq_ok] at h
  obtain ⟨pool, hpool, -, -, info, hinfo, -, -, s₁, h₁, s₂, h₂, s₃, hprocess, h⟩ := h
  obtain ⟨hok, hleaves, hstays⟩ := hok _ _ (poolView_some hpool) (shareView_some hinfo)
  have hlocal₁ := claimRewards_local h₁
  have hlocal₂ := claimRewards_local h₂
  -- What the two claims leave to be seen is what there was.
  have hview : ∀ j, s₂.poolView j = s.poolView j ∧ ∀ w, s₂.shareView j w = s.shareView j w := by
    intro j
    obtain ⟨hp₁, hi₁⟩ := claimRewards_view h₁ j
    obtain ⟨hp₂, hi₂⟩ := claimRewards_view h₂ j
    exact ⟨hp₂.trans hp₁, fun w => (hi₂ w).trans (hi₁ w)⟩
  have hnow : s₂.blockNumber = s.blockNumber := hlocal₂.blockNumber.trans hlocal₁.blockNumber
  have hs₂ := hI.claim (hI.claim hs h₁) h₂
  have hbasket : s₂.SameBasket pid pool :=
    sameBasket_of_view ((hview pid).1.trans (poolView_some hpool)) rfl
  have hs₃ : I s₃ := by
    refine hI.process hs₂ hbasket ?_ hprocess
    intro v hv
    rw [(hview pid).2 who, shareView_some hinfo] at hv
    cases hv
    rw [hnow]
    exact hok
  have hlocal₃ := processWithdrawList_local hprocess
  have hgview : s₃.poolView (gaugePid pid) = s.poolView (gaugePid pid) ∧
      ∀ w, s₃.shareView (gaugePid pid) w = s.shareView (gaugePid pid) w := by
    obtain ⟨hp, hi⟩ := hlocal₃.view (gaugePid_ne pid)
    exact ⟨hp.trans (hview _).1, fun w => (hi w).trans ((hview _).2 w)⟩
  have hbb : s₃.bbBalance = s.bbBalance :=
    hlocal₃.bbBalance.trans (hlocal₂.bbBalance.trans hlocal₁.bbBalance)
  have hseen : s₂.shareView pid who = some info.view :=
    ((hview pid).2 who).trans (shareView_some hinfo)
  refine hI.refresh hs₃ ?_ h
  rcases processWithdrawList_record hprocess hseen with
    ⟨-, hleave, hnone⟩ | ⟨hstay, i, hi, hshare⟩
  · constructor
    · intro i hi
      rw [hnone] at hi
      contradiction
    · intro _
      exact (hleaves (hnow ▸ hleave)).of_view hgview.2
  · constructor
    · intro j hj
      rw [hi] at hj
      cases hj
      rw [hshare]
      refine (hstays ?_).of_view hbb hgview
      intro hleave
      exact hstay ⟨rfl, hnow ▸ hleave⟩
    · intro hnone
      rw [hi] at hnone
      contradiction

theorem withdrawClaim (hs : I s) (hok : WithdrawClaimAdmits rules s who pid)
    (h : withdrawClaim s who pid = .ok s') : I s' := by
  simp only [Farming.withdrawClaim, State.pool, bind_eq_ok, okOr_eq_ok] at h
  obtain ⟨pool, hpool, s₁, hprocess, h⟩ := h
  have hs₁ : I s₁ := by
    refine hI.process hs (sameBasket_of_view (poolView_some hpool) rfl) ?_ hprocess
    intro v hv
    exact hok.1 _ _ (poolView_some hpool) hv
  have hlocal := processWithdrawList_local hprocess
  have hview := hlocal.view (gaugePid_ne pid)
  refine hI.refresh hs₁ ?_ h
  cases hi : s.shareView pid who with
  | none =>
    rcases processWithdrawList_cases hprocess with ⟨rfl, -⟩ | ⟨info, s', hinfo, -, -⟩
    · exact hok.2
    · rw [shareView_some hinfo] at hi
      contradiction
  | some i =>
    rcases processWithdrawList_record hprocess hi with ⟨hfalse, -⟩ | ⟨-, i', hi', hshare⟩
    · contradiction
    · constructor
      · intro j hj
        rw [hi'] at hj
        cases hj
        rw [hshare]
        exact (hok.2.1 i hi).of_view hlocal.bbBalance hview
      · intro hnone
        rw [hi'] at hnone
        contradiction

theorem retireRound (hs : I s ∧ s.SameBasket pid pool) (hok : RetireAdmits rules s who pid pool)
    (h : retireShare pid pool s who = .ok s') : I s' ∧ s'.SameBasket pid pool := by
  simp only [retireShare, bind_eq_ok] at h
  obtain ⟨s₁, hremove, hprocess⟩ := h
  obtain ⟨hs, hbasket⟩ := hs
  have hs₁ := hI.remove hs (fun v hv => (hok v hv).1) hremove
  have hbasket₁ := hbasket.remove hremove
  refine ⟨hI.process hs₁ hbasket₁ ?_ hprocess, hbasket₁.process hprocess⟩
  intro v hv
  have hlocal := removeShare_local hremove
  rw [hlocal.blockNumber]
  obtain ⟨i, hi, hne, rfl⟩ := removeShare_all hremove hv
  exact (hok i hi).2 hne

theorem retireAll {accounts : List AccountId} (hs : I s) (hpool : s.poolInfos pid = some pool)
    (hok : Meets (retireShare pid pool) (fun s who => RetireAdmits rules s who pid pool) s
      accounts) (h : accounts.foldlM (retireShare pid pool) s = .ok s') :
    I s' ∧ s'.SameBasket pid pool := by
  have hrun := run_of_foldlM h
  rw [← hrun]
  exact run_invariant (I := fun s => I s ∧ s.SameBasket pid pool)
    (fun s who s' hs hok h => hI.retireRound hs hok h) _
    ⟨hs, sameBasket_of_view (poolView_some hpool) rfl⟩ hok

end Keeps

/-! The calls that do nothing else. -/

def Call.MovesShares : Call cfg → Prop
  | .deposit .. | .withdraw .. | .claim .. | .withdrawClaim .. | .refresh .. => True
  | _ => False

theorem Keeps.call {rules : Rules} {I : State cfg → Prop} (hI : Keeps rules I) {c : Call cfg}
    (hc : c.MovesShares) (hs : I s) (hok : MovesAdmit rules s c) (h : step s c = .ok s') :
    I s' := by
  cases c <;> simp only [Call.MovesShares] at hc
  · exact hI.deposit hs hok h
  · exact hI.withdraw hs hok h
  · exact hI.claimCall hs hok h
  · exact hI.withdrawClaim hs hok h
  · exact hI.refreshAll hs hok h

/-- Every move is admitted. -/
def Rules.free : Rules where
  pay := fun _ _ _ _ => True
  add := fun _ _ _ _ => True
  take := fun _ _ _ => True
  process := fun _ _ _ _ => True
  drop := fun _ _ => True

theorem gaugeAdmits_free (s : State cfg) (who : AccountId) (pid units : ℕ) :
    GaugeAdmits Rules.free s who pid units := by
  intro balance v _ _
  refine ⟨fun i _ => ?_, fun _ => trivial⟩
  unfold UpdateAdmits
  split <;> trivial

theorem refreshAdmits_free (s : State cfg) (who : AccountId) (pid : ℕ) :
    RefreshAdmits Rules.free s who pid :=
  ⟨fun i _ => gaugeAdmits_free s who pid i.share, fun _ _ _ => trivial⟩

theorem movesAdmit_free (s : State cfg) (c : Call cfg) : MovesAdmit Rules.free s c := by
  cases c <;> simp only [MovesAdmit]
  case deposit who pid n => exact ⟨fun _ _ => trivial, gaugeAdmits_free s who pid n⟩
  case withdraw who pid removeValue =>
    intro i _
    refine ⟨trivial, fun balance v j _ _ _ => ?_⟩
    unfold UpdateAdmits
    split <;> trivial
  case claim who pid =>
    intro v i _ _
    exact ⟨trivial, fun _ _ _ => trivial, fun _ => gaugeAdmits_free s who pid i.share⟩
  case withdrawClaim who pid => exact ⟨fun _ _ _ _ => trivial, refreshAdmits_free s who pid⟩
  case forceRetirePool pid =>
    intro pool _
    exact meets_of_forall _ (fun who _ s i _ => ⟨trivial, fun _ => trivial⟩) s
  case refresh who => exact meets_of_forall _ (fun pid _ s => refreshAdmits_free s who pid) s

theorem keeps_boost (boost : Boost AccountId) (n : ℕ) :
    Keeps Rules.free fun s : State cfg => s.boost = boost ∧ s.blockNumber = n where
  pids := fun _ hs => hs
  pay := fun hs _ _ h =>
    ⟨(payShare_local h).boost.trans hs.1, (payShare_local h).blockNumber.trans hs.2⟩
  add := fun hs _ _ =>
    ⟨(addShare_local ..).boost.trans hs.1, (addShare_local ..).blockNumber.trans hs.2⟩
  claim := fun hs h =>
    ⟨(claimRewards_local h).boost.trans hs.1, (claimRewards_local h).blockNumber.trans hs.2⟩
  take := fun hs _ _ h =>
    ⟨(takeShare_local h).boost.trans hs.1, (takeShare_local h).blockNumber.trans hs.2⟩
  process := fun hs _ _ h => ⟨(processWithdrawList_local h).boost.trans hs.1,
    (processWithdrawList_local h).blockNumber.trans hs.2⟩
  drop := fun hs _ => hs

omit [DecidableEq AccountId] in
theorem GaugeSet.context {keep : Prop} (h : GaugeSet keep pid pool s s') :
    s'.boost = s.boost ∧ s'.blockNumber = s.blockNumber := by
  rcases h with rfl | ⟨gaugePool, rfl, -⟩
  · exact ⟨rfl, rfl⟩
  · exact ⟨rfl, rfl⟩

/-- The calls on a pool, and those around the rounds. -/
def Call.Boosts : Call cfg → Prop
  | .addBoostPoolWhitelist .. | .setNextRoundWhitelist .. | .vote .. | .startBoostRound ..
  | .endBoostRound | .onInitialize => True
  | _ => False

theorem step_boost {c : Call cfg} (hc : ¬ c.Boosts) (h : step s c = .ok s') :
    s'.boost = s.boost ∧ s'.blockNumber = s.blockNumber := by
  by_cases hshares : c.MovesShares
  · exact (keeps_boost s.boost s.blockNumber).call hshares ⟨rfl, rfl⟩ (movesAdmit_free s c) h
  · cases c <;> simp only [Call.MovesShares, Call.Boosts, not_true_eq_false] at hshares hc
    case createFarmingPool =>
      obtain ⟨s₁, pool, hset, -, -, rfl⟩ := createFarmingPool_ok h
      exact hset.context
    case charge =>
      obtain ⟨pool, pool', ledger, -, -, rfl⟩ := charge_ok h
      exact ⟨rfl, rfl⟩
    case forceRetirePool pid =>
      obtain ⟨pool, s₁, hpool, hloop, hdone⟩ := forceRetirePool_ok h
      have hs₁ := ((keeps_boost s.boost s.blockNumber).retireAll ⟨rfl, rfl⟩ hpool
        (meets_of_forall _ (fun _ _ _ _ _ => ⟨trivial, fun _ => trivial⟩) _) hloop).1
      rcases hdone with ⟨-, pool', -, rfl⟩ | ⟨-, rfl⟩
      · exact hs₁
      · exact hs₁
    case setRetireLimit =>
      cases h
      exact ⟨rfl, rfl⟩
    case closePool =>
      obtain ⟨pool, pool', -, -, rfl⟩ := closePool_ok h
      exact ⟨rfl, rfl⟩
    case resetPool =>
      obtain ⟨pool, pool', s₁, -, hset, -, -, -, -, rfl⟩ := resetPool_ok h
      exact hset.context
    case killPool =>
      rw [killPool_ok h]
      exact ⟨rfl, rfl⟩
    case editPool =>
      obtain ⟨pool, pool', s₁, -, hset, -, -, rfl⟩ := editPool_ok h
      exact hset.context
    case forceGaugeClaim =>
      cases h
      exact ⟨rfl, rfl⟩
    case chargeBoost =>
      obtain ⟨ledger, rfl⟩ := chargeBoost_ok h
      exact ⟨rfl, rfl⟩
    case environment =>
      cases h
      exact ⟨rfl, rfl⟩

/-! The calls that pass the pools by. -/

structure SamePools (s s' : State cfg) : Prop where
  poolInfos : s'.poolInfos = s.poolInfos
  shares : s'.shares = s.shares
  principal : s'.principal = s.principal

def Call.Idle : Call cfg → Prop
  | .setRetireLimit .. | .forceGaugeClaim .. | .addBoostPoolWhitelist ..
  | .setNextRoundWhitelist .. | .vote .. | .startBoostRound .. | .endBoostRound
  | .chargeBoost .. | .environment .. => True
  | _ => False

omit [DecidableEq AccountId] in
theorem nextRound_pools (s : State cfg) : SamePools s (nextRound s) := by
  unfold nextRound
  split
  · rcases autoStartBoostRound_rest (endBoostRoundInner s) with hstay | ⟨ledger, boost, hauto, -⟩
    · rw [hstay]
      exact ⟨rfl, rfl, rfl⟩
    · rw [hauto]
      exact ⟨rfl, rfl, rfl⟩
  · exact ⟨rfl, rfl, rfl⟩

theorem step_idle {c : Call cfg} (hc : c.Idle) (h : step s c = .ok s') : SamePools s s' := by
  cases c <;> simp only [Call.Idle] at hc
  case vote who voteList =>
    simp only [step, voteInner, bind_eq_ok, pure_eq_ok] at h
    obtain ⟨-, -, -, -, -, -, -, -, rfl⟩ := h
    exact ⟨rfl, rfl, rfl⟩
  case startBoostRound =>
    obtain ⟨ledger, boost, rfl, -⟩ := startBoostRoundInner_ok h
    exact ⟨rfl, rfl, rfl⟩
  case chargeBoost =>
    obtain ⟨ledger, rfl⟩ := chargeBoost_ok h
    exact ⟨rfl, rfl, rfl⟩
  all_goals
    cases h
    exact ⟨rfl, rfl, rfl⟩

/-! Retiring a pool that nobody has shares of. -/

theorem retireShare_idle (h : retireShare pid pool s who = .ok s')
    (hzero : ∀ info, s.shareOf pid who = some info → info.share = 0) :
    s' = s.setShare pid who none ∨ s' = s ∧ s.shareOf pid who = none := by
  simp only [retireShare, bind_eq_ok] at h
  obtain ⟨s₂, hremove, hprocess⟩ := h
  rcases removeShare_cases hremove with ⟨hinput, -⟩ | ⟨-, s₁, hclaim, htake⟩
  · contradiction
  · have hs₁ : s₁ = s := by
      rcases claimRewards_cases hclaim with ⟨hsame, -⟩ | ⟨info, -, -, hinfo, hne, -⟩
      · exact hsame
      · exact absurd (hzero info hinfo) hne
    subst s₁
    rcases takeShare_cases htake with
      ⟨rfl, hnone⟩ | ⟨info, hinfo, -, ⟨-, rfl⟩ | ⟨pool', hne, -⟩⟩
    · right
      rcases processWithdrawList_cases hprocess with ⟨rfl, -⟩ | ⟨info, s₃, hinfo, -⟩
      · exact ⟨rfl, hnone⟩
      · rw [hnone] at hinfo
        contradiction
    · left
      rcases processWithdrawList_cases hprocess with ⟨rfl, -⟩ | ⟨info', s₃, hinfo', -⟩
      · rfl
      · rw [shareOf_setShare_self] at hinfo'
        contradiction
    · exact absurd (hzero info hinfo) hne

theorem retireAll_idle {accounts : List AccountId}
    (h : accounts.foldlM (retireShare pid pool) s = .ok s')
    (hzero : ∀ w info, s.shareOf pid w = some info → info.share = 0) :
    s'.poolInfos = s.poolInfos ∧
      ∀ w info, s'.shareOf pid w = some info → info.share = 0 := by
  induction accounts generalizing s with
  | nil =>
    cases h
    exact ⟨rfl, hzero⟩
  | cons w accounts ih =>
    simp only [List.foldlM_cons, bind_eq_ok] at h
    obtain ⟨s₁, hround, h⟩ := h
    rcases retireShare_idle hround (hzero w) with rfl | ⟨rfl, -⟩
    · apply ih h
      intro v info hv
      rw [shareOf_setShare] at hv
      split at hv
      · contradiction
      · exact hzero v info hv
    · exact ih h hzero

end Bifrost.Farming
