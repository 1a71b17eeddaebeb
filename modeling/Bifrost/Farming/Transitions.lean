import Bifrost.Farming.Pallet

/-!
# What the functions of the farming pallet do

One lemma for each function that moves shares: when it succeeds and what it leaves. Each works
on the records of one pool (`Local`). A claim changes what was withdrawn and nothing that a later
step of the same call looks at (`PoolView`, `ShareView`).
-/

namespace Bifrost.Farming

open Result
set_option autoImplicit false

variable {AccountId : Type} [DecidableEq AccountId] {cfg : Config AccountId}
  {s s' : State cfg} {who : AccountId} {pid : ℕ} {pool : PoolInfo AccountId}

/-! Reading after writing. -/

theorem shareOf_setShare (s : State cfg) (pid : ℕ) (who : AccountId) (info : Option ShareInfo)
    (j : ℕ) (w : AccountId) :
    (s.setShare pid who info).shareOf j w = if j = pid ∧ w = who then info else s.shareOf j w := by
  by_cases hj : j = pid
  · subst j
    by_cases hw : w = who <;> simp [State.setShare, State.shareOf, Table.get_write, hw]
  · simp [State.setShare, State.shareOf, hj]

@[simp] theorem shareOf_setShare_self (s : State cfg) (pid : ℕ) (who : AccountId)
    (info : Option ShareInfo) : (s.setShare pid who info).shareOf pid who = info := by
  simp [shareOf_setShare]

@[simp] theorem setShare_poolInfos (s : State cfg) (pid : ℕ) (who : AccountId)
    (info : Option ShareInfo) : (s.setShare pid who info).poolInfos = s.poolInfos := rfl

@[simp] theorem setPool_shareOf (s : State cfg) (pid : ℕ) (pool : Option (PoolInfo AccountId)) :
    (s.setPool pid pool).shareOf = s.shareOf := rfl

omit [DecidableEq AccountId] in
@[simp] theorem setPool_self (s : State cfg) (pid : ℕ) (pool : Option (PoolInfo AccountId)) :
    (s.setPool pid pool).poolInfos pid = pool := by simp [State.setPool]

omit [DecidableEq AccountId] in
theorem setPool_ne (s : State cfg) (pid : ℕ) (pool : Option (PoolInfo AccountId)) {j : ℕ}
    (h : j ≠ pid) : (s.setPool pid pool).poolInfos j = s.poolInfos j := by
  simp [State.setPool, h]

/-! What works on one pool. -/

structure Local (pid : ℕ) (s s' : State cfg) : Prop where
  blockNumber : s'.blockNumber = s.blockNumber
  bbBalance : s'.bbBalance = s.bbBalance
  poolNextId : s'.poolNextId = s.poolNextId
  retireLimit : s'.retireLimit = s.retireLimit
  userFarmingPool : s'.userFarmingPool = s.userFarmingPool
  boost : s'.boost = s.boost
  poolInfos : ∀ j, j ≠ pid → s'.poolInfos j = s.poolInfos j
  shares : ∀ j, j ≠ pid → s'.shares j = s.shares j
  principal : ∀ j, j ≠ pid → s'.principal j = s.principal j

namespace Local

omit [DecidableEq AccountId] in
theorem refl (s : State cfg) : Local pid s s :=
  ⟨rfl, rfl, rfl, rfl, rfl, rfl, fun _ _ => rfl, fun _ _ => rfl, fun _ _ => rfl⟩

omit [DecidableEq AccountId] in
theorem trans {s'' : State cfg} (h : Local pid s s') (h' : Local pid s' s'') :
    Local pid s s'' where
  blockNumber := h'.blockNumber.trans h.blockNumber
  bbBalance := h'.bbBalance.trans h.bbBalance
  poolNextId := h'.poolNextId.trans h.poolNextId
  retireLimit := h'.retireLimit.trans h.retireLimit
  userFarmingPool := h'.userFarmingPool.trans h.userFarmingPool
  boost := h'.boost.trans h.boost
  poolInfos := fun j hj => (h'.poolInfos j hj).trans (h.poolInfos j hj)
  shares := fun j hj => (h'.shares j hj).trans (h.shares j hj)
  principal := fun j hj => (h'.principal j hj).trans (h.principal j hj)

omit [DecidableEq AccountId] in
theorem ledger (s : State cfg) (ledger : cfg.currencies.Ledger) :
    Local pid s { s with ledger := ledger } :=
  ⟨rfl, rfl, rfl, rfl, rfl, rfl, fun _ _ => rfl, fun _ _ => rfl, fun _ _ => rfl⟩

theorem setShare (s : State cfg) (pid : ℕ) (who : AccountId) (info : Option ShareInfo) :
    Local pid s (s.setShare pid who info) :=
  ⟨rfl, rfl, rfl, rfl, rfl, rfl, fun _ _ => rfl,
    fun j hj => by simp [State.setShare, hj], fun _ _ => rfl⟩

omit [DecidableEq AccountId] in
theorem setPool (s : State cfg) (pid : ℕ) (pool : Option (PoolInfo AccountId)) :
    Local pid s (s.setPool pid pool) :=
  ⟨rfl, rfl, rfl, rfl, rfl, rfl, fun _ hj => setPool_ne s pid pool hj, fun _ _ => rfl,
    fun _ _ => rfl⟩

theorem setPrincipal (s : State cfg) (pid : ℕ) (who : AccountId) (p : Principal) :
    Local pid s (s.setPrincipal pid who p) :=
  ⟨rfl, rfl, rfl, rfl, rfl, rfl, fun _ _ => rfl, fun _ _ => rfl,
    fun j hj => by simp [State.setPrincipal, hj]⟩

theorem shareOf (h : Local pid s s') {j : ℕ} (hj : j ≠ pid) (w : AccountId) :
    s'.shareOf j w = s.shareOf j w := by
  unfold State.shareOf
  rw [h.shares j hj]

end Local

theorem addShare_local (s : State cfg) (who : AccountId) (pid : ℕ) (pool : PoolInfo AccountId)
    (n : ℕ) : Local pid s (addShare s who pid pool n) := by
  unfold addShare
  split
  · exact .refl s
  · exact (Local.setShare s pid who _).trans (.setPool _ pid _)

theorem claimRewards_cases (h : claimRewards s who pid = .ok s') :
    (s' = s ∧ ∀ info, s.shareOf pid who = some info → info.share = 0) ∨
    ∃ info pool ledger, s.shareOf pid who = some info ∧ info.share ≠ 0 ∧
      s.poolInfos pid = some pool ∧ s' = ({ s with ledger := ledger }.setShare pid who
        (some (info.claimed pool s.blockNumber))).setPool pid (some (pool.claimed info)) := by
  unfold claimRewards at h
  cases hinfo : s.shareOf pid who with
  | none =>
    simp only [hinfo, pure_eq_ok] at h
    exact Or.inl ⟨h.symm, fun info hsome => by simp at hsome⟩
  | some info =>
    simp only [hinfo] at h
    split at h
    · refine Or.inl ⟨(pure_eq_ok.mp h).symm, ?_⟩
      rintro _ ⟨rfl⟩
      assumption
    · simp only [bind_eq_ok, okOr_eq_ok, pure_eq_ok] at h
      obtain ⟨pool, hpool, ledger, -, rfl⟩ := h
      exact Or.inr ⟨info, pool, ledger, rfl, by assumption, hpool, rfl⟩

theorem claimRewards_local (h : claimRewards s who pid = .ok s') : Local pid s s' := by
  rcases claimRewards_cases h with ⟨rfl, -⟩ | ⟨info, pool, ledger, -, -, -, rfl⟩
  · exact .refl _
  · exact ((Local.ledger s ledger).trans (.setShare _ pid who _)).trans (.setPool _ pid _)

theorem takeShare_cases {input : Option ℕ} {limitTime : ℕ}
    (h : takeShare s who pid input limitTime = .ok s') :
    (s' = s ∧ s.shareOf pid who = none) ∨
    ∃ info, s.shareOf pid who = some info ∧ input.getD info.share ≤ info.share ∧
      ((input.getD info.share = 0 ∧ s' = s.setShare pid who none) ∨
        ∃ pool, input.getD info.share ≠ 0 ∧ s.poolInfos pid = some pool ∧
          s' = (s.setShare pid who (some (info.deflated (input.getD info.share)
            ((s.blockNumber + limitTime) % 2 ^ 32)))).setPool pid
              (some (pool.deflated info (input.getD info.share)))) := by
  unfold takeShare at h
  cases hinfo : s.shareOf pid who with
  | none =>
    simp only [hinfo, pure_eq_ok] at h
    exact Or.inl ⟨h.symm, rfl⟩
  | some info =>
    simp only [hinfo, bind_eq_ok, ensure_eq_ok] at h
    obtain ⟨-, hle, h⟩ := h
    refine Or.inr ⟨info, rfl, hle, ?_⟩
    split at h
    · exact Or.inl ⟨by assumption, (pure_eq_ok.mp h).symm⟩
    · simp only [bind_eq_ok, okOr_eq_ok, pure_eq_ok] at h
      obtain ⟨pool, hpool, rfl⟩ := h
      exact Or.inr ⟨pool, by assumption, hpool, rfl⟩

theorem takeShare_local {input : Option ℕ} {limitTime : ℕ}
    (h : takeShare s who pid input limitTime = .ok s') : Local pid s s' := by
  rcases takeShare_cases h with ⟨rfl, -⟩ | ⟨info, -, -, ⟨-, rfl⟩ | ⟨pool, -, -, rfl⟩⟩
  · exact .refl _
  · exact .setShare s pid who none
  · exact (Local.setShare s pid who _).trans (.setPool _ pid _)

theorem removeShare_cases {input : Option ℕ} {limitTime : ℕ}
    (h : removeShare s who pid input limitTime = .ok s') :
    (input = some 0 ∧ s' = s) ∨
    (input ≠ some 0 ∧ ∃ s₁, claimRewards s who pid = .ok s₁ ∧
      takeShare s₁ who pid input limitTime = .ok s') := by
  unfold removeShare at h
  split at h
  · exact Or.inl ⟨by assumption, (pure_eq_ok.mp h).symm⟩
  · exact Or.inr ⟨by assumption, bind_eq_ok.mp h⟩

theorem removeShare_local {input : Option ℕ} {limitTime : ℕ}
    (h : removeShare s who pid input limitTime = .ok s') : Local pid s s' := by
  rcases removeShare_cases h with ⟨-, rfl⟩ | ⟨-, s₁, hclaim, htake⟩
  · exact .refl _
  · exact (claimRewards_local hclaim).trans (takeShare_local htake)

theorem payUnits_ok {units : ℕ} (h : payUnits s who pid pool units = .ok s') :
    ∃ tokens ledger, pool.basket units = .ok tokens ∧ s' = { s with ledger := ledger }.setPrincipal
      pid who ((s.principal pid who).payOut units tokens) := by
  simp only [payUnits, bind_eq_ok, pure_eq_ok] at h
  obtain ⟨tokens, htokens, ledger, -, rfl⟩ := h
  exact ⟨tokens, ledger, htokens, rfl⟩

theorem payUnits_all {due : List ℕ}
    (h : due.foldlM (fun s units => payUnits s who pid pool units) s = .ok s') :
    ∃ ledger p, s' = { s with ledger := ledger }.setPrincipal pid who p := by
  induction due generalizing s with
  | nil =>
    simp only [List.foldlM_nil, pure_eq_ok] at h
    subst s'
    refine ⟨s.ledger, s.principal pid who, ?_⟩
    simp [State.setPrincipal]
  | cons units due ih =>
    simp only [List.foldlM_cons, bind_eq_ok] at h
    obtain ⟨s₁, hpay, h⟩ := h
    obtain ⟨ledger, p, rfl⟩ := ih h
    obtain ⟨tokens, ledger₁, -, rfl⟩ := payUnits_ok hpay
    refine ⟨ledger, p, ?_⟩
    simp [State.setPrincipal]

/-- The record that `process_withdraw_list` leaves. -/
def ShareInfo.processed (info : ShareInfo) (now : ℕ) (ifRemove : Bool) : Option ShareInfo :=
  if (info.pending now).withdrawList ≠ [] ∨ info.share ≠ 0 ∨ ifRemove = false then
    some (info.pending now)
  else none

theorem processWithdrawList_cases {ifRemove : Bool}
    (h : processWithdrawList s who pid pool ifRemove = .ok s') :
    (s' = s ∧ s.shareOf pid who = none) ∨
    ∃ info s₁, s.shareOf pid who = some info ∧
      (info.due s.blockNumber).foldlM (fun s units => payUnits s who pid pool units) s = .ok s₁ ∧
      s' = s₁.setShare pid who (info.processed s.blockNumber ifRemove) := by
  unfold processWithdrawList at h
  cases hinfo : s.shareOf pid who with
  | none =>
    simp only [hinfo, pure_eq_ok] at h
    exact Or.inl ⟨h.symm, rfl⟩
  | some info =>
    simp only [hinfo, bind_eq_ok] at h
    obtain ⟨s₁, hpay, h⟩ := h
    refine Or.inr ⟨info, s₁, rfl, hpay, ?_⟩
    obtain ⟨ledger, p, rfl⟩ := payUnits_all hpay
    unfold ShareInfo.processed
    split at h
    · rename_i hkeep
      rw [if_pos (by exact hkeep)]
      exact (pure_eq_ok.mp h).symm
    · rename_i hkeep
      rw [if_neg (by exact hkeep)]
      exact (pure_eq_ok.mp h).symm

theorem processWithdrawList_local {ifRemove : Bool}
    (h : processWithdrawList s who pid pool ifRemove = .ok s') : Local pid s s' := by
  rcases processWithdrawList_cases h with ⟨rfl, -⟩ | ⟨info, s₁, -, hpay, rfl⟩
  · exact .refl _
  · obtain ⟨ledger, p, rfl⟩ := payUnits_all hpay
    exact ((Local.ledger s ledger).trans (.setPrincipal _ pid who p)).trans
      (.setShare _ pid who _)

theorem payShare_ok {n : ℕ} (h : payShare s who pid pool n = .ok s') :
    ∃ tokens ledger, pool.basket n = .ok tokens ∧
      s' = addShare ({ s with ledger := ledger }.setPrincipal pid who
        ((s.principal pid who).payIn n tokens)) who pid pool n := by
  simp only [payShare, bind_eq_ok, pure_eq_ok] at h
  obtain ⟨tokens, htokens, ledger, -, rfl⟩ := h
  exact ⟨tokens, ledger, htokens, rfl⟩

theorem payShare_local {n : ℕ} (h : payShare s who pid pool n = .ok s') : Local pid s s' := by
  obtain ⟨tokens, ledger, -, rfl⟩ := payShare_ok h
  exact ((Local.ledger s ledger).trans (.setPrincipal _ pid who _)).trans (addShare_local ..)

/-! What a claim leaves as it was. -/

structure PoolView where
  totalShares : ℕ
  totalReward : CurrencyId → Option ℕ
  tokensProportion : Table CurrencyId Perbill
  basicToken : CurrencyId × Perbill

def PoolInfo.view (pool : PoolInfo AccountId) : PoolView :=
  ⟨pool.totalShares, fun c => (pool.rewards.get c).map Prod.fst, pool.tokensProportion,
    pool.basicToken⟩

structure ShareView where
  share : ℕ
  withdrawList : List (ℕ × ℕ)

def ShareInfo.view (info : ShareInfo) : ShareView := ⟨info.share, info.withdrawList⟩

def State.poolView (s : State cfg) (pid : ℕ) : Option PoolView :=
  (s.poolInfos pid).map PoolInfo.view

def State.shareView (s : State cfg) (pid : ℕ) (who : AccountId) : Option ShareView :=
  (s.shareOf pid who).map ShareInfo.view

omit [DecidableEq AccountId] in
theorem claimed_view (pool : PoolInfo AccountId) (info : ShareInfo) :
    (pool.claimed info).view = pool.view := by
  have htotal : (fun c => ((pool.claimed info).rewards.get c).map Prod.fst) =
      fun c => (pool.rewards.get c).map Prod.fst := by
    funext c
    simp only [PoolInfo.claimed, Table.get_update]
    cases pool.rewards.get c <;> rfl
  unfold PoolInfo.view
  rw [htotal]
  rfl

theorem claimRewards_view (h : claimRewards s who pid = .ok s') (j : ℕ) :
    s'.poolView j = s.poolView j ∧ ∀ w, s'.shareView j w = s.shareView j w := by
  rcases claimRewards_cases h with ⟨rfl, -⟩ | ⟨info, pool, ledger, hinfo, -, hpool, rfl⟩
  · exact ⟨rfl, fun w => rfl⟩
  · constructor
    · by_cases hj : j = pid
      · subst j
        simp [State.poolView, hpool, claimed_view]
      · unfold State.poolView
        rw [setPool_ne _ _ _ hj]
        rfl
    · intro w
      unfold State.shareView
      rw [setPool_shareOf, shareOf_setShare]
      split
      · rename_i hjw
        obtain ⟨rfl, rfl⟩ := hjw
        rw [hinfo]
        rfl
      · rfl

/-! The life of a pool. -/

/-- Same shares, rewards and basket. -/
def PoolInfo.Alike (pool pool' : PoolInfo AccountId) : Prop :=
  pool'.totalShares = pool.totalShares ∧ pool'.rewards = pool.rewards ∧
    pool'.tokensProportion = pool.tokensProportion ∧ pool'.basicToken = pool.basicToken

def PoolInfo.Fresh (pool : PoolInfo AccountId) : Prop := pool.totalShares = 0 ∧ pool.rewards = ∅

/-- What a call that may set a gauge pool does to it: nothing, or it changes what is there
(`keep`), or a fresh one with the basket of the pool takes its place. -/
def GaugeSet (keep : Prop) (pid : ℕ) (pool : PoolInfo AccountId) (s s' : State cfg) : Prop :=
  s' = s ∨ ∃ gaugePool, s' = s.setPool (gaugePid pid) (some gaugePool) ∧
    ((keep ∧ ∃ old, s.poolInfos (gaugePid pid) = some old ∧ old.Alike gaugePool) ∨
      ((keep → s.poolInfos (gaugePid pid) = none) ∧ gaugePool.Fresh ∧
        gaugePool.tokensProportion = pool.tokensProportion ∧
        gaugePool.basicToken = pool.basicToken))

section

omit [DecidableEq AccountId]

theorem resetGaugePool_set (s : State cfg) (pid : ℕ) (pool : PoolInfo AccountId)
    (rewards : Table CurrencyId ℕ) :
    GaugeSet False pid pool s (resetGaugePool s pid pool rewards).1 :=
  Or.inr ⟨_, rfl, Or.inr ⟨False.elim, ⟨rfl, rfl⟩, rfl, rfl⟩⟩

theorem createGaugePool_set (s : State cfg) (pid : ℕ) (pool : PoolInfo AccountId)
    (rewards : Table CurrencyId ℕ) :
    GaugeSet True pid pool s (createGaugePool s pid pool rewards).1 ∧
      (createGaugePool s pid pool rewards).2 = { pool with gauge := some (gaugePid pid) } := by
  unfold createGaugePool
  cases hold : s.poolInfos (gaugePid pid) with
  | none => exact ⟨Or.inr ⟨_, rfl, Or.inr ⟨fun _ => hold, ⟨rfl, rfl⟩, rfl, rfl⟩⟩, rfl⟩
  | some old => exact ⟨Or.inr ⟨_, rfl, Or.inl ⟨trivial, old, hold, rfl, rfl, rfl, rfl⟩⟩, rfl⟩

theorem createFarmingPool_ok {tokens : List (CurrencyId × Perbill)}
    {rewards : List (CurrencyId × ℕ)} {gaugeInit : Option (List (CurrencyId × ℕ))}
    {minDeposit afterBlock withdrawTime claimTime withdrawCount : ℕ}
    (h : createFarmingPool s tokens rewards gaugeInit minDeposit afterBlock withdrawTime claimTime
      withdrawCount = .ok s') :
    ∃ s₁ pool, GaugeSet True s.poolNextId pool s s₁ ∧ (gaugeInit = none → s₁ = s) ∧ pool.Fresh ∧
      s' = { s₁.setPool s.poolNextId (some pool) with poolNextId := s.poolNextId + 1 } := by
  simp only [createFarmingPool, bind_eq_ok, okOr_eq_ok, ensure_eq_ok, pure_eq_ok] at h
  obtain ⟨basicToken, -, -, -, rfl⟩ := h
  cases gaugeInit with
  | none => exact ⟨s, _, Or.inl rfl, fun _ => rfl, ⟨rfl, rfl⟩, rfl⟩
  | some gaugeBasicRewards =>
    obtain ⟨hset, hpool⟩ := createGaugePool_set s s.poolNextId
      (newPool cfg s.poolNextId basicToken tokens rewards minDeposit afterBlock withdrawTime
        claimTime withdrawCount) (Table.ofList gaugeBasicRewards)
    refine ⟨_, _, ?_, ?_, ?_, rfl⟩
    · rw [hpool]
      exact hset
    · intro hnone
      contradiction
    · rw [hpool]
      exact ⟨rfl, rfl⟩

theorem charge_ok {rewards : List (CurrencyId × ℕ)} (h : charge s who pid rewards = .ok s') :
    ∃ pool pool' ledger, s.poolInfos pid = some pool ∧ pool.Alike pool' ∧
      s' = { s with ledger := ledger }.setPool pid (some pool') := by
  simp only [charge, State.pool, bind_eq_ok, okOr_eq_ok, ensure_eq_ok, pure_eq_ok] at h
  obtain ⟨pool, hpool, -, -, ledger, -, rfl⟩ := h
  refine ⟨pool, _, ledger, hpool, ?_, rfl⟩
  exact ⟨rfl, rfl, rfl, rfl⟩

theorem closePool_ok (h : closePool s pid = .ok s') :
    ∃ pool pool', s.poolInfos pid = some pool ∧ pool.Alike pool' ∧
      s' = s.setPool pid (some pool') := by
  simp only [closePool, State.pool, bind_eq_ok, okOr_eq_ok, ensure_eq_ok, pure_eq_ok] at h
  obtain ⟨pool, hpool, -, -, rfl⟩ := h
  refine ⟨pool, _, hpool, ?_, rfl⟩
  exact ⟨rfl, rfl, rfl, rfl⟩

theorem editPool_ok {settings : Settings} {gauge : Option (List (CurrencyId × ℕ))}
    (h : editPool s pid settings gauge = .ok s') :
    ∃ pool pool' s₁, s.poolInfos pid = some pool ∧ GaugeSet True pid pool s s₁ ∧
      (gauge = none → s₁ = s) ∧ pool.Alike pool' ∧ s' = s₁.setPool pid (some pool') := by
  simp only [editPool, State.pool, bind_eq_ok, okOr_eq_ok, ensure_eq_ok, pure_eq_ok] at h
  obtain ⟨pool, hpool, -, -, rfl⟩ := h
  cases gauge with
  | none =>
    refine ⟨pool, _, s, hpool, Or.inl rfl, fun _ => rfl, ?_, rfl⟩
    exact ⟨rfl, rfl, rfl, rfl⟩
  | some gaugeBasicRewards =>
    obtain ⟨hset, hpool'⟩ := createGaugePool_set s pid (pool.configured
      { settings with minDepositToStart := none, afterBlockToStart := none })
      (Table.ofList gaugeBasicRewards)
    refine ⟨pool, _, _, hpool, hset, ?_, ?_, rfl⟩
    · intro hnone
      contradiction
    · rw [hpool']
      exact ⟨rfl, rfl, rfl, rfl⟩

theorem resetPool_ok {settings : Settings} {gauge : Option (List (CurrencyId × ℕ))}
    (h : resetPool s pid settings gauge = .ok s') :
    ∃ pool pool' s₁, s.poolInfos pid = some pool ∧ GaugeSet False pid pool s s₁ ∧
      (gauge = none → s₁ = s) ∧ pool'.Fresh ∧
      pool'.tokensProportion = pool.tokensProportion ∧ pool'.basicToken = pool.basicToken ∧
      s' = s₁.setPool pid (some pool') := by
  simp only [resetPool, State.pool, bind_eq_ok, okOr_eq_ok, ensure_eq_ok, pure_eq_ok] at h
  obtain ⟨pool, hpool, -, -, rfl⟩ := h
  cases gauge with
  | none =>
    refine ⟨pool, _, s, hpool, Or.inl rfl, fun _ => rfl, ?_, ?_, ?_, rfl⟩
    · exact ⟨rfl, rfl⟩
    · rfl
    · rfl
  | some gaugeBasicRewards =>
    refine ⟨pool, _, _, hpool, ?_, ?_, ?_, ?_, ?_, rfl⟩
    · exact resetGaugePool_set s pid (pool.configured settings) (Table.ofList gaugeBasicRewards)
    · intro hnone
      contradiction
    · exact ⟨rfl, rfl⟩
    · rfl
    · rfl

theorem killPool_ok (h : killPool s pid = .ok s') :
    s' = { s with shares := Function.update s.shares pid ∅ }.setPool pid none := by
  simp only [killPool, State.pool, bind_eq_ok, okOr_eq_ok, ensure_eq_ok, pure_eq_ok] at h
  obtain ⟨-, -, -, -, rfl⟩ := h
  rfl

end

theorem forceRetirePool_ok (h : forceRetirePool s pid = .ok s') :
    ∃ pool s₁, s.poolInfos pid = some pool ∧
      ((cfg.accountOrder.arrange (s.shares pid).keys).take s.retireLimit).foldlM
        (retireShare pid pool) s = .ok s₁ ∧
      (((s.shares pid).keys.length ≤ s.retireLimit ∧ ∃ pool', pool.Alike pool' ∧
          s' = s₁.setPool pid (some pool')) ∨
        (s.retireLimit < (s.shares pid).keys.length ∧ s' = s₁)) := by
  simp only [forceRetirePool, State.pool, bind_eq_ok, okOr_eq_ok, ensure_eq_ok] at h
  obtain ⟨pool, hpool, -, -, s₁, hloop, h⟩ := h
  have hlength : (cfg.accountOrder.arrange (s.shares pid).keys).length =
      (s.shares pid).keys.length := (cfg.accountOrder.perm _).length_eq
  refine ⟨pool, s₁, hpool, hloop, ?_⟩
  split at h
  · refine Or.inl ⟨by omega, _, ?_, (pure_eq_ok.mp h).symm⟩
    exact ⟨rfl, rfl, rfl, rfl⟩
  · exact Or.inr ⟨by omega, (pure_eq_ok.mp h).symm⟩

omit [DecidableEq AccountId] in
theorem chargeBoost_ok {rewards : List (CurrencyId × ℕ)} (h : chargeBoost s who rewards = .ok s') :
    ∃ ledger, s' = { s with ledger := ledger } := by
  simp only [chargeBoost, bind_eq_ok, pure_eq_ok] at h
  obtain ⟨ledger, -, rfl⟩ := h
  exact ⟨ledger, rfl⟩

/-! What the boost rounds leave alone: everything but accounts and the boost storage. -/

section

omit [DecidableEq AccountId]

theorem sendBoostReward_rest (roundLength : ℕ) (s : State cfg) (entry : ℕ × ℕ × CurrencyId) :
    ∃ ledger rewards, (sendBoostReward roundLength s entry).1 =
      { s with ledger := ledger, boost := { s.boost with basicRewards := rewards } } := by
  obtain ⟨pid, proportion, c⟩ := entry
  unfold sendBoostReward
  simp only [State.setBoost]
  split
  · exact ⟨_, _, rfl⟩
  · exact ⟨_, _, rfl⟩

theorem sendBoostRewards_rest (s : State cfg) (info : BoostPoolInfo) :
    ∃ ledger rewards, (sendBoostRewards s info).1 =
      { s with ledger := ledger, boost := { s.boost with basicRewards := rewards } } := by
  unfold sendBoostRewards
  induction boostProportions s info generalizing s with
  | nil => exact ⟨s.ledger, s.boost.basicRewards, rfl⟩
  | cons entry entries ih =>
    obtain ⟨ledger, rewards, hsend⟩ := sendBoostReward_rest info.roundLength s entry
    unfold untilFailure
    cases hstep : sendBoostReward info.roundLength s entry with
    | mk s₁ o =>
      rw [hstep] at hsend
      simp only at hsend
      cases o with
      | none =>
        obtain ⟨ledger', rewards', hrest⟩ := ih s₁
        subst s₁
        exact ⟨ledger', rewards', hrest⟩
      | some e => exact ⟨ledger, rewards, hsend⟩

theorem startBoostRoundInner_ok {roundLength : ℕ} (h : startBoostRoundInner s roundLength = .ok s') :
    ∃ ledger boost, s' = { s with ledger := ledger, boost := boost } ∧
      boost.users = s.boost.users ∧ boost.votingPools = ∅ ∧ boost.poolInfo.totalVotes = 0 ∧
      boost.poolInfo.startRound = s.blockNumber := by
  simp only [startBoostRoundInner, bind_eq_ok, ensure_eq_ok] at h
  obtain ⟨-, -, -, -, -, -, h⟩ := h
  generalize hs₁ : s.setBoost _ = s₁ at h
  generalize hinfo : (⟨0, s₁.blockNumber, min (s₁.blockNumber + roundLength) (2 ^ 32 - 1),
    roundLength⟩ : BoostPoolInfo) = info at h
  obtain ⟨ledger, rewards, hsend⟩ := sendBoostRewards_rest s₁ info
  cases hrun : sendBoostRewards s₁ info with
  | mk s₂ o =>
    rw [hrun] at hsend h
    cases o with
    | some e => simp at h
    | none =>
      simp only [pure_eq_ok] at h hsend
      subst s'
      subst s₂
      subst info
      subst s₁
      exact ⟨ledger, _, rfl, rfl, rfl, rfl, rfl⟩

theorem autoStartBoostRound_rest (s : State cfg) :
    (autoStartBoostRound s = s) ∨
    ∃ ledger boost, autoStartBoostRound s = { s with ledger := ledger, boost := boost } ∧
      boost.users = s.boost.users ∧ boost.votingPools = ∅ ∧ boost.poolInfo.totalVotes = 0 ∧
      boost.poolInfo.startRound = s.blockNumber := by
  unfold autoStartBoostRound
  split
  · exact Or.inl rfl
  · right
    simp only
    generalize hs₁ : s.setBoost _ = s₁
    obtain ⟨ledger, rewards, hsend⟩ := sendBoostRewards_rest s₁ s₁.boost.poolInfo
    rw [hsend]
    subst s₁
    exact ⟨ledger, _, rfl, rfl, rfl, rfl, rfl⟩

end

end Bifrost.Farming
