import Bifrost.Farming.Moves

/-!
# The shares of a pool

The total of a pool is the sum of the shares of its accounts, under every call that keeps it:
one that writes back a pool it read before it took the shares, one that drops the record of a
gauge pool that still has shares, and one that starts the count anew over records that are there
do not. Nor does an addition that saturates.
-/

namespace Bifrost.Farming

open Result Machine
set_option autoImplicit false

variable {AccountId : Type} [DecidableEq AccountId] {cfg : Config AccountId}
  {s s' : State cfg} {who : AccountId} {pid : ℕ} {pool : PoolInfo AccountId}

def State.totalShares (s : State cfg) (pid : ℕ) : ℕ :=
  (s.poolInfos pid).elim 0 PoolInfo.totalShares

def State.sumShares (s : State cfg) (pid : ℕ) : ℕ :=
  Table.sum (fun _ info => info.share) (s.shares pid)

/-- For a pool that is not there, nobody has shares. -/
def SharesAgree (s : State cfg) : Prop := ∀ pid, s.totalShares pid = s.sumShares pid

/-- An addition does not saturate, or saturates the total and the only share alike. -/
def Rules.shares : Rules where
  pay := fun _ v share n => v.totalShares + n ≤ u128Max ∨ v.totalShares = share
  add := fun _ v share n => v.totalShares + n ≤ u128Max ∨ v.totalShares = share
  take := fun _ _ _ => True
  process := fun _ _ _ _ => True
  drop := fun _ i => i.share = 0

/-- A total is counted anew where there are no shares; it is written back over a pool that was
retired where there were none to take. -/
def CountsAnew (s : State cfg) : Call cfg → Prop
  | .createFarmingPool .. => s.sumShares s.poolNextId = 0
  | .resetPool pid _ gaugeInit =>
    s.sumShares pid = 0 ∧ (gaugeInit ≠ none → s.sumShares (gaugePid pid) = 0)
  | .forceRetirePool pid =>
    (s.shares pid).keys.length ≤ s.retireLimit → s.sumShares pid = 0
  | _ => True

def KeepsShares (s : State cfg) (c : Call cfg) : Prop :=
  MovesAdmit Rules.shares s c ∧ CountsAnew s c

/-! How a write moves the two sides. -/

omit [DecidableEq AccountId] in
theorem totalShares_some (h : s.poolInfos pid = some pool) :
    s.totalShares pid = pool.totalShares := by simp [State.totalShares, h]

theorem sumShares_setShare (s : State cfg) (pid : ℕ) (who : AccountId) (info : Option ShareInfo) :
    (s.setShare pid who info).sumShares pid + s.shareUnits pid who =
      s.sumShares pid + info.elim 0 ShareInfo.share := by
  have hsum := Table.sum_write (fun _ i => i.share) (s.shares pid) who info
  have hold : Table.weight (fun (_ : AccountId) (i : ShareInfo) => i.share) who
      ((s.shares pid).get who) = s.shareUnits pid who := by
    unfold State.shareUnits State.shareView State.shareOf
    cases (s.shares pid).get who <;> rfl
  have hnew : Table.weight (fun (_ : AccountId) (i : ShareInfo) => i.share) who info =
      info.elim 0 ShareInfo.share := by
    cases info <;> rfl
  have hself : (s.setShare pid who info).shares pid = (s.shares pid).write who info := by
    simp [State.setShare]
  unfold State.sumShares
  rw [hself]
  omega

theorem shareUnits_le (s : State cfg) (pid : ℕ) (who : AccountId) :
    s.shareUnits pid who ≤ s.sumShares pid := by
  have hsum := sumShares_setShare s pid who none
  simp only [Option.elim_none] at hsum
  omega

theorem shareUnits_of {info : ShareInfo} (h : s.shareOf pid who = some info) :
    s.shareUnits pid who = info.share := shareUnits_some (shareView_some h)

omit [DecidableEq AccountId] in
theorem SharesAgree.of_local (hs : SharesAgree s) (h : Local pid s s')
    (hpid : s'.totalShares pid = s'.sumShares pid) : SharesAgree s' := by
  intro j
  by_cases hj : j = pid
  · exact hj ▸ hpid
  · have hsame := hs j
    unfold State.totalShares State.sumShares at hsame ⊢
    rw [h.poolInfos j hj, h.shares j hj]
    exact hsame

theorem SharesAgree.move (hs : SharesAgree s) {info : Option ShareInfo}
    {pool' : PoolInfo AccountId}
    (h : pool'.totalShares + s.shareUnits pid who =
      s.totalShares pid + info.elim 0 ShareInfo.share) :
    SharesAgree ((s.setShare pid who info).setPool pid (some pool')) := by
  refine hs.of_local ((Local.setShare s pid who info).trans (.setPool _ pid _)) ?_
  have hsum := sumShares_setShare s pid who info
  have hbefore := hs pid
  have hsame : ((s.setShare pid who info).setPool pid (some pool')).sumShares pid =
    (s.setShare pid who info).sumShares pid := rfl
  rw [totalShares_some (setPool_self _ pid _), hsame]
  omega

theorem SharesAgree.setShare (hs : SharesAgree s) {info : Option ShareInfo}
    (h : info.elim 0 ShareInfo.share = s.shareUnits pid who) :
    SharesAgree (s.setShare pid who info) := by
  refine hs.of_local (.setShare s pid who info) ?_
  have hsum := sumShares_setShare s pid who info
  have hbefore := hs pid
  have hsame : (s.setShare pid who info).totalShares pid = s.totalShares pid := rfl
  omega

omit [DecidableEq AccountId] in
theorem SharesAgree.setPool (hs : SharesAgree s) {pool' : PoolInfo AccountId}
    (h : pool'.totalShares = s.sumShares pid) : SharesAgree (s.setPool pid (some pool')) := by
  refine hs.of_local (.setPool s pid _) ?_
  rw [totalShares_some (setPool_self _ pid _)]
  exact h

/-! The moves. -/

theorem addShare_agree {n : ℕ} (hs : SharesAgree s) (hpool : s.poolInfos pid = some pool)
    (hok : pool.totalShares + n ≤ u128Max ∨ pool.totalShares = s.shareUnits pid who) :
    SharesAgree (addShare s who pid pool n) := by
  unfold addShare
  split
  · exact hs
  · apply hs.move
    have htotal := totalShares_some hpool
    have hle := shareUnits_le s pid who
    have hagree := hs pid
    have hinfo : ((s.shareOf pid who).getD (ShareInfo.new s.blockNumber)).share =
        s.shareUnits pid who := by
      unfold State.shareUnits State.shareView
      cases s.shareOf pid who <;> rfl
    simp only [PoolInfo.inflated, ShareInfo.inflated, Option.elim_some, saturatingAdd]
    rw [hinfo]
    omega

theorem claimRewards_agree (hs : SharesAgree s) (h : claimRewards s who pid = .ok s') :
    SharesAgree s' := by
  rcases claimRewards_cases h with ⟨rfl, -⟩ | ⟨info, pool, ledger, hinfo, -, hpool, rfl⟩
  · exact hs
  · have hledger : SharesAgree { s with ledger := ledger } := hs
    apply hledger.move
    have hshare : ({ s with ledger := ledger } : State cfg).shareUnits pid who = info.share :=
      shareUnits_of hinfo
    have htotal : ({ s with ledger := ledger } : State cfg).totalShares pid = pool.totalShares :=
      totalShares_some hpool
    rw [hshare, htotal]
    rfl

theorem takeShare_agree {input : Option ℕ} {limitTime : ℕ} (hs : SharesAgree s)
    (hinput : input ≠ some 0) (h : takeShare s who pid input limitTime = .ok s') :
    SharesAgree s' := by
  rcases takeShare_cases h with
    ⟨rfl, -⟩ | ⟨info, hinfo, hle, ⟨hzero, rfl⟩ | ⟨pool, -, hpool, rfl⟩⟩
  · exact hs
  · apply hs.setShare
    rw [shareUnits_of hinfo]
    cases input with
    | none => exact hzero.symm
    | some n => exact absurd (congrArg some hzero) hinput
  · apply hs.move
    have hbound := shareUnits_le s pid who
    have hagree := hs pid
    rw [shareUnits_of hinfo] at hbound ⊢
    rw [totalShares_some hpool] at hagree ⊢
    simp only [PoolInfo.deflated, ShareInfo.deflated, Option.elim_some]
    omega

theorem payUnits_agree {due : List ℕ} (hs : SharesAgree s)
    (h : due.foldlM (fun s units => payUnits s who pid pool units) s = .ok s') :
    SharesAgree s' := by
  obtain ⟨ledger, p, rfl⟩ := payUnits_all h
  exact hs

theorem processWithdrawList_agree {ifRemove : Bool} (hs : SharesAgree s)
    (h : processWithdrawList s who pid pool ifRemove = .ok s') : SharesAgree s' := by
  rcases processWithdrawList_cases h with ⟨rfl, -⟩ | ⟨info, s₁, hinfo, hpay, rfl⟩
  · exact hs
  · apply (payUnits_agree hs hpay).setShare
    obtain ⟨ledger, p, rfl⟩ := payUnits_all hpay
    have hshare : ({ s with ledger := ledger }.setPrincipal pid who p).shareUnits pid who =
      info.share := shareUnits_of hinfo
    rw [hshare, ShareInfo.processed]
    split
    · rfl
    · rename_i hgone
      simp only [not_or, not_not] at hgone
      exact hgone.2.1.symm

theorem payShare_agree {n : ℕ} (hs : SharesAgree s) (hpool : s.poolInfos pid = some pool)
    (hok : pool.totalShares + n ≤ u128Max ∨ pool.totalShares = s.shareUnits pid who)
    (h : payShare s who pid pool n = .ok s') : SharesAgree s' := by
  obtain ⟨tokens, ledger, -, rfl⟩ := payShare_ok h
  have hpaid : SharesAgree ({ s with ledger := ledger }.setPrincipal pid who
    ((s.principal pid who).payIn n tokens)) := hs
  exact addShare_agree hpaid hpool hok

theorem keeps_shares : Keeps Rules.shares fun s : State cfg => SharesAgree s where
  pids := fun _ hs => hs
  pay := fun hs hpool hok h => payShare_agree hs hpool hok h
  add := fun hs hpool hok => addShare_agree hs hpool hok
  claim := fun hs h => claimRewards_agree hs h
  take := fun hs hinput _ h => takeShare_agree hs hinput h
  process := fun hs _ _ h => processWithdrawList_agree hs h
  drop := by
    intro s who pid hs hok
    apply hs.setShare
    unfold State.shareUnits
    cases hview : s.shareView pid who with
    | none => rfl
    | some i => exact (hok i hview).symm

/-! The life of a pool. -/

omit [DecidableEq AccountId] in
theorem gaugeSet_agree {keep : Prop} (hs : SharesAgree s)
    (hanew : ¬ keep → s.sumShares (gaugePid pid) = 0) (h : GaugeSet keep pid pool s s') :
    SharesAgree s' := by
  rcases h with rfl | ⟨gaugePool, rfl, ⟨-, old, hold, hsame⟩ | ⟨hnone, hfresh, -⟩⟩
  · exact hs
  · apply hs.setPool
    rw [hsame.1, ← totalShares_some hold]
    exact hs (gaugePid pid)
  · apply hs.setPool
    rw [hfresh.1]
    by_cases hkeep : keep
    · have hagree := hs (gaugePid pid)
      rw [State.totalShares, hnone hkeep] at hagree
      exact hagree
    · exact (hanew hkeep).symm

omit [DecidableEq AccountId] in
theorem GaugeSet.sumShares {keep : Prop} (h : GaugeSet keep pid pool s s') (j : ℕ) :
    s'.sumShares j = s.sumShares j := by
  rcases h with rfl | ⟨gaugePool, rfl, -⟩
  · rfl
  · rfl

theorem sumShares_zero (h : s.sumShares pid = 0) (w : AccountId) (info : ShareInfo)
    (hinfo : s.shareOf pid w = some info) : info.share = 0 := by
  have hle := shareUnits_le s pid w
  rw [shareUnits_of hinfo] at hle
  omega

theorem zero_sumShares (h : ∀ w info, s.shareOf pid w = some info → info.share = 0) :
    s.sumShares pid = 0 := by
  unfold State.sumShares
  rw [← Table.sum_zero (s.shares pid)]
  apply Table.sum_congr
  rintro ⟨w, info⟩ he
  exact h w info (Table.mem_entries.mp he)

theorem forceRetirePool_agree (hs : SharesAgree s) (hok : KeepsShares s (.forceRetirePool pid))
    (h : forceRetirePool s pid = .ok s') : SharesAgree s' := by
  obtain ⟨pool, s₁, hpool, hloop, hdone⟩ := forceRetirePool_ok h
  have hs₁ := (keeps_shares.retireAll hs hpool (hok.1 pool hpool) hloop).1
  rcases hdone with ⟨hall, pool', hsame, rfl⟩ | ⟨-, rfl⟩
  · have hzero := hok.2 hall
    obtain ⟨-, hzero₁⟩ := retireAll_idle hloop (sumShares_zero hzero)
    apply hs₁.setPool
    rw [zero_sumShares hzero₁, hsame.1, ← totalShares_some hpool, hs pid, hzero]
  · exact hs₁

omit [DecidableEq AccountId] in
theorem onBlock_totalShares (pool : PoolInfo AccountId) (n : ℕ) (boost : CurrencyId → Option ℕ) :
    (pool.onBlock n boost).totalShares = pool.totalShares := by
  unfold PoolInfo.onBlock
  split
  · rfl
  · split <;> rfl
  · rfl

omit [DecidableEq AccountId] in
theorem SharesAgree.of_same (hs : SharesAgree s) (h : SamePools s s') : SharesAgree s' := by
  intro pid
  unfold State.totalShares State.sumShares
  rw [h.poolInfos, h.shares]
  exact hs pid

omit [DecidableEq AccountId] in
theorem startBlock_agree (hs : SharesAgree s) : SharesAgree (startBlock s) := by
  intro pid
  have hagree := hs pid
  unfold State.totalShares State.sumShares startBlock at *
  simp only
  cases hpool : s.poolInfos pid with
  | none =>
    rw [hpool] at hagree
    exact hagree
  | some pool =>
    rw [hpool] at hagree
    simp only [Option.map_some, Option.elim_some, onBlock_totalShares]
    exact hagree

theorem step_sharesAgree {c : Call cfg} (hs : SharesAgree s) (hok : KeepsShares s c)
    (h : step s c = .ok s') : SharesAgree s' := by
  by_cases hshares : c.MovesShares
  · exact keeps_shares.call hshares hs hok.1 h
  · by_cases hidle : c.Idle
    · exact hs.of_same (step_idle hidle h)
    · cases c <;> simp only [Call.MovesShares, Call.Idle, not_true_eq_false] at hshares hidle
      case createFarmingPool =>
        obtain ⟨s₁, pool, hset, -, hfresh, rfl⟩ := createFarmingPool_ok h
        have hs₁ := gaugeSet_agree hs (fun hfalse => absurd trivial hfalse) hset
        have hs₂ : SharesAgree (s₁.setPool s.poolNextId (some pool)) := by
          apply hs₁.setPool
          rw [hfresh.1, hset.sumShares]
          exact hok.2.symm
        exact hs₂
      case charge pid _ =>
        obtain ⟨pool, pool', ledger, hpool, hsame, rfl⟩ := charge_ok h
        have hledger : SharesAgree { s with ledger := ledger } := hs
        apply hledger.setPool
        rw [hsame.1, ← totalShares_some hpool]
        exact hs pid
      case forceRetirePool pid => exact forceRetirePool_agree hs hok h
      case closePool pid =>
        obtain ⟨pool, pool', hpool, hsame, rfl⟩ := closePool_ok h
        apply hs.setPool
        rw [hsame.1, ← totalShares_some hpool]
        exact hs pid
      case resetPool pid settings gaugeInit =>
        obtain ⟨pool, pool', s₁, hpool, hset, hnone, hfresh, -, -, rfl⟩ := resetPool_ok h
        have hs₁ : SharesAgree s₁ := by
          cases gaugeInit with
          | none => exact hnone rfl ▸ hs
          | some rewards => exact gaugeSet_agree hs (fun _ => hok.2.2 (by simp)) hset
        apply hs₁.setPool
        rw [hfresh.1, hset.sumShares]
        exact hok.2.1.symm
      case killPool pid =>
        rw [killPool_ok h]
        intro j
        by_cases hj : j = pid
        · subst j
          simp [State.totalShares, State.sumShares, State.setPool]
        · have hagree := hs j
          simp only [State.totalShares, State.sumShares, State.setPool] at hagree ⊢
          rw [Function.update_of_ne hj, Function.update_of_ne hj]
          exact hagree
      case editPool pid _ _ =>
        obtain ⟨pool, pool', s₁, hpool, hset, -, hsame, rfl⟩ := editPool_ok h
        have hs₁ := gaugeSet_agree hs (fun hfalse => absurd trivial hfalse) hset
        apply hs₁.setPool
        rw [hsame.1, ← totalShares_some hpool, hset.sumShares]
        exact hs pid
      case onInitialize =>
        cases h
        exact (startBlock_agree hs).of_same (nextRound_pools _)

omit [DecidableEq AccountId] in
theorem genesis_sharesAgree (ledger : cfg.currencies.Ledger) (bbBalance : AccountId → Option ℕ)
    (n : ℕ) : SharesAgree (genesis cfg ledger bbBalance n) := fun _ => rfl

/-- In every state of a run whose calls meet `KeepsShares`, the total of every pool, ordinary or
gauge, is the sum of the shares of its accounts. -/
theorem shares_agree (ledger : cfg.currencies.Ledger) (bbBalance : AccountId → Option ℕ) (n : ℕ)
    (calls : List (Call cfg)) (h : Meets step KeepsShares (genesis cfg ledger bbBalance n) calls)
    (pid : ℕ) (pool : PoolInfo AccountId)
    (hpool : (run step (genesis cfg ledger bbBalance n) calls).poolInfos pid = some pool) :
    pool.totalShares = (run step (genesis cfg ledger bbBalance n) calls).sumShares pid := by
  have hinv : SharesAgree (run step (genesis cfg ledger bbBalance n) calls) :=
    run_invariant (I := SharesAgree) (fun _ _ _ hs hok hstep => step_sharesAgree hs hok hstep)
      calls (genesis_sharesAgree ledger bbBalance n) h
  rw [← totalShares_some hpool]
  exact hinv pid

/-! Where there is room in the totals, deposits and withdrawals are admitted. -/

theorem updateAdmits_room {gid n : ℕ} {v : PoolView} (h : v.totalShares + n ≤ u128Max)
    (i : ShareView) : UpdateAdmits Rules.shares gid v i n := by
  unfold UpdateAdmits
  split
  · trivial
  · left
    omega

omit [DecidableEq AccountId] in
theorem poolView_totalShares {v : PoolView} (h : s.poolView pid = some v) :
    v.totalShares = s.totalShares pid := by
  unfold State.poolView at h
  rw [Option.map_eq_some_iff] at h
  obtain ⟨pool, hpool, rfl⟩ := h
  exact (totalShares_some hpool).symm

theorem deposit_room {n : ℕ} (hpid : s.totalShares pid + n ≤ u128Max)
    (hgauge : s.totalShares (gaugePid pid) + (s.bbBalance who).getD 0 * n ≤ u128Max) :
    KeepsShares s (.deposit who pid n) := by
  refine ⟨⟨?_, ?_⟩, trivial⟩
  · intro v hv
    left
    rw [poolView_totalShares hv]
    exact hpid
  · intro b v hb hv
    rw [hb, Option.getD_some, ← poolView_totalShares hv] at hgauge
    exact ⟨fun i _ => updateAdmits_room hgauge i, fun _ => Or.inl hgauge⟩

theorem withdraw_room {removeValue : Option ℕ}
    (hgauge : s.totalShares (gaugePid pid) + (s.bbBalance who).getD 0 * s.shareUnits pid who ≤
      u128Max) :
    KeepsShares s (.withdraw who pid removeValue) := by
  refine ⟨fun i hi => ⟨trivial, fun b v j hb hv _ => updateAdmits_room ?_ j⟩, trivial⟩
  rw [hb, Option.getD_some, ← poolView_totalShares hv, shareUnits_some hi] at hgauge
  have hle : b * (i.share - removeValue.getD i.share) ≤ b * i.share :=
    Nat.mul_le_mul_left b (Nat.sub_le _ _)
  omega

namespace Sample

def joined : List (Call config) := opened (some []) ++ [.deposit 1 0 100]
def shared : List (Call config) := joined ++ [.deposit 2 0 50]
def left : List (Call config) := shared ++ [.onInitialize, .withdraw 1 0 (some 30)]

/-- A pool is closed and retired with shares in it. -/
def retired : List (Call config) :=
  opened none ++ [.deposit 1 0 100, .onInitialize, .closePool 0, .setRetireLimit 10,
    .forceRetirePool 0]

theorem opened_keeps (gaugeInit : Option (List (CurrencyId × ℕ))) :
    Meets step KeepsShares start (opened gaugeInit) :=
  ⟨fun _ _ => ⟨trivial, rfl⟩, fun _ _ => ⟨trivial, trivial⟩, trivial⟩

theorem joined_keeps : KeepsShares (run step start (opened (some []))) (.deposit 1 0 100) := by
  apply deposit_room
  · decide +kernel
  · decide +kernel

theorem shared_keeps : KeepsShares (run step start joined) (.deposit 2 0 50) := by
  apply deposit_room
  · decide +kernel
  · decide +kernel

theorem left_keeps : KeepsShares (run step start (shared ++ [.onInitialize]))
    (.withdraw 1 0 (some 30)) := by
  apply withdraw_room
  decide +kernel

theorem left_meets : Meets step KeepsShares start left := by
  have hjoined : Meets step KeepsShares start joined :=
    meets_append (opened_keeps _) ⟨fun _ _ => joined_keeps, trivial⟩
  have hshared : Meets step KeepsShares start shared :=
    meets_append hjoined ⟨fun _ _ => shared_keeps, trivial⟩
  exact meets_append hshared ⟨fun _ _ => ⟨trivial, trivial⟩, fun _ _ => left_keeps, trivial⟩

end Sample

theorem shares_agree_sample : ∃ pool, (run step Sample.start Sample.left).poolInfos 0 = some pool ∧
    pool.totalShares = (run step Sample.start Sample.left).sumShares 0 := by
  have hsome : ((run step Sample.start Sample.left).poolInfos 0).isSome := by decide +kernel
  obtain ⟨pool, hpool⟩ := Option.isSome_iff_exists.mp hsome
  exact ⟨pool, hpool, @shares_agree ℕ _ Sample.config Sample.wealth (fun _ => some 2) 1 Sample.left
    Sample.left_meets 0 pool hpool⟩

/-- A retired pool has its old total, and nobody has shares of it. -/
theorem retired_total_stays : ∃ pool,
    (run step Sample.start Sample.retired).poolInfos 0 = some pool ∧
    pool.totalShares ≠ (run step Sample.start Sample.retired).sumShares 0 := by
  have hany : ((run step Sample.start Sample.retired).poolInfos 0).any (fun pool =>
      pool.totalShares ≠ (run step Sample.start Sample.retired).sumShares 0) = true := by
    decide +kernel
  obtain ⟨pool, hpool, hne⟩ := (Option.any_eq_true ..).mp hany
  exact ⟨pool, hpool, of_decide_eq_true hne⟩

end Bifrost.Farming
