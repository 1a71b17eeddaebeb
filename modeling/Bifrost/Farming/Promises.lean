import Bifrost.Farming.Shares
import Bifrost.Lib.Proportion

/-!
# What a pool has promised

What a pool has paid is what its accounts have withdrawn, and never more than its rewards: a claim
is cut to what is left. Where the shares agree, the parts of all accounts together are in the
pot. Somebody who joins shares that are there has nothing to claim yet, and takes at most one
unit from what anybody else can claim; the first to join has everything that has accrued.
-/

namespace Bifrost.Farming

open Result Machine
set_option autoImplicit false

variable {AccountId : Type} [DecidableEq AccountId] {cfg : Config AccountId}
  {s s' : State cfg} {who : AccountId} {pid : ℕ} {pool : PoolInfo AccountId} {c : CurrencyId}
  {pool' : PoolInfo AccountId}

/-- The total reward and the total withdrawn reward; a currency that is not there has neither. -/
def PoolInfo.reward (pool : PoolInfo AccountId) (c : CurrencyId) : ℕ × ℕ :=
  (pool.rewards.get c).getD (0, 0)

def State.reward (s : State cfg) (pid : ℕ) (c : CurrencyId) : ℕ × ℕ :=
  (s.poolInfos pid).elim (0, 0) fun pool => pool.reward c

def State.withdrawn (s : State cfg) (pid : ℕ) (who : AccountId) (c : CurrencyId) : ℕ :=
  (s.shareOf pid who).elim 0 fun info => info.withdrawn c

def State.sumWithdrawn (s : State cfg) (pid : ℕ) (c : CurrencyId) : ℕ :=
  Table.sum (fun _ info => info.withdrawn c) (s.shares pid)

def State.claimable (s : State cfg) (pid : ℕ) (who : AccountId) (c : CurrencyId) : ℕ :=
  match s.poolInfos pid, s.shareOf pid who with
  | some pool, some info => info.claimable pool c (pool.reward c)
  | _, _ => 0

def State.sumParts (s : State cfg) (pid : ℕ) (pool : PoolInfo AccountId) (c : CurrencyId) : ℕ :=
  Table.sum (fun _ info => info.share * (pool.reward c).1 / pool.totalShares) (s.shares pid)

/-- An addition is admitted where the shares are, and where no reward total exceeds `u128`. -/
def Rules.rewards : Rules where
  pay := fun pid v share n => Rules.shares.pay pid v share n ∧ ∀ c total,
    v.totalReward c = some total → total + rewardInflation n total v.totalShares ≤ u128Max
  add := fun pid v share n => Rules.shares.add pid v share n ∧ ∀ c total,
    v.totalReward c = some total → total + rewardInflation n total v.totalShares ≤ u128Max
  take := fun _ _ _ => True
  process := fun _ _ _ _ => True
  drop := fun _ i => i.share = 0

def KeepsRewards (s : State cfg) (call : Call cfg) : Prop :=
  MovesAdmit Rules.rewards s call ∧ CountsAnew s call

/-! The rewards of a pool by itself: paid at most what there is, and in `u128`. -/

structure PoolInfo.Sound (pool : PoolInfo AccountId) : Prop where
  paid : ∀ c, (pool.reward c).2 ≤ (pool.reward c).1
  fits : ∀ c, (pool.reward c).1 ≤ u128Max

theorem saturatingAdd_le (a b : ℕ) : saturatingAdd a b ≤ u128Max := Nat.min_le_right _ _

theorem saturatingAdd_of_le {a b : ℕ} (h : a + b ≤ u128Max) : saturatingAdd a b = a + b :=
  Nat.min_eq_left h

theorem saturatingAdd_mono {a a' : ℕ} (h : a ≤ a') (b : ℕ) :
    saturatingAdd a b ≤ saturatingAdd a' b :=
  min_le_min_right _ (Nat.add_le_add_right h b)

section

omit [DecidableEq AccountId]

theorem inflated_reward (pool : PoolInfo AccountId) (n : ℕ) (c : CurrencyId) :
    (pool.inflated n).reward c = (pool.rewards.get c).elim (0, 0) fun r =>
      (saturatingAdd r.1 (rewardInflation n r.1 pool.totalShares),
        saturatingAdd r.2 (rewardInflation n r.1 pool.totalShares)) := by
  simp only [PoolInfo.reward, PoolInfo.inflated, Table.get_update]
  cases pool.rewards.get c <;> rfl

theorem claimed_reward (pool : PoolInfo AccountId) (info : ShareInfo) (c : CurrencyId) :
    (pool.claimed info).reward c = (pool.rewards.get c).elim (0, 0) fun r =>
      (r.1, saturatingAdd r.2 (info.claimable pool c r)) := by
  simp only [PoolInfo.reward, PoolInfo.claimed, Table.get_update]
  cases pool.rewards.get c <;> rfl

theorem deflated_reward (pool : PoolInfo AccountId) (info : ShareInfo) (n : ℕ) (c : CurrencyId)
    (hpaid : (pool.reward c).2 ≤ (pool.reward c).1) :
    ∃ gone, gone = withdrawnToRemove n (info.withdrawn c) info.share ∧
      ((pool.deflated info n).reward c).2 = (pool.reward c).2 - gone ∧
      ((pool.deflated info n).reward c).2 ≤ ((pool.deflated info n).reward c).1 ∧
      ((pool.deflated info n).reward c).1 ≤ (pool.reward c).1 := by
  refine ⟨_, rfl, ?_⟩
  unfold PoolInfo.reward at hpaid ⊢
  simp only [PoolInfo.deflated, Table.get_update, ShareInfo.withdrawn]
  cases info.withdrawnRewards.get c with
  | none =>
    simp only [Option.elim_none, Option.getD_none, withdrawnToRemove, Nat.mul_zero, Nat.zero_div,
      Nat.sub_zero]
    exact ⟨trivial, hpaid, Nat.le_refl _⟩
  | some w =>
    cases hreward : pool.rewards.get c with
    | none => simp
    | some r =>
      rw [hreward] at hpaid
      simp only [Option.elim_some, Option.getD_some, Option.bind_some] at hpaid ⊢
      split
      · simp only [Option.getD_none]
        omega
      · simp only [Option.getD_some]
        exact ⟨trivial, by omega, by omega⟩

theorem accrued_reward (pool : PoolInfo AccountId) (boost : CurrencyId → Option ℕ)
    (c : CurrencyId) : ((pool.accrued boost).reward c).2 = (pool.reward c).2 ∧
      ((pool.reward c).1 ≤ u128Max → (pool.reward c).1 ≤ ((pool.accrued boost).reward c).1 ∧
        ((pool.accrued boost).reward c).1 ≤ u128Max) := by
  simp only [PoolInfo.reward, PoolInfo.accrued, Table.get_update]
  cases pool.basicRewards.get c with
  | none => exact ⟨rfl, fun h => ⟨Nat.le_refl _, h⟩⟩
  | some amount =>
    cases pool.rewards.get c with
    | none => exact ⟨rfl, fun _ => ⟨Nat.zero_le _, saturatingAdd_le _ _⟩⟩
    | some r =>
      refine ⟨rfl, fun h => ⟨?_, saturatingAdd_le _ _⟩⟩
      exact le_min (Nat.le_add_right _ _) h

theorem PoolInfo.Sound.fresh (h : pool.Fresh) : pool.Sound := by
  have hzero : ∀ c, pool.reward c = (0, 0) := by
    intro c
    rw [PoolInfo.reward, h.2, Table.get_empty]
    rfl
  constructor <;> intro c
  · rw [hzero]
  · rw [hzero]
    exact Nat.zero_le _

theorem PoolInfo.Sound.alike (hpool : pool.Sound) (h : pool.Alike pool') : pool'.Sound := by
  have hsame : ∀ c, pool'.reward c = pool.reward c := by
    intro c
    rw [PoolInfo.reward, PoolInfo.reward, h.2.1]
  constructor <;> intro c <;> rw [hsame]
  · exact hpool.paid c
  · exact hpool.fits c

theorem PoolInfo.Sound.inflated (hpool : pool.Sound) (n : ℕ) : (pool.inflated n).Sound := by
  constructor <;> intro c <;> rw [inflated_reward]
  · have hpaid := hpool.paid c
    unfold PoolInfo.reward at hpaid
    cases hreward : pool.rewards.get c with
    | none => exact Nat.le_refl _
    | some r =>
      rw [hreward] at hpaid
      exact saturatingAdd_mono hpaid _
  · cases pool.rewards.get c with
    | none => exact Nat.zero_le _
    | some r => exact saturatingAdd_le _ _

theorem claimable_le (info : ShareInfo) (pool : PoolInfo AccountId) (c : CurrencyId)
    (r : ℕ × ℕ) : info.claimable pool c r ≤ r.1 - r.2 := Nat.min_le_right _ _

theorem PoolInfo.Sound.claimed (hpool : pool.Sound) (info : ShareInfo) :
    (pool.claimed info).Sound := by
  constructor <;> intro c <;> rw [claimed_reward]
  · have hpaid := hpool.paid c
    unfold PoolInfo.reward at hpaid
    cases hreward : pool.rewards.get c with
    | none => exact Nat.le_refl _
    | some r =>
      rw [hreward] at hpaid
      have hle := claimable_le info pool c r
      have hmin : saturatingAdd r.2 (info.claimable pool c r) ≤
        r.2 + info.claimable pool c r := Nat.min_le_left _ _
      simp only [Option.elim_some, Option.getD_some] at hpaid ⊢
      omega
  · have hfits := hpool.fits c
    unfold PoolInfo.reward at hfits
    cases hreward : pool.rewards.get c with
    | none => exact Nat.zero_le _
    | some r =>
      rw [hreward] at hfits
      exact hfits

theorem PoolInfo.Sound.deflated (hpool : pool.Sound) (info : ShareInfo) (n : ℕ) :
    (pool.deflated info n).Sound := by
  constructor <;> intro c <;>
    obtain ⟨gone, -, -, hle, hfits⟩ := deflated_reward pool info n c (hpool.paid c)
  · exact hle
  · exact hfits.trans (hpool.fits c)

theorem PoolInfo.Sound.onBlock (hpool : pool.Sound) (n : ℕ) (boost : CurrencyId → Option ℕ) :
    (pool.onBlock n boost).Sound := by
  unfold PoolInfo.onBlock
  split
  · constructor <;> intro c <;>
      obtain ⟨hsame, hle⟩ := accrued_reward pool boost c
    · rw [hsame]
      exact (hpool.paid c).trans (hle (hpool.fits c)).1
    · exact (hle (hpool.fits c)).2
  · split
    · exact hpool.alike ⟨rfl, rfl, rfl, rfl⟩
    · exact hpool
  · exact hpool

end

/-! In no run whatever is more paid than there is. -/

def PoolsSound (s : State cfg) : Prop := ∀ pid pool, s.poolInfos pid = some pool → pool.Sound

omit [DecidableEq AccountId] in
theorem PoolsSound.setPool (hs : PoolsSound s) (hpool : pool.Sound) :
    PoolsSound (s.setPool pid (some pool)) := by
  intro j pool' hpool'
  by_cases hj : j = pid
  · subst j
    rw [setPool_self] at hpool'
    cases hpool'
    exact hpool
  · rw [setPool_ne _ _ _ hj] at hpool'
    exact hs j pool' hpool'

theorem addShare_sound {n : ℕ} (hs : PoolsSound s) (hpool : s.poolInfos pid = some pool) :
    PoolsSound (addShare s who pid pool n) := by
  unfold addShare
  split
  · exact hs
  · have hshare : PoolsSound (s.setShare pid who (some
      (((s.shareOf pid who).getD (ShareInfo.new s.blockNumber)).inflated pool n))) := hs
    exact hshare.setPool ((hs pid pool hpool).inflated n)

theorem keeps_sound : Keeps Rules.free fun s : State cfg => PoolsSound s where
  pids := fun _ hs => hs
  pay := by
    intro s s' who pid pool n hs hpool _ h
    obtain ⟨tokens, ledger, -, rfl⟩ := payShare_ok h
    have hpaid : PoolsSound ({ s with ledger := ledger }.setPrincipal pid who
      ((s.principal pid who).payIn n tokens)) := hs
    exact addShare_sound hpaid hpool
  add := fun hs hpool _ => addShare_sound hs hpool
  claim := by
    intro s s' who pid hs h
    rcases claimRewards_cases h with ⟨rfl, -⟩ | ⟨info, pool, ledger, -, -, hpool, rfl⟩
    · exact hs
    · have hshare : PoolsSound ({ s with ledger := ledger }.setShare pid who
        (some (info.claimed pool s.blockNumber))) := hs
      exact hshare.setPool ((hs pid pool hpool).claimed info)
  take := by
    intro s s' who pid input limitTime hs _ _ h
    rcases takeShare_cases h with
      ⟨rfl, -⟩ | ⟨info, -, -, ⟨-, rfl⟩ | ⟨pool, -, hpool, rfl⟩⟩
    · exact hs
    · exact hs
    · have hshare : PoolsSound (s.setShare pid who (some (info.deflated (input.getD info.share)
        ((s.blockNumber + limitTime) % 2 ^ 32)))) := hs
      exact hshare.setPool ((hs pid pool hpool).deflated info _)
  process := by
    intro s s' who pid pool ifRemove hs _ _ h
    rcases processWithdrawList_cases h with ⟨rfl, -⟩ | ⟨info, s₁, -, hpay, rfl⟩
    · exact hs
    · obtain ⟨ledger, p, rfl⟩ := payUnits_all hpay
      exact hs
  drop := fun hs _ => hs

omit [DecidableEq AccountId] in
theorem gaugeSet_sound {keep : Prop} (hs : PoolsSound s) (h : GaugeSet keep pid pool s s') :
    PoolsSound s' := by
  rcases h with rfl | ⟨gaugePool, rfl, ⟨-, old, hold, hsame⟩ | ⟨-, hfresh, -⟩⟩
  · exact hs
  · exact hs.setPool ((hs _ old hold).alike hsame)
  · exact hs.setPool (.fresh hfresh)

omit [DecidableEq AccountId] in
theorem PoolsSound.of_same (hs : PoolsSound s) (h : SamePools s s') : PoolsSound s' := by
  intro pid pool hpool
  rw [h.poolInfos] at hpool
  exact hs pid pool hpool

omit [DecidableEq AccountId] in
theorem startBlock_sound (hs : PoolsSound s) : PoolsSound (startBlock s) := by
  intro pid pool hpool
  unfold startBlock at hpool
  simp only [Option.map_eq_some_iff] at hpool
  obtain ⟨old, hold, rfl⟩ := hpool
  exact (hs pid old hold).onBlock _ _

theorem step_sound {call : Call cfg} (hs : PoolsSound s) (h : step s call = .ok s') :
    PoolsSound s' := by
  by_cases hshares : call.MovesShares
  · exact keeps_sound.call hshares hs (movesAdmit_free s call) h
  · by_cases hidle : call.Idle
    · exact hs.of_same (step_idle hidle h)
    · cases call <;> simp only [Call.MovesShares, Call.Idle, not_true_eq_false] at hshares hidle
      case createFarmingPool =>
        obtain ⟨s₁, pool, hset, -, hfresh, rfl⟩ := createFarmingPool_ok h
        exact (gaugeSet_sound hs hset).setPool (.fresh hfresh)
      case charge pid _ =>
        obtain ⟨pool, pool', ledger, hpool, hsame, rfl⟩ := charge_ok h
        have hledger : PoolsSound { s with ledger := ledger } := hs
        exact hledger.setPool ((hs pid pool hpool).alike hsame)
      case forceRetirePool pid =>
        obtain ⟨pool, s₁, hpool, hloop, hdone⟩ := forceRetirePool_ok h
        have hs₁ := (keeps_sound.retireAll hs hpool
          (meets_of_forall _ (fun _ _ _ _ _ => ⟨trivial, fun _ => trivial⟩) _) hloop).1
        rcases hdone with ⟨-, pool', hsame, rfl⟩ | ⟨-, rfl⟩
        · exact hs₁.setPool ((hs pid pool hpool).alike hsame)
        · exact hs₁
      case closePool pid =>
        obtain ⟨pool, pool', hpool, hsame, rfl⟩ := closePool_ok h
        exact hs.setPool ((hs pid pool hpool).alike hsame)
      case resetPool pid settings gaugeInit =>
        obtain ⟨pool, pool', s₁, hpool, hset, -, hfresh, -, -, rfl⟩ := resetPool_ok h
        exact (gaugeSet_sound hs hset).setPool (.fresh hfresh)
      case killPool pid =>
        rw [killPool_ok h]
        intro j pool hpool
        by_cases hj : j = pid
        · subst j
          rw [setPool_self] at hpool
          contradiction
        · rw [setPool_ne _ _ _ hj] at hpool
          exact hs j pool hpool
      case editPool pid _ _ =>
        obtain ⟨pool, pool', s₁, hpool, hset, -, hsame, rfl⟩ := editPool_ok h
        exact (gaugeSet_sound hs hset).setPool ((hs pid pool hpool).alike hsame)
      case onInitialize =>
        cases h
        exact (startBlock_sound hs).of_same (nextRound_pools _)

/-! What the records say was withdrawn. -/

theorem withdrawn_update (info : ShareInfo) {α : Type} (es : Table CurrencyId α)
    (f : CurrencyId → α → Option ℕ → Option ℕ) (c : CurrencyId) :
    ((info.withdrawnRewards.update es f).get c).getD 0 = (es.get c).elim (info.withdrawn c)
      fun a => (f c a (info.withdrawnRewards.get c)).getD 0 := by
  rw [Table.get_update]
  cases es.get c <;> rfl

omit [DecidableEq AccountId] in
theorem inflated_withdrawn (info : ShareInfo) (pool : PoolInfo AccountId) (n : ℕ) (c : CurrencyId)
    (hfits : ∀ r, pool.rewards.get c = some r →
      info.withdrawn c + rewardInflation n r.1 pool.totalShares ≤ u128Max) :
    (info.inflated pool n).withdrawn c = info.withdrawn c +
      (pool.rewards.get c).elim 0 fun r => rewardInflation n r.1 pool.totalShares := by
  have hget := withdrawn_update info pool.rewards (fun _ r withdrawn =>
    let inflation := rewardInflation n r.1 pool.totalShares
    some (withdrawn.elim inflation fun w => saturatingAdd w inflation)) c
  refine hget.trans ?_
  cases hreward : pool.rewards.get c with
  | none => rfl
  | some r =>
    have hle := hfits r hreward
    unfold ShareInfo.withdrawn at hle ⊢
    cases hold : info.withdrawnRewards.get c with
    | none => simp
    | some w =>
      rw [hold] at hle
      exact saturatingAdd_of_le hle

omit [DecidableEq AccountId] in
theorem claimed_withdrawn (info : ShareInfo) (pool : PoolInfo AccountId) (now : ℕ)
    (c : CurrencyId) (hfits : ∀ r, pool.rewards.get c = some r →
      info.withdrawn c + info.claimable pool c r ≤ u128Max) :
    (info.claimed pool now).withdrawn c = info.withdrawn c +
      (pool.rewards.get c).elim 0 fun r => info.claimable pool c r := by
  have hget := withdrawn_update info pool.rewards (fun c r withdrawn =>
    if info.claimable pool c r = 0 then withdrawn
    else some (saturatingAdd (info.withdrawn c) (info.claimable pool c r))) c
  refine hget.trans ?_
  cases hreward : pool.rewards.get c with
  | none => rfl
  | some r =>
    simp only [Option.elim_some]
    split
    · rename_i hzero
      rw [hzero]
      rfl
    · exact saturatingAdd_of_le (hfits r hreward)

theorem deflated_withdrawn (info : ShareInfo) (n dest : ℕ) (c : CurrencyId) :
    (info.deflated n dest).withdrawn c =
      info.withdrawn c - withdrawnToRemove n (info.withdrawn c) info.share := by
  have hget := withdrawn_update info info.withdrawnRewards (fun _ withdrawn _ =>
    some (withdrawn - withdrawnToRemove n withdrawn info.share)) c
  refine hget.trans ?_
  unfold ShareInfo.withdrawn
  cases info.withdrawnRewards.get c with
  | none => simp
  | some w => rfl

theorem sumWithdrawn_setShare (s : State cfg) (pid : ℕ) (who : AccountId)
    (info : Option ShareInfo) (c : CurrencyId) :
    (s.setShare pid who info).sumWithdrawn pid c + s.withdrawn pid who c =
      s.sumWithdrawn pid c + info.elim 0 (fun i => i.withdrawn c) := by
  have hsum := Table.sum_write (fun _ i => i.withdrawn c) (s.shares pid) who info
  have hold : Table.weight (fun (_ : AccountId) (i : ShareInfo) => i.withdrawn c) who
      ((s.shares pid).get who) = s.withdrawn pid who c := by
    unfold State.withdrawn State.shareOf
    cases (s.shares pid).get who <;> rfl
  have hnew : Table.weight (fun (_ : AccountId) (i : ShareInfo) => i.withdrawn c) who info =
      info.elim 0 fun i => i.withdrawn c := by
    cases info <;> rfl
  have hself : (s.setShare pid who info).shares pid = (s.shares pid).write who info := by
    simp [State.setShare]
  unfold State.sumWithdrawn
  rw [hself]
  omega

theorem withdrawn_le (s : State cfg) (pid : ℕ) (who : AccountId) (c : CurrencyId) :
    s.withdrawn pid who c ≤ s.sumWithdrawn pid c := by
  have hsum := sumWithdrawn_setShare s pid who none c
  simp only [Option.elim_none] at hsum
  omega

/-- What a pool has paid, its accounts have withdrawn, and those without shares nothing. -/
structure RewardsAgree (s : State cfg) : Prop where
  sound : PoolsSound s
  paid : ∀ pid c, (s.reward pid c).2 = s.sumWithdrawn pid c
  empty : ∀ pid who info, s.shareOf pid who = some info → info.share = 0 →
    ∀ c, info.withdrawn c = 0

omit [DecidableEq AccountId] in
theorem reward_some (h : s.poolInfos pid = some pool) (c : CurrencyId) :
    s.reward pid c = pool.reward c := by simp [State.reward, h]

theorem withdrawn_some {info : ShareInfo} (h : s.shareOf pid who = some info) (c : CurrencyId) :
    s.withdrawn pid who c = info.withdrawn c := by simp [State.withdrawn, h]

theorem RewardsAgree.withdrawn_le (hs : RewardsAgree s) (hpool : s.poolInfos pid = some pool)
    (who : AccountId) (c : CurrencyId) :
    s.withdrawn pid who c ≤ (pool.reward c).2 ∧ (pool.reward c).2 ≤ (pool.reward c).1 ∧
      (pool.reward c).1 ≤ u128Max := by
  have hsound := hs.sound pid pool hpool
  refine ⟨?_, hsound.paid c, hsound.fits c⟩
  rw [← reward_some hpool, hs.paid]
  exact Farming.withdrawn_le s pid who c

theorem RewardsAgree.move (hs : RewardsAgree s) {info : Option ShareInfo}
    (hsound : pool'.Sound)
    (h : ∀ c, (pool'.reward c).2 + s.withdrawn pid who c =
      (s.reward pid c).2 + info.elim 0 (fun i => i.withdrawn c))
    (hempty : ∀ i, info = some i → i.share = 0 → ∀ c, i.withdrawn c = 0) :
    RewardsAgree ((s.setShare pid who info).setPool pid (some pool')) := by
  constructor
  · have hshare : PoolsSound (s.setShare pid who info) := hs.sound
    exact hshare.setPool hsound
  · intro j c
    by_cases hj : j = pid
    · subst j
      have hsum := sumWithdrawn_setShare s pid who info c
      have hbefore := hs.paid pid c
      have hsame : ((s.setShare pid who info).setPool pid (some pool')).sumWithdrawn pid c =
        (s.setShare pid who info).sumWithdrawn pid c := rfl
      have hmove := h c
      rw [reward_some (setPool_self _ pid _), hsame]
      omega
    · have hbefore := hs.paid j c
      unfold State.reward State.sumWithdrawn at hbefore ⊢
      rw [setPool_ne _ _ _ hj]
      have hshares : (((s.setShare pid who info).setPool pid (some pool')).shares j) =
        s.shares j := by simp [State.setPool, State.setShare, hj]
      rw [hshares]
      exact hbefore
  · intro j w i hi hzero
    rw [setPool_shareOf, shareOf_setShare] at hi
    split at hi
    · exact hempty i hi hzero
    · exact hs.empty j w i hi hzero

theorem RewardsAgree.setShare (hs : RewardsAgree s) {info : Option ShareInfo}
    (h : ∀ c, s.withdrawn pid who c = info.elim 0 (fun i => i.withdrawn c))
    (hempty : ∀ i, info = some i → i.share = 0 → ∀ c, i.withdrawn c = 0) :
    RewardsAgree (s.setShare pid who info) := by
  refine ⟨hs.sound, ?_, ?_⟩
  · intro j c
    have hbefore := hs.paid j c
    have hsame : (s.setShare pid who info).reward j c = s.reward j c := rfl
    rw [hsame]
    by_cases hj : j = pid
    · subst j
      have hsum := sumWithdrawn_setShare s pid who info c
      have hequal := h c
      omega
    · unfold State.sumWithdrawn at hbefore ⊢
      have hshares : (s.setShare pid who info).shares j = s.shares j := by
        simp [State.setShare, hj]
      rw [hshares]
      exact hbefore
  · intro j w i hi hzero
    rw [shareOf_setShare] at hi
    split at hi
    · exact hempty i hi hzero
    · exact hs.empty j w i hi hzero

theorem RewardsAgree.setPool (hs : RewardsAgree s)
    (hsound : pool'.Sound) (h : ∀ c, (pool'.reward c).2 = s.sumWithdrawn pid c) :
    RewardsAgree (s.setPool pid (some pool')) := by
  refine ⟨hs.sound.setPool hsound, ?_, hs.empty⟩
  intro j c
  have hsame : (s.setPool pid (some pool')).sumWithdrawn j c = s.sumWithdrawn j c := rfl
  rw [hsame]
  by_cases hj : j = pid
  · subst j
    rw [reward_some (setPool_self _ pid _)]
    exact h c
  · unfold State.reward
    rw [setPool_ne _ _ _ hj]
    exact hs.paid j c

/-! The moves. -/

theorem shareOf_getD_withdrawn (s : State cfg) (pid : ℕ) (who : AccountId) (n : ℕ)
    (c : CurrencyId) :
    ((s.shareOf pid who).getD (ShareInfo.new n)).withdrawn c = s.withdrawn pid who c := by
  unfold State.withdrawn
  cases s.shareOf pid who <;> rfl

theorem addShare_rewards {n : ℕ} (hs : RewardsAgree s) (hpool : s.poolInfos pid = some pool)
    (hok : ∀ c total, pool.view.totalReward c = some total →
      total + rewardInflation n total pool.totalShares ≤ u128Max) :
    RewardsAgree (addShare s who pid pool n) := by
  unfold addShare
  split
  · exact hs
  · rename_i hn
    apply hs.move ((hs.sound pid pool hpool).inflated n)
    · intro c
      obtain ⟨hle, hpaid, -⟩ := hs.withdrawn_le hpool who c
      have hfits : ∀ r, pool.rewards.get c = some r →
          r.1 + rewardInflation n r.1 pool.totalShares ≤ u128Max := by
        intro r hr
        apply hok c
        simp [PoolInfo.view, hr]
      rw [Option.elim_some, inflated_withdrawn, shareOf_getD_withdrawn, inflated_reward,
        reward_some hpool]
      · unfold PoolInfo.reward at hle hpaid ⊢
        cases hreward : pool.rewards.get c with
        | none => simp
        | some r =>
          rw [hreward] at hle hpaid
          have hr := hfits r hreward
          simp only [Option.elim_some, Option.getD_some] at hle hpaid ⊢
          rw [saturatingAdd_of_le (by omega)]
          omega
      · intro r hr
        have hle' := hfits r hr
        rw [PoolInfo.reward, hr] at hle hpaid
        rw [shareOf_getD_withdrawn]
        simp only [Option.getD_some] at hle hpaid
        omega
    · rintro i ⟨rfl⟩ hzero
      have hpos : 0 < saturatingAdd
          ((s.shareOf pid who).getD (ShareInfo.new s.blockNumber)).share n :=
        lt_min (by omega) (by decide)
      exact absurd hzero (Nat.ne_of_gt hpos)

theorem claimRewards_rewards (hs : RewardsAgree s) (h : claimRewards s who pid = .ok s') :
    RewardsAgree s' := by
  rcases claimRewards_cases h with ⟨rfl, -⟩ | ⟨info, pool, ledger, hinfo, hne, hpool, rfl⟩
  · exact hs
  · have hledger : RewardsAgree { s with ledger := ledger } := ⟨hs.sound, hs.paid, hs.empty⟩
    apply hledger.move ((hs.sound pid pool hpool).claimed info)
    · intro c
      obtain ⟨hle, hpaid, hfits⟩ := hs.withdrawn_le hpool who c
      have hbefore : ({ s with ledger := ledger } : State cfg).withdrawn pid who c =
        info.withdrawn c := withdrawn_some hinfo c
      have hreward₀ : ({ s with ledger := ledger } : State cfg).reward pid c = pool.reward c :=
        reward_some hpool c
      rw [withdrawn_some hinfo] at hle
      rw [hbefore, hreward₀, Option.elim_some, claimed_withdrawn, claimed_reward]
      · unfold PoolInfo.reward at hle hpaid hfits ⊢
        cases hreward : pool.rewards.get c with
        | none => simp
        | some r =>
          have hclaim := claimable_le info pool c r
          rw [hreward] at hle hpaid hfits
          simp only [Option.elim_some, Option.getD_some] at hle hpaid hfits ⊢
          rw [saturatingAdd_of_le (by omega)]
          omega
      · intro r hr
        have hclaim := claimable_le info pool c r
        rw [PoolInfo.reward, hr] at hle hpaid hfits
        simp only [Option.getD_some] at hle hpaid hfits
        omega
    · rintro i ⟨rfl⟩ hzero
      exact absurd hzero hne

theorem takeShare_rewards {input : Option ℕ} {limitTime : ℕ} (hs : RewardsAgree s)
    (hinput : input ≠ some 0) (h : takeShare s who pid input limitTime = .ok s') :
    RewardsAgree s' := by
  rcases takeShare_cases h with
    ⟨rfl, -⟩ | ⟨info, hinfo, hle, ⟨hzero, rfl⟩ | ⟨pool, hne, hpool, rfl⟩⟩
  · exact hs
  · have hshare : info.share = 0 := by
      cases input with
      | none => exact hzero
      | some n => exact absurd (congrArg some hzero) hinput
    apply hs.setShare
    · intro c
      rw [withdrawn_some hinfo]
      exact hs.empty pid who info hinfo hshare c
    · rintro i ⟨⟩
  · have hsound := hs.sound pid pool hpool
    have hremove : ∀ c, withdrawnToRemove (input.getD info.share) (info.withdrawn c) info.share ≤
        info.withdrawn c := fun c => Proportion.part_le_pot hle
    apply hs.move (hsound.deflated info _)
    · intro c
      obtain ⟨gone, rfl, hpaid, -, -⟩ :=
        deflated_reward pool info (input.getD info.share) c (hsound.paid c)
      obtain ⟨hwithdrawn, -, -⟩ := hs.withdrawn_le hpool who c
      have hcut := hremove c
      rw [withdrawn_some hinfo] at hwithdrawn
      rw [hpaid, Option.elim_some, deflated_withdrawn, withdrawn_some hinfo, reward_some hpool]
      omega
    · rintro i ⟨rfl⟩ hzero c
      have hall : input.getD info.share = info.share := by
        have hsub : info.share - input.getD info.share = 0 := hzero
        omega
      have hpos : 0 < info.share := by omega
      rw [deflated_withdrawn, hall, withdrawnToRemove, Nat.mul_div_cancel_left _ hpos,
        Nat.sub_self]

theorem processWithdrawList_rewards {ifRemove : Bool} (hs : RewardsAgree s)
    (h : processWithdrawList s who pid pool ifRemove = .ok s') : RewardsAgree s' := by
  rcases processWithdrawList_cases h with ⟨rfl, -⟩ | ⟨info, s₁, hinfo, hpay, rfl⟩
  · exact hs
  · obtain ⟨ledger, p, rfl⟩ := payUnits_all hpay
    have hpaid : RewardsAgree ({ s with ledger := ledger }.setPrincipal pid who p) :=
      ⟨hs.sound, hs.paid, hs.empty⟩
    have hempty := hs.empty pid who info hinfo
    apply hpaid.setShare
    · intro c
      refine (withdrawn_some hinfo c).trans ?_
      unfold ShareInfo.processed
      split
      · rfl
      · rename_i hgone
        simp only [not_or, not_not] at hgone
        exact hempty hgone.2.1 c
    · intro i hi hzero c
      unfold ShareInfo.processed at hi
      split at hi
      · cases hi
        exact hempty hzero c
      · contradiction

theorem keeps_rewards :
    Keeps Rules.rewards fun s : State cfg => SharesAgree s ∧ RewardsAgree s where
  pids := fun _ hs => ⟨hs.1, hs.2.sound, hs.2.paid, hs.2.empty⟩
  pay := by
    intro s s' who pid pool n hs hpool hok h
    refine ⟨payShare_agree hs.1 hpool hok.1 h, ?_⟩
    obtain ⟨tokens, ledger, -, rfl⟩ := payShare_ok h
    have hpaid : RewardsAgree ({ s with ledger := ledger }.setPrincipal pid who
      ((s.principal pid who).payIn n tokens)) := ⟨hs.2.sound, hs.2.paid, hs.2.empty⟩
    exact addShare_rewards hpaid hpool hok.2
  add := fun hs hpool hok =>
    ⟨addShare_agree hs.1 hpool hok.1, addShare_rewards hs.2 hpool hok.2⟩
  claim := fun hs h => ⟨claimRewards_agree hs.1 h, claimRewards_rewards hs.2 h⟩
  take := fun hs hinput _ h =>
    ⟨takeShare_agree hs.1 hinput h, takeShare_rewards hs.2 hinput h⟩
  process := fun hs _ _ h =>
    ⟨processWithdrawList_agree hs.1 h, processWithdrawList_rewards hs.2 h⟩
  drop := by
    intro s who pid hs hok
    refine ⟨keeps_shares.drop hs.1 hok, ?_⟩
    apply hs.2.setShare
    · intro c
      unfold State.withdrawn
      cases hinfo : s.shareOf pid who with
      | none => rfl
      | some info => exact hs.2.empty pid who info hinfo (hok _ (shareView_some hinfo)) c
    · rintro i ⟨⟩

/-! The life of a pool. -/

theorem sumWithdrawn_zero (hs : RewardsAgree s) (h : s.sumShares pid = 0) (c : CurrencyId) :
    s.sumWithdrawn pid c = 0 := by
  unfold State.sumWithdrawn
  rw [← Table.sum_zero (s.shares pid)]
  apply Table.sum_congr
  rintro ⟨w, info⟩ he
  have hinfo : s.shareOf pid w = some info := Table.mem_entries.mp he
  exact hs.empty pid w info hinfo (sumShares_zero h w info hinfo) c

omit [DecidableEq AccountId] in
theorem fresh_reward (h : pool.Fresh) (c : CurrencyId) : pool.reward c = (0, 0) := by
  rw [PoolInfo.reward, h.2, Table.get_empty]
  rfl

theorem gaugeSet_rewards {keep : Prop} (hs : SharesAgree s ∧ RewardsAgree s)
    (hanew : ¬ keep → s.sumShares (gaugePid pid) = 0) (h : GaugeSet keep pid pool s s') :
    SharesAgree s' ∧ RewardsAgree s' := by
  refine ⟨gaugeSet_agree hs.1 hanew h, ?_⟩
  rcases h with rfl | ⟨gaugePool, rfl, ⟨-, old, hold, hsame⟩ | ⟨hnone, hfresh, -⟩⟩
  · exact hs.2
  · apply hs.2.setPool ((hs.2.sound _ old hold).alike hsame)
    intro c
    rw [PoolInfo.reward, hsame.2.1, ← hs.2.paid, reward_some hold]
    rfl
  · apply hs.2.setPool (.fresh hfresh)
    intro c
    rw [fresh_reward hfresh]
    refine (sumWithdrawn_zero hs.2 ?_ c).symm
    by_cases hkeep : keep
    · have hagree := hs.1 (gaugePid pid)
      rw [State.totalShares, hnone hkeep] at hagree
      exact hagree.symm
    · exact hanew hkeep

theorem alike_rewards (hs : RewardsAgree s)
    (hpool : s.poolInfos pid = some pool) (h : pool.Alike pool') :
    RewardsAgree (s.setPool pid (some pool')) := by
  apply hs.setPool ((hs.sound pid pool hpool).alike h)
  intro c
  rw [PoolInfo.reward, h.2.1, ← hs.paid, reward_some hpool]
  rfl

theorem startBlock_rewards (hs : RewardsAgree s) : RewardsAgree (startBlock s) := by
  refine ⟨startBlock_sound hs.sound, ?_, hs.empty⟩
  intro pid c
  have hsame : (startBlock s).sumWithdrawn pid c = s.sumWithdrawn pid c := rfl
  rw [hsame, ← hs.paid]
  unfold State.reward startBlock
  simp only
  cases s.poolInfos pid with
  | none => rfl
  | some pool =>
    simp only [Option.map_some, Option.elim_some]
    unfold PoolInfo.onBlock
    split
    · exact (accrued_reward pool _ c).1
    · split <;> rfl
    · rfl

theorem RewardsAgree.of_same (hs : RewardsAgree s) (h : SamePools s s') : RewardsAgree s' := by
  refine ⟨hs.sound.of_same h, ?_, ?_⟩
  · intro pid c
    unfold State.reward State.sumWithdrawn
    rw [h.poolInfos, h.shares]
    exact hs.paid pid c
  · intro pid w info hinfo
    unfold State.shareOf at hinfo
    rw [h.shares] at hinfo
    exact hs.empty pid w info hinfo

theorem step_rewards {call : Call cfg} (hs : SharesAgree s ∧ RewardsAgree s)
    (hok : KeepsRewards s call) (h : step s call = .ok s') : SharesAgree s' ∧ RewardsAgree s' := by
  by_cases hshares : call.MovesShares
  · exact keeps_rewards.call hshares hs hok.1 h
  · by_cases hidle : call.Idle
    · exact ⟨hs.1.of_same (step_idle hidle h), hs.2.of_same (step_idle hidle h)⟩
    · cases call <;> simp only [Call.MovesShares, Call.Idle, not_true_eq_false] at hshares hidle
      case forceRetirePool pid =>
        obtain ⟨pool, s₁, hpool, hloop, hdone⟩ := forceRetirePool_ok h
        obtain ⟨hshares₁, hrewards₁⟩ := (keeps_rewards.retireAll hs hpool (hok.1 pool hpool) hloop).1
        rcases hdone with ⟨hall, pool', hsame, rfl⟩ | ⟨-, rfl⟩
        · have hzero := hok.2 hall
          obtain ⟨hpools, hzero₁⟩ := retireAll_idle hloop (sumShares_zero hzero)
          refine ⟨?_, alike_rewards hrewards₁ (hpools ▸ hpool) hsame⟩
          apply hshares₁.setPool
          rw [zero_sumShares hzero₁, hsame.1, ← totalShares_some hpool, hs.1 pid, hzero]
        · exact ⟨hshares₁, hrewards₁⟩
      all_goals
        have hagree : SharesAgree s' := by
          refine step_sharesAgree hs.1 ?_ h
          exact ⟨trivial, hok.2⟩
        refine ⟨hagree, ?_⟩
      case createFarmingPool =>
        obtain ⟨s₁, pool, hset, -, hfresh, rfl⟩ := createFarmingPool_ok h
        obtain ⟨hshares₁, hrewards₁⟩ := gaugeSet_rewards hs (fun hfalse => absurd trivial hfalse) hset
        have hpool : RewardsAgree (s₁.setPool s.poolNextId (some pool)) := by
          apply hrewards₁.setPool (.fresh hfresh)
          intro c
          rw [fresh_reward hfresh]
          exact (sumWithdrawn_zero hrewards₁ ((hset.sumShares _).trans hok.2) c).symm
        exact ⟨hpool.sound, hpool.paid, hpool.empty⟩
      case charge pid _ =>
        obtain ⟨pool, pool', ledger, hpool, hsame, rfl⟩ := charge_ok h
        have hledger : RewardsAgree { s with ledger := ledger } :=
          ⟨hs.2.sound, hs.2.paid, hs.2.empty⟩
        exact alike_rewards hledger hpool hsame
      case closePool pid =>
        obtain ⟨pool, pool', hpool, hsame, rfl⟩ := closePool_ok h
        exact alike_rewards hs.2 hpool hsame
      case resetPool pid settings gaugeInit =>
        obtain ⟨pool, pool', s₁, hpool, hset, hnone, hfresh, -, -, rfl⟩ := resetPool_ok h
        have hs₁ : RewardsAgree s₁ := by
          cases gaugeInit with
          | none => exact hnone rfl ▸ hs.2
          | some rewards => exact (gaugeSet_rewards hs (fun _ => hok.2.2 (by simp)) hset).2
        apply hs₁.setPool (.fresh hfresh)
        intro c
        rw [fresh_reward hfresh]
        exact (sumWithdrawn_zero hs₁ ((hset.sumShares _).trans hok.2.1) c).symm
      case killPool pid =>
        have hsound := step_sound hs.2.sound h
        rw [killPool_ok h] at hsound ⊢
        refine ⟨hsound, ?_, ?_⟩
        · intro j c
          have hbefore := hs.2.paid j c
          unfold State.reward State.sumWithdrawn at hbefore ⊢
          by_cases hj : j = pid
          · subst j
            simp [State.setPool]
          · rw [setPool_ne _ _ _ hj]
            simpa [State.setPool, hj] using hbefore
        · intro j w info hinfo
          by_cases hj : j = pid
          · subst j
            simp [State.shareOf, State.setPool] at hinfo
          · apply hs.2.empty j w info
            simpa [State.shareOf, State.setPool, hj] using hinfo
      case editPool pid _ _ =>
        obtain ⟨pool, pool', s₁, hpool, hset, -, hsame, rfl⟩ := editPool_ok h
        obtain ⟨hshares₁, hrewards₁⟩ := gaugeSet_rewards hs (fun hfalse => absurd trivial hfalse) hset
        have hpool₁ : s₁.poolInfos pid = some pool := by
          rcases hset with rfl | ⟨gaugePool, rfl, -⟩
          · exact hpool
          · rw [setPool_ne _ _ _ (gaugePid_ne pid).symm]
            exact hpool
        exact alike_rewards hrewards₁ hpool₁ hsame
      case onInitialize =>
        cases h
        exact (startBlock_rewards hs.2).of_same (nextRound_pools _)

theorem genesis_rewards (ledger : cfg.currencies.Ledger) (bbBalance : AccountId → Option ℕ)
    (n : ℕ) : SharesAgree (genesis cfg ledger bbBalance n) ∧
      RewardsAgree (genesis cfg ledger bbBalance n) := by
  refine ⟨genesis_sharesAgree ledger bbBalance n, ?_, fun _ _ => rfl, ?_⟩
  · intro pid pool hpool
    contradiction
  · intro pid who info hinfo
    have hnone : (genesis cfg ledger bbBalance n).shareOf pid who = none := Table.get_empty who
    rw [hnone] at hinfo
    contradiction

/-! What can be claimed. -/

theorem rewardInflation_eq {n total shares : ℕ} (hshares : shares ≠ 0)
    (hfits : n * total / shares ≤ u128Max) :
    rewardInflation n total shares = Proportion.part n shares total := by
  unfold rewardInflation
  rw [if_neg hshares, if_pos hfits]
  rfl

/-- Shares that join a pool with shares in it, where nothing exceeds `u128`. -/
structure Joins (pool : PoolInfo AccountId) (c : CurrencyId) (n : ℕ) : Prop where
  shared : pool.totalShares ≠ 0
  shares : pool.totalShares + n ≤ u128Max
  reward : (pool.reward c).1 + n * (pool.reward c).1 / pool.totalShares ≤ u128Max

omit [DecidableEq AccountId] in
theorem inflated_joins {n : ℕ} (h : Joins pool c n) (hsound : pool.Sound) :
    (pool.inflated n).totalShares = pool.totalShares + n ∧
    ((pool.inflated n).reward c).1 =
      (pool.reward c).1 + Proportion.part n pool.totalShares (pool.reward c).1 ∧
    ((pool.inflated n).reward c).2 =
      (pool.reward c).2 + Proportion.part n pool.totalShares (pool.reward c).1 := by
  refine ⟨saturatingAdd_of_le h.shares, ?_⟩
  have hreward := h.reward
  have hpaid := hsound.paid c
  rw [inflated_reward]
  unfold PoolInfo.reward at hreward hpaid ⊢
  cases hget : pool.rewards.get c with
  | none => simp [Proportion.part]
  | some r =>
    rw [hget] at hreward hpaid
    simp only [Option.elim_some, Option.getD_some] at hreward hpaid ⊢
    rw [rewardInflation_eq h.shared (by omega)]
    have hpart : Proportion.part n pool.totalShares r.1 = n * r.1 / pool.totalShares := rfl
    exact ⟨saturatingAdd_of_le (by omega), saturatingAdd_of_le (by omega)⟩

theorem claimable_some {info : ShareInfo} (hpool : s.poolInfos pid = some pool)
    (hinfo : s.shareOf pid who = some info) (c : CurrencyId) :
    s.claimable pid who c = min (Proportion.part info.share pool.totalShares (pool.reward c).1 -
      info.withdrawn c) ((pool.reward c).1 - (pool.reward c).2) := by
  unfold State.claimable
  rw [hpool, hinfo]
  rfl

theorem addShare_pool {n : ℕ} (hn : n ≠ 0) :
    (addShare s who pid pool n).poolInfos pid = some (pool.inflated n) := by
  unfold addShare
  rw [if_neg hn]
  exact setPool_self _ pid _

theorem addShare_shareOf (s : State cfg) (who : AccountId) (pid : ℕ)
    (pool : PoolInfo AccountId) {n : ℕ} (hn : n ≠ 0) (w : AccountId) :
    (addShare s who pid pool n).shareOf pid w = if w = who then
      some (((s.shareOf pid who).getD (ShareInfo.new s.blockNumber)).inflated pool n)
      else s.shareOf pid w := by
  unfold addShare
  rw [if_neg hn, setPool_shareOf, shareOf_setShare]
  simp

theorem joiner_claimable {n : ℕ} (hs : RewardsAgree s) (hpool : s.poolInfos pid = some pool)
    (h : Joins pool c n) (hnew : s.shareUnits pid who = 0) :
    (addShare s who pid pool n).claimable pid who c = 0 := by
  have hsound := hs.sound pid pool hpool
  have hold : ((s.shareOf pid who).getD (ShareInfo.new s.blockNumber)).share = 0 := by
    rw [← hnew]
    unfold State.shareUnits State.shareView
    cases s.shareOf pid who <;> rfl
  by_cases hn : n = 0
  · subst n
    cases hinfo : s.shareOf pid who with
    | none =>
      unfold State.claimable addShare
      rw [if_pos rfl, hpool, hinfo]
    | some info =>
      rw [hinfo] at hold
      have hsame : addShare s who pid pool 0 = s := by simp [addShare]
      have hzero : info.share = 0 := hold
      rw [hsame, claimable_some hpool hinfo, hzero]
      simp [Proportion.part]
  · obtain ⟨htotal, hreward, -⟩ := inflated_joins h hsound
    have hrecord := addShare_shareOf s who pid pool hn who
    rw [if_pos rfl] at hrecord
    rw [claimable_some (addShare_pool hn) hrecord, htotal, hreward]
    obtain ⟨hle, hpaid, -⟩ := hs.withdrawn_le hpool who c
    have hshare : (((s.shareOf pid who).getD (ShareInfo.new s.blockNumber)).inflated pool n).share =
        n := by
      have hfits := h.shares
      change saturatingAdd _ n = n
      rw [hold, saturatingAdd_of_le (by omega)]
      omega
    have hwithdrawn : Proportion.part n pool.totalShares (pool.reward c).1 ≤
        (((s.shareOf pid who).getD (ShareInfo.new s.blockNumber)).inflated pool n).withdrawn c := by
      have hfits := h.reward
      rw [inflated_withdrawn]
      · unfold PoolInfo.reward at hfits ⊢
        cases hget : pool.rewards.get c with
        | none => simp [Proportion.part]
        | some r =>
          rw [hget] at hfits
          simp only [Option.getD_some, Option.elim_some] at hfits ⊢
          rw [rewardInflation_eq h.shared (by omega)]
          exact Nat.le_add_left _ _
      · intro r hget
        rw [PoolInfo.reward, hget] at hfits hle hpaid
        simp only [Option.getD_some] at hfits hle hpaid
        rw [shareOf_getD_withdrawn, rewardInflation_eq h.shared (by omega)]
        have hpart : Proportion.part n pool.totalShares r.1 = n * r.1 / pool.totalShares := rfl
        omega
    have hjoined := Proportion.part_joiner_le (Nat.pos_of_ne_zero h.shared) n (pool.reward c).1
    rw [hshare, Nat.sub_eq_zero_of_le (hjoined.trans hwithdrawn), Nat.zero_min]

theorem others_claimable {n : ℕ} {w : AccountId} (hs : SharesAgree s ∧ RewardsAgree s)
    (hpool : s.poolInfos pid = some pool) (h : Joins pool c n) (hw : w ≠ who) :
    s.claimable pid w c ≤ (addShare s who pid pool n).claimable pid w c + 1 := by
  by_cases hn : n = 0
  · subst n
    have hsame : addShare s who pid pool 0 = s := by simp [addShare]
    rw [hsame]
    exact Nat.le_succ _
  · cases hinfo : s.shareOf pid w with
    | none =>
      unfold State.claimable
      rw [hpool, hinfo]
      exact Nat.zero_le _
    | some info =>
      obtain ⟨htotal, hreward, hpaid⟩ := inflated_joins h (hs.2.sound pid pool hpool)
      have hrecord := addShare_shareOf s who pid pool hn w
      rw [if_neg hw, hinfo] at hrecord
      have hle : info.share ≤ pool.totalShares := by
        have hunits := shareUnits_le s pid w
        rw [shareUnits_of hinfo, ← hs.1 pid, totalShares_some hpool] at hunits
        exact hunits
      have hpart := Proportion.part_le_joined (Nat.pos_of_ne_zero h.shared) hle n
        (pool.reward c).1
      rw [claimable_some hpool hinfo, claimable_some (addShare_pool hn) hrecord, htotal, hreward,
        hpaid]
      omega

def claimAll (s : State cfg) (pid : ℕ) (accounts : List AccountId) : State cfg :=
  run (fun s who => claimRewards s who pid) s accounts

theorem claimAll_reward (hs : RewardsAgree s) (pid : ℕ) (accounts : List AccountId) :
    RewardsAgree (claimAll s pid accounts) ∧
      ∀ c, ((claimAll s pid accounts).reward pid c).1 = (s.reward pid c).1 := by
  refine run_invariant (I := fun s' => RewardsAgree s' ∧
    ∀ c, (s'.reward pid c).1 = (s.reward pid c).1) ?_ accounts ?_ (meets_true accounts s)
  · rintro s₁ who s₂ ⟨hs₁, hreward⟩ - h
    refine ⟨claimRewards_rewards hs₁ h, fun c => ?_⟩
    rw [← hreward c]
    rcases claimRewards_cases h with ⟨rfl, -⟩ | ⟨info, pool, ledger, -, -, hpool, rfl⟩
    · rfl
    · rw [reward_some (setPool_self _ pid _), reward_some hpool, claimed_reward, PoolInfo.reward]
      cases pool.rewards.get c <;> rfl
  · exact ⟨hs, fun _ => rfl⟩

/-- What a pool has promised in one currency. -/
structure Backed (s : State cfg) (pid : ℕ) (pool : PoolInfo AccountId) (c : CurrencyId) :
    Prop where
  paid : (pool.reward c).2 = s.sumWithdrawn pid c
  promised : (s.sumParts pid pool c : ℤ) - s.sumWithdrawn pid c ≤
    (pool.reward c).1 - (pool.reward c).2
  claims : ∀ accounts, (claimAll s pid accounts).sumWithdrawn pid c ≤
    s.sumWithdrawn pid c + ((pool.reward c).1 - (pool.reward c).2)
  joiner : ∀ who n, Joins pool c n → s.shareUnits pid who = 0 →
    (addShare s who pid pool n).claimable pid who c = 0
  others : ∀ who n w, Joins pool c n → w ≠ who →
    s.claimable pid w c ≤ (addShare s who pid pool n).claimable pid w c + 1

omit [DecidableEq AccountId] in
theorem sumParts_le (hs : SharesAgree s) (hpool : s.poolInfos pid = some pool) (c : CurrencyId) :
    s.sumParts pid pool c ≤ (pool.reward c).1 := by
  have hsum := Proportion.sum_part_le (fun (_ : AccountId) (info : ShareInfo) => info.share)
    (s.shares pid) (pool.reward c).1
  have hagree : pool.totalShares = Table.sum (fun _ info => info.share) (s.shares pid) :=
    (totalShares_some hpool).symm.trans (hs pid)
  rw [← hagree] at hsum
  exact hsum

/-- In every state of a run whose calls meet `KeepsRewards`, what is promised is there: paid is
what was withdrawn, the parts less what was withdrawn are within what is left, claims in any
order take no more than that, and joining shares takes no promise back beyond one unit. -/
theorem rewards_backed (ledger : cfg.currencies.Ledger) (bbBalance : AccountId → Option ℕ) (n : ℕ)
    (calls : List (Call cfg)) (h : Meets step KeepsRewards (genesis cfg ledger bbBalance n) calls)
    (pid : ℕ) (pool : PoolInfo AccountId)
    (hpool : (run step (genesis cfg ledger bbBalance n) calls).poolInfos pid = some pool)
    (c : CurrencyId) : Backed (run step (genesis cfg ledger bbBalance n) calls) pid pool c := by
  have hs : SharesAgree (run step (genesis cfg ledger bbBalance n) calls) ∧
      RewardsAgree (run step (genesis cfg ledger bbBalance n) calls) :=
    run_invariant (I := fun s => SharesAgree s ∧ RewardsAgree s)
      (fun _ _ _ hs hok hstep => step_rewards hs hok hstep) calls
      (genesis_rewards ledger bbBalance n) h
  generalize run step (genesis cfg ledger bbBalance n) calls = s at *
  have hpaid : (pool.reward c).2 = s.sumWithdrawn pid c := by
    rw [← hs.2.paid, reward_some hpool]
  constructor
  · exact hpaid
  · have hparts := sumParts_le hs.1 hpool c
    omega
  · intro accounts
    obtain ⟨hall, hreward⟩ := claimAll_reward hs.2 pid accounts
    have hle : ((claimAll s pid accounts).reward pid c).2 ≤ (pool.reward c).1 := by
      rw [← reward_some hpool, ← hreward c]
      unfold State.reward
      cases hget : (claimAll s pid accounts).poolInfos pid with
      | none => exact Nat.le_refl _
      | some pool' => exact (hall.sound pid pool' hget).paid c
    rw [hall.paid] at hle
    omega
  · intro who n hjoins hnew
    exact joiner_claimable hs.2 hpool hjoins hnew
  · intro who n w hjoins hw
    exact others_claimable hs hpool hjoins hw

/-! Where there is room in the totals, deposits and withdrawals are admitted here too. -/

/-- Neither the shares nor the rewards of a pool come near `u128`. -/
def State.Room (s : State cfg) (pid n : ℕ) : Prop :=
  ∀ pool, s.poolInfos pid = some pool → pool.totalShares + n ≤ u128Max ∧
    ∀ e ∈ pool.rewards.entries, e.2.1 + n * e.2.1 ≤ u128Max

theorem inflation_le (n total shares : ℕ) : rewardInflation n total shares ≤ n * total := by
  unfold rewardInflation
  split
  · exact Nat.zero_le _
  · split
    · exact Nat.div_le_self _ _
    · exact Nat.zero_le _

omit [DecidableEq AccountId] in
theorem add_room {n : ℕ} {v : PoolView} (h : s.Room pid n) (hv : s.poolView pid = some v)
    (share : ℕ) {amount : ℕ} (hle : amount ≤ n) : Rules.rewards.add pid v share amount := by
  unfold State.poolView at hv
  rw [Option.map_eq_some_iff] at hv
  obtain ⟨pool, hpool, rfl⟩ := hv
  obtain ⟨hshares, hrewards⟩ := h pool hpool
  have htotal : pool.view.totalShares = pool.totalShares := rfl
  refine ⟨Or.inl (by omega), ?_⟩
  intro c total hget
  have hget' : (pool.rewards.get c).map Prod.fst = some total := hget
  rw [Option.map_eq_some_iff] at hget'
  obtain ⟨r, hr, rfl⟩ := hget'
  have hroom := hrewards (c, r) (Table.mem_entries.mpr hr)
  have hinflation := inflation_le amount r.1 pool.view.totalShares
  have hmul : amount * r.1 ≤ n * r.1 := Nat.mul_le_mul_right _ hle
  simp only at hroom
  omega

theorem deposit_rewards_room {n : ℕ} (hpid : s.Room pid n)
    (hgauge : s.Room (gaugePid pid) ((s.bbBalance who).getD 0 * n)) :
    KeepsRewards s (.deposit who pid n) := by
  refine ⟨⟨?_, ?_⟩, trivial⟩
  · intro v hv
    exact add_room hpid hv _ (Nat.le_refl n)
  · intro b v hb hv
    rw [hb, Option.getD_some] at hgauge
    refine ⟨fun i _ => ?_, fun _ => add_room hgauge hv _ (Nat.le_refl _)⟩
    unfold UpdateAdmits
    split
    · trivial
    · exact add_room hgauge hv _ (Nat.sub_le _ _)

/-- The pools to look at are those there are. -/
def State.roomy (s : State cfg) (pid n : ℕ) : Bool :=
  (s.poolInfos pid).all fun pool => decide (pool.totalShares + n ≤ u128Max) &&
    pool.rewards.entries.all fun e => decide (e.2.1 + n * e.2.1 ≤ u128Max)

omit [DecidableEq AccountId] in
theorem room_of_roomy {n : ℕ} (h : s.roomy pid n = true) : s.Room pid n := by
  intro pool hpool
  unfold State.roomy at h
  rw [hpool] at h
  simp only [Option.all_some, Bool.and_eq_true, decide_eq_true_eq, List.all_eq_true] at h
  exact h

namespace Sample

def claimedOnce : List (Call config) :=
  joined ++ [.deposit 2 0 50, .onInitialize, .onInitialize] ++ [.deposit 3 0 7]

/-- The first account joins after rewards have accrued. -/
def accruedFirst : List (Call config) := opened none ++ [.onInitialize, .onInitialize]

def leftovers : List (Call config) :=
  [.createFarmingPool [(dot, .one)] [(bnc, 1002)] none 0 0 0 0 5, .charge 1 0 [],
    .deposit 1 0 3, .deposit 2 0 3, .deposit 3 0 3000, .onInitialize, .onInitialize,
    .withdraw 1 0 (some 2), .withdraw 2 0 (some 2)]

theorem joined_rewards : Meets step KeepsRewards start joined := by
  apply meets_append
  · exact ⟨fun _ _ => ⟨trivial, rfl⟩, fun _ _ => ⟨trivial, trivial⟩, trivial⟩
  · refine ⟨fun _ _ => ?_, trivial⟩
    apply deposit_rewards_room
    · exact room_of_roomy (by decide +kernel)
    · exact room_of_roomy (by decide +kernel)

theorem accrued_rewards : KeepsRewards (run step start joined) (.deposit 2 0 50) := by
  apply deposit_rewards_room
  · exact room_of_roomy (by decide +kernel)
  · exact room_of_roomy (by decide +kernel)

theorem claimedOnce_rewards :
    KeepsRewards (run step start (joined ++ [.deposit 2 0 50, .onInitialize, .onInitialize]))
      (.deposit 3 0 7) := by
  apply deposit_rewards_room
  · exact room_of_roomy (by decide +kernel)
  · exact room_of_roomy (by decide +kernel)

theorem claimedOnce_meets : Meets step KeepsRewards start claimedOnce := by
  apply meets_append
  · exact meets_append joined_rewards ⟨fun _ _ => accrued_rewards, fun _ _ => ⟨trivial, trivial⟩,
      fun _ _ => ⟨trivial, trivial⟩, trivial⟩
  · exact ⟨fun _ _ => claimedOnce_rewards, trivial⟩

end Sample

theorem rewards_backed_sample : ∃ pool,
    (run step Sample.start Sample.claimedOnce).poolInfos 0 = some pool ∧
    Backed (run step Sample.start Sample.claimedOnce) 0 pool Sample.bnc := by
  have hsome : ((run step Sample.start Sample.claimedOnce).poolInfos 0).isSome := by
    decide +kernel
  obtain ⟨pool, hpool⟩ := Option.isSome_iff_exists.mp hsome
  exact ⟨pool, hpool, @rewards_backed ℕ _ Sample.config Sample.wealth (fun _ => some 2) 1
    Sample.claimedOnce Sample.claimedOnce_meets 0 pool hpool Sample.bnc⟩

/-- The first to join can claim all 10 units there are. And after two accounts have left in part,
the third alone has 1001 to its part where 1000 are left: what the others have withdrawn beyond
their parts is not subtracted. -/
theorem promises_exceed :
    (run step Sample.start (Sample.accruedFirst ++ [.deposit 1 0 5])).claimable 0 1 Sample.bnc =
      10 ∧
    ∃ pool, (run step Sample.start Sample.leftovers).poolInfos 0 = some pool ∧
      (pool.reward Sample.bnc).1 - (pool.reward Sample.bnc).2 <
        Table.sum (fun _ info => info.share * (pool.reward Sample.bnc).1 / pool.totalShares -
          info.withdrawn Sample.bnc) ((run step Sample.start Sample.leftovers).shares 0) := by
  refine ⟨by decide +kernel, ?_⟩
  have hany : ((run step Sample.start Sample.leftovers).poolInfos 0).any (fun pool =>
      (pool.reward Sample.bnc).1 - (pool.reward Sample.bnc).2 <
        Table.sum (fun _ info => info.share * (pool.reward Sample.bnc).1 / pool.totalShares -
          info.withdrawn Sample.bnc) ((run step Sample.start Sample.leftovers).shares 0)) = true :=
    by decide +kernel
  obtain ⟨pool, hpool, hlt⟩ := (Option.any_eq_true ..).mp hany
  exact ⟨pool, hpool, of_decide_eq_true hlt⟩

end Bifrost.Farming
