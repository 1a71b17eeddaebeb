import Bifrost.VtokenVoting.Transitions

/-!
# Locks and what they are for

An account is to keep locked its largest vote, what it has delegated, and its prior lock until
that is over. A vote and a delegation set the lock to their own balance "since we don't know what
other votes are in place", and forget the prior lock; the end of a delegation may revive one.
-/

namespace Bifrost.VtokenVoting

open Result Machine
set_option autoImplicit false

/-! What is to be locked. -/

/-- What a prior lock still asks for. -/
def PriorLock.due (prior : PriorLock) (now : ℕ) : ℕ :=
  if prior.untilBlock ≤ now then 0 else prior.amount

theorem PriorLock.locked_rejig (prior : PriorLock) (now : ℕ) :
    (prior.rejig now).locked = prior.due now := by
  unfold PriorLock.rejig PriorLock.due
  split <;> rfl

theorem PriorLock.due_accumulate_le {prior : PriorLock} {now unlockAt balance n : ℕ}
    (hprior : prior.due now ≤ n) (hbalance : balance ≤ n) :
    (prior.accumulate unlockAt balance).due now ≤ n ↔
      (prior.untilBlock ≤ now → now < unlockAt → prior.amount ≤ n) := by
  unfold PriorLock.due at hprior ⊢
  simp only [PriorLock.accumulate, max_le_iff]
  by_cases hover : prior.untilBlock ≤ now
  · by_cases hunlock : unlockAt ≤ now
    · rw [if_pos ⟨hover, hunlock⟩]
      exact ⟨fun _ _ hlt => absurd hunlock (not_le.mpr hlt), fun _ => Nat.zero_le n⟩
    · rw [if_neg fun h => hunlock h.2, max_le_iff]
      exact ⟨fun h _ _ => h.1, fun h => ⟨h hover (not_le.mp hunlock), hbalance⟩⟩
  · rw [if_neg hover] at hprior
    rw [if_neg fun h => hover h.1, max_le_iff]
    exact ⟨fun _ h => absurd h hover, fun _ => ⟨hprior, hbalance⟩⟩

theorem PriorLock.due_anti (prior : PriorLock) {now now' : ℕ} (h : now ≤ now') :
    prior.due now' ≤ prior.due now := by
  unfold PriorLock.due
  split
  · exact Nat.zero_le _
  · rw [if_neg (by omega)]

theorem foldl_max_le_iff (l : List ℕ) (n m : ℕ) :
    l.foldl max n ≤ m ↔ n ≤ m ∧ ∀ x ∈ l, x ≤ m := by
  induction l generalizing n with
  | nil => simp
  | cons x l ih => rw [List.foldl_cons, ih, max_le_iff, List.forall_mem_cons, and_assoc]

namespace Casting

variable (c : Casting) {n m poll : ℕ} {record : VoteRecord}

theorem maxBalance_le_iff : c.maxBalance n ≤ m ↔
    n ≤ m ∧ ∀ poll record, c.votes.get poll = some record → record.vtokenBalance ≤ m := by
  rw [Casting.maxBalance, foldl_max_le_iff, List.forall_mem_map]
  refine and_congr_right fun _ => ⟨fun h poll record hget => ?_, fun h e he => ?_⟩
  · exact h (poll, record) (SortedMap.mem_entries.mpr hget)
  · exact h e.1 e.2 (SortedMap.mem_entries.mp he)

theorem maxBalance_eq (n : ℕ) : c.maxBalance n = max n (c.maxBalance 0) := by
  refine eq_of_forall_ge_iff fun m => ?_
  rw [max_le_iff, maxBalance_le_iff, maxBalance_le_iff]
  simp

theorem maxBalance_put (poll : ℕ) (record : VoteRecord) :
    (c.put poll record).maxBalance 0 = max record.vtokenBalance ((c.drop poll).maxBalance 0) := by
  refine eq_of_forall_ge_iff fun m => ?_
  rw [max_le_iff, maxBalance_le_iff, maxBalance_le_iff]
  simp only [put, drop, SortedMap.get_insert, SortedMap.get_erase, Nat.zero_le, true_and]
  constructor
  · intro h
    refine ⟨h poll record (if_pos rfl), fun p r hr => ?_⟩
    split at hr
    · cases hr
    · rename_i hne
      exact h p r (by rw [if_neg hne, hr])
  · rintro ⟨hrecord, hothers⟩ p r hr
    split at hr
    · cases hr
      exact hrecord
    · rename_i hne
      exact hothers p r (by rw [if_neg hne, hr])

end Casting

namespace Voting

variable {AccountId : Type}

def prior : Voting AccountId → PriorLock
  | casting c => c.prior
  | delegating d => d.prior

/-- What an account is to keep locked: its largest vote or its delegation, and its prior lock. -/
def obligation (now : ℕ) : Voting AccountId → ℕ
  | casting c => c.maxBalance (c.prior.due now)
  | delegating d => max d.balance (d.prior.due now)

theorem lockedBalance_rejig (voting : Voting AccountId) (now : ℕ) :
    (voting.rejig now).lockedBalance = voting.obligation now := by
  cases voting with
  | casting c =>
    simp only [rejig, lockedBalance, obligation, PriorLock.locked_rejig]
    rfl
  | delegating d => simp only [rejig, lockedBalance, obligation, PriorLock.locked_rejig]

theorem obligation_anti (voting : Voting AccountId) {now now' : ℕ} (h : now ≤ now') :
    voting.obligation now' ≤ voting.obligation now := by
  cases voting with
  | casting c =>
    rw [obligation, obligation, Casting.maxBalance_eq, c.maxBalance_eq (c.prior.due now)]
    exact max_le_max (c.prior.due_anti h) le_rfl
  | delegating d => exact max_le_max le_rfl (d.prior.due_anti h)

theorem obligation_rejig (voting : Voting AccountId) (now : ℕ) :
    (voting.rejig now).obligation now = voting.obligation now := by
  have hdue (prior : PriorLock) : (prior.rejig now).due now = prior.due now := by
    unfold PriorLock.rejig PriorLock.due
    by_cases h : prior.untilBlock ≤ now
    · simp [h, PriorLock.zero]
    · simp [h]
  cases voting with
  | casting c =>
    simp only [rejig, obligation, hdue]
    rfl
  | delegating d => simp only [rejig, obligation, hdue]

theorem obligation_shift (voting : Voting AccountId) (direction : Direction)
    (amount : Delegations) (now : ℕ) :
    (voting.shift direction amount).obligation now = voting.obligation now := by
  cases voting <;> rfl

end Voting

variable {AccountId : Type} [DecidableEq AccountId] {cfg : Config AccountId} {s s' s'' : State cfg}
  {vtoken : CurrencyId} {who : AccountId} {poll : ℕ}

def State.obligation (s : State cfg) (vtoken : CurrencyId) (who : AccountId) : ℕ :=
  (s.getVoting vtoken who).obligation (s.currentBlock vtoken)

/-- Every account has locked what it is to keep locked. -/
def State.Covered (s : State cfg) : Prop :=
  ∀ vtoken who, s.obligation vtoken who ≤ s.convictionLock vtoken who

/-! Changes at one account. -/

/-- Only `who` has got another lock or other obligations. -/
structure OnlyAt (vtoken : CurrencyId) (who : AccountId) (s s' : State cfg) : Prop where
  obligations : ∀ v x, ¬(v = vtoken ∧ x = who) → ∀ now,
    (s'.getVoting v x).obligation now = (s.getVoting v x).obligation now
  locks : ∀ v x, ¬(v = vtoken ∧ x = who) → s'.convictionLock v x = s.convictionLock v x
  localBlock : s'.localBlock = s.localBlock
  relayBlock : s'.relayBlock = s.relayBlock

namespace OnlyAt

theorem refl (s : State cfg) : OnlyAt vtoken who s s :=
  ⟨fun _ _ _ _ => rfl, fun _ _ _ => rfl, rfl, rfl⟩

theorem trans (h : OnlyAt vtoken who s s') (h' : OnlyAt vtoken who s' s'') :
    OnlyAt vtoken who s s'' where
  obligations v x hne now := (h'.obligations v x hne now).trans (h.obligations v x hne now)
  locks v x hne := (h'.locks v x hne).trans (h.locks v x hne)
  localBlock := h'.localBlock.trans h.localBlock
  relayBlock := h'.relayBlock.trans h.relayBlock

theorem currentBlock (h : OnlyAt vtoken who s s') (v : CurrencyId) :
    s'.currentBlock v = s.currentBlock v := by
  rw [State.currentBlock, h.localBlock, h.relayBlock]
  rfl

theorem obligation_eq (h : OnlyAt vtoken who s s') {v : CurrencyId} {x : AccountId}
    (hne : ¬(v = vtoken ∧ x = who)) : s'.obligation v x = s.obligation v x := by
  rw [State.obligation, h.obligations v x hne, h.currentBlock]
  rfl

theorem setVoting (s : State cfg) (vtoken : CurrencyId) (who : AccountId)
    (voting : Voting AccountId) : OnlyAt vtoken who s (s.setVoting vtoken who voting) where
  obligations v x hne now := by rw [getVoting_setVoting, if_neg hne]
  locks _ _ _ := rfl
  localBlock := rfl
  relayBlock := rfl

end OnlyAt

theorem Quiet.onlyAt (h : Quiet s s') : OnlyAt vtoken who s s' where
  obligations v x _ now := by rw [h.getVoting]
  locks v x _ := h.convictionLock v x
  localBlock := h.localBlock
  relayBlock := h.relayBlock

theorem LocksTo.onlyAt {n : ℕ} (h : LocksTo s vtoken who n s') : OnlyAt vtoken who s s' := by
  obtain ⟨ledger, locks, rfl, hlock⟩ := h
  refine ⟨fun _ _ _ _ => rfl, fun v x hne => ?_, rfl, rfl⟩
  exact (hlock v x).trans (if_neg hne)

theorem LocksTo.lock_self {n : ℕ} (h : LocksTo s vtoken who n s') :
    s'.convictionLock vtoken who = n := by
  obtain ⟨ledger, locks, rfl, hlock⟩ := h
  exact (hlock vtoken who).trans (if_pos ⟨rfl, rfl⟩)

theorem LocksTo.getVoting_eq {n : ℕ} (h : LocksTo s vtoken who n s') (v : CurrencyId)
    (x : AccountId) : s'.getVoting v x = s.getVoting v x := by
  obtain ⟨ledger, locks, rfl, -⟩ := h
  rfl

theorem covered_iff (hs : s.Covered) (h : OnlyAt vtoken who s s') :
    s'.Covered ↔ s'.obligation vtoken who ≤ s'.convictionLock vtoken who := by
  constructor
  · exact fun hcovered => hcovered vtoken who
  · intro hwho v x
    by_cases heq : v = vtoken ∧ x = who
    · rw [heq.1, heq.2]
      exact hwho
    · rw [h.obligation_eq heq, h.locks v x heq]
      exact hs v x

theorem covered_updateLock (hs : s.Covered) (hbefore : OnlyAt vtoken who s s')
    (h : s'.updateLock who vtoken = .ok s'') : s''.Covered := by
  have hlock := updateLock_ok h
  have honly := hbefore.trans ((OnlyAt.setVoting s' vtoken who _).trans hlock.onlyAt)
  rw [covered_iff hs honly, State.obligation, hlock.lock_self, hlock.getVoting_eq,
    getVoting_setVoting_self, Voting.lockedBalance_rejig]
  have hblock : s''.currentBlock vtoken = s'.currentBlock vtoken := by
    rw [honly.currentBlock, hbefore.currentBlock]
  rw [hblock, Voting.obligation_rejig]

/-! Votes and their removal. -/

theorem tryVote_onlyAt {vote : AccountVote} {balance : ℕ} {old : Option (AccountVote × ℕ)}
    {total : AccountVote} (h : s.tryVote who vtoken poll vote balance = .ok (s', old, total)) :
    OnlyAt vtoken who s s' := by
  obtain ⟨status, c, t₀, t₁, -, -, -, -, -, -, hlock⟩ := tryVote_ok h
  have hinfo : OnlyAt vtoken who s
      (s.setInfo vtoken poll (some (.ongoing { status with tally := t₁ }))) :=
    ⟨fun _ _ _ _ => rfl, fun _ _ _ => rfl, rfl, rfl⟩
  exact hinfo.trans ((OnlyAt.setVoting _ vtoken who _).trans hlock.onlyAt)

theorem Removed.onlyAt {c : Casting} {record : VoteRecord} {scope : UnvoteScope}
    (h : Removed s who vtoken poll c record scope s') : OnlyAt vtoken who s s' := by
  cases h with
  | ongoing status tally hinfo hscope htally =>
    have hset : OnlyAt vtoken who s
        (s.setInfo vtoken poll (some (.ongoing { status with tally := tally }))) :=
      ⟨fun _ _ _ _ => rfl, fun _ _ _ => rfl, rfl, rfl⟩
    exact hset.trans (OnlyAt.setVoting _ vtoken who _)
  | ended statuses prior hinfo =>
    have hset : OnlyAt vtoken who s { s with referendumVoteStatus := statuses } :=
      ⟨fun _ _ _ _ => rfl, fun _ _ _ => rfl, rfl, rfl⟩
    exact hset.trans (OnlyAt.setVoting _ vtoken who _)

theorem tryRemoveVote_onlyAt {maybePoll : Option ℕ} {scope : UnvoteScope}
    (h : s.tryRemoveVote who vtoken maybePoll scope = .ok s') : OnlyAt vtoken who s s' := by
  rcases tryRemoveVote_ok h with rfl | ⟨poll, c, record, -, -, -, hremoved⟩
  · exact OnlyAt.refl s'
  · exact hremoved.onlyAt

theorem rollbackVote_onlyAt {old : OldVote} (h : State.rollbackVote who vtoken s old = .ok s') :
    OnlyAt vtoken who s s' := by
  simp only [State.rollbackVote, bind_eq_ok] at h
  obtain ⟨s₁, hremove, h⟩ := h
  have hinfo (s₂ : State cfg) : OnlyAt vtoken who s₂ (s₂.setInfo vtoken old.poll old.info) :=
    ⟨fun _ _ _ _ => rfl, fun _ _ _ => rfl, rfl, rfl⟩
  refine (tryRemoveVote_onlyAt hremove).trans ?_
  split at h
  · simp only [bind_eq_ok, pure_eq_ok] at h
    obtain ⟨⟨s₂, _⟩, hvote, rfl⟩ := h
    exact (tryVote_onlyAt hvote).trans (hinfo s₂)
  · rw [pure_eq_ok] at h
    subst s'
    exact hinfo s₁

theorem covered_handleVoteResult (hs : s.Covered) {success : Bool} {olds : List OldVote}
    (h : s.handleVoteResult success who vtoken olds = .ok s') : s'.Covered := by
  cases success with
  | true =>
    have hquiet := handleSuccess_quiet h
    intro v x
    rw [State.obligation, hquiet.getVoting, hquiet.currentBlock, hquiet.convictionLock]
    exact hs v x
  | false =>
    simp only [State.handleVoteResult, Bool.false_eq_true, if_false, bind_eq_ok] at h
    obtain ⟨s₁, hrollback, hupdate⟩ := h
    have hclear : OnlyAt vtoken who s (s.clearPendingDelegatorVotes vtoken) :=
      ⟨fun _ _ _ _ => rfl, fun _ _ _ => rfl, rfl, rfl⟩
    refine covered_updateLock hs (hclear.trans ?_) hupdate
    exact foldlM_rel OnlyAt.refl OnlyAt.trans (fun _ _ _ h => rollbackVote_onlyAt h) hrollback

/-! When a call keeps the locks. -/

/-- The lock a vote sets covers the prior lock: the largest of the new balance and the balances of
the votes on other polls is enough. -/
def VoteStands (s : State cfg) (who : AccountId) (vtoken : CurrencyId) (poll : ℕ)
    (vote : AccountVote) : Prop :=
  ∀ c, s.getVoting vtoken who = .casting c →
    c.prior.due (s.currentBlock vtoken) ≤ max vote.balance ((c.drop poll).maxBalance 0)

/-- The balance that is delegated covers the prior lock. -/
def DelegationStands (s : State cfg) (who : AccountId) (vtoken : CurrencyId) (balance : ℕ) : Prop :=
  (s.getVoting vtoken who).prior.due (s.currentBlock vtoken) ≤ balance

/-- The end of a delegation revives no prior lock that is over and larger than the lock. -/
def UndelegationStands (s : State cfg) (who : AccountId) (vtoken : CurrencyId) : Prop :=
  ∀ d period, s.getVoting vtoken who = .delegating d → s.voteLockingPeriod vtoken = some period →
    d.prior.untilBlock ≤ s.currentBlock vtoken →
    s.currentBlock vtoken < U32.saturatingAdd s.localBlock
      (U32.saturatingMul period d.conviction.lockPeriods) →
    d.prior.amount ≤ s.convictionLock vtoken who

def LockStands (s : State cfg) : Call cfg → Prop
  | .vote origin vtoken poll vote => ∀ who, origin = .signed who → VoteStands s who vtoken poll vote
  | .delegateVote _ vtoken poll vote => VoteStands s cfg.palletAccount vtoken poll vote
  | .delegate origin vtoken _ _ balance => ∀ who, origin = .signed who →
      DelegationStands s who vtoken balance
  | .undelegate origin vtoken => ∀ who, origin = .signed who → UndelegationStands s who vtoken
  | _ => True

theorem covered_commonVote_iff {vote : AccountVote} (hs : s.Covered)
    (h : s.commonVote who vtoken poll vote = .ok s') :
    s'.Covered ↔ VoteStands s who vtoken poll vote := by
  obtain ⟨tokenVote, s₁, submitted, s₂, old, total, -, -, hopen, hvote, hdo⟩ := commonVote_ok h
  have hquiet := doVote_quiet hdo
  have hs₁ : OnlyAt vtoken who s s₁ ∧ s₁.getVoting vtoken who = s.getVoting vtoken who := by
    rcases openReferendum_ok hopen with ⟨-, -, rfl⟩ | ⟨status, -, -, rfl⟩
    · exact ⟨⟨fun _ _ _ _ => rfl, fun _ _ _ => rfl, rfl, rfl⟩, rfl⟩
    · exact ⟨OnlyAt.refl s₁, rfl⟩
  have honly := hs₁.1.trans ((tryVote_onlyAt hvote).trans hquiet.onlyAt)
  obtain ⟨status, c, t₀, t₁, -, -, hc, -, -, -, hlock⟩ := tryVote_ok hvote
  rw [covered_iff hs honly, State.obligation, hquiet.getVoting, hquiet.convictionLock,
    hlock.getVoting_eq, getVoting_setVoting_self, hlock.lock_self, Voting.obligation,
    Casting.maxBalance_eq, max_le_iff, and_iff_left le_rfl, honly.currentBlock,
    Casting.maxBalance_put]
  rw [hs₁.2] at hc
  rw [VoteStands, hc]
  simp only [Voting.casting.injEq, forall_eq']
  rfl

theorem covered_tryDelegate_iff {target : AccountId} {conviction : Conviction} {balance : ℕ}
    (hs : s.Covered) (h : s.tryDelegate who target vtoken conviction balance = .ok s') :
    s'.Covered ↔ DelegationStands s who vtoken balance := by
  obtain ⟨c, n, s₁, hne, hc, hvotes, -, hrecasts, hlock⟩ := tryDelegate_ok h
  have hquiet := hrecasts.quiet
  have hshifted : OnlyAt vtoken who s (s.shifted .increase target vtoken (conviction.votes n)) :=
    ⟨fun _ _ _ _ => rfl, fun _ _ _ => rfl, rfl, rfl⟩
  have htarget : OnlyAt vtoken who s₁ (s₁.setVoting vtoken target
      ((s.getVoting vtoken target).shift .increase (conviction.votes n))) := by
    refine ⟨fun v x _ now => ?_, fun _ _ _ => rfl, rfl, rfl⟩
    rw [getVoting_setVoting]
    split
    · rename_i hvx
      rw [hvx.1, hvx.2, hquiet.getVoting, Voting.obligation_shift]
      rfl
    · rfl
  have honly := hshifted.trans (hquiet.onlyAt.trans (htarget.trans
    ((OnlyAt.setVoting _ vtoken who _).trans hlock.onlyAt)))
  rw [covered_iff hs honly, State.obligation, hlock.getVoting_eq, getVoting_setVoting_self,
    hlock.lock_self, Voting.obligation, max_le_iff, and_iff_right le_rfl, honly.currentBlock,
    DelegationStands, hc]
  rfl

theorem covered_tryUndelegate_iff (hs : s.Covered) (h : s.tryUndelegate who vtoken = .ok s') :
    s'.Covered ↔ UndelegationStands s who vtoken := by
  obtain ⟨d, n, s₁, period, hd, -, hrecasts, hperiod, rfl⟩ := tryUndelegate_ok h
  have hquiet := hrecasts.quiet
  have hshifted : OnlyAt vtoken who s (s.shifted .reduce d.target vtoken (d.conviction.votes n)) :=
    ⟨fun _ _ _ _ => rfl, fun _ _ _ => rfl, rfl, rfl⟩
  have htarget : OnlyAt vtoken who s₁ (s₁.setVoting vtoken d.target
      ((s.getVoting vtoken d.target).shift .reduce (d.conviction.votes n))) := by
    refine ⟨fun v x _ now => ?_, fun _ _ _ => rfl, rfl, rfl⟩
    rw [getVoting_setVoting]
    split
    · rename_i hvx
      rw [hvx.1, hvx.2, hquiet.getVoting, Voting.obligation_shift]
      rfl
    · rfl
  have honly := hshifted.trans (hquiet.onlyAt.trans (htarget.trans
    (OnlyAt.setVoting _ vtoken who (.casting ⟨∅, d.delegations, d.prior.accumulate
      (U32.saturatingAdd s.localBlock (U32.saturatingMul period d.conviction.lockPeriods))
        d.balance⟩))))
  have hlock : s₁.convictionLock vtoken who = s.convictionLock vtoken who :=
    hquiet.convictionLock vtoken who
  rw [covered_iff hs honly, State.obligation, getVoting_setVoting_self, honly.currentBlock,
    Voting.obligation, Casting.maxBalance_eq]
  have hnone : (⟨∅, d.delegations, d.prior.accumulate (U32.saturatingAdd s.localBlock
      (U32.saturatingMul period d.conviction.lockPeriods)) d.balance⟩ : Casting).maxBalance 0 = 0 :=
    rfl
  have hperiod' : s.voteLockingPeriod vtoken = some period := by
    rw [← hperiod, hquiet.voteLockingPeriod]
    rfl
  have hcovered : max d.balance (d.prior.due (s.currentBlock vtoken)) ≤
      s.convictionLock vtoken who := by
    have hwho := hs vtoken who
    rw [State.obligation, hd] at hwho
    exact hwho
  obtain ⟨hbalance, hprior⟩ := max_le_iff.mp hcovered
  have hiff : (d.prior.accumulate (U32.saturatingAdd s.localBlock (U32.saturatingMul period
      d.conviction.lockPeriods)) d.balance).due (s.currentBlock vtoken) ≤ _ ↔ _ :=
    PriorLock.due_accumulate_le hprior hbalance
  rw [hnone, Nat.max_zero, UndelegationStands]
  constructor
  · intro hle d' period' hd' hperiod₂
    rw [hd] at hd'
    cases hd'
    rw [hperiod'] at hperiod₂
    cases hperiod₂
    exact hiff.mp (hle.trans hlock.le)
  · intro hall
    exact (hiff.mpr (hall d period hd hperiod')).trans hlock.ge

theorem covered_unlock (hs : s.Covered) {maybePoll : Option ℕ}
    (h : s.unlock who vtoken maybePoll = .ok s') : s'.Covered := by
  obtain ⟨s₁, s₂, hends, hremove, hupdate⟩ := unlock_ok h
  have hs₁ : OnlyAt vtoken who s s₁ := by
    obtain ⟨infos, timeouts, statuses, rfl⟩ := hends.eq
    exact ⟨fun _ _ _ _ => rfl, fun _ _ _ => rfl, rfl, rfl⟩
  exact covered_updateLock hs (hs₁.trans (tryRemoveVote_onlyAt hremove)) hupdate

/-! Calls. -/

theorem Aside.covered (h : Aside s s') (hs : s.Covered) : s'.Covered := by
  intro v x
  have hblock : s.currentBlock v ≤ s'.currentBlock v := by
    unfold State.currentBlock
    split
    · exact h.localBlock
    · exact h.relayBlock
  rw [State.obligation, h.getVoting, h.locks]
  exact ((s.getVoting v x).obligation_anti hblock).trans (hs v x)

theorem covered_notifyVote {queryId : ℕ} {success : Bool} (hs : s.Covered)
    (h : s.notifyVote queryId success = .ok s') : s'.Covered := by
  unfold State.notifyVote at h
  split at h
  · simp only [bind_eq_ok, pure_eq_ok] at h
    obtain ⟨s₁, hresult, rfl⟩ := h
    have hs₁ : s₁.Covered := covered_handleVoteResult hs hresult
    exact hs₁
  · rw [pure_eq_ok] at h
    subst s'
    exact hs

theorem covered_step_iff {call : Call cfg} (hs : s.Covered) (h : step s call = .ok s') :
    s'.Covered ↔ LockStands s call := by
  have haside (hcall : call.Aside) : s'.Covered ↔ True :=
    iff_true_intro ((step_aside hcall h).covered hs)
  cases call with
  | vote origin vtoken poll vote =>
    simp only [step, bind_eq_ok] at h
    obtain ⟨who, hwho, h⟩ := h
    rw [covered_commonVote_iff hs h, ensureSigned_ok hwho]
    simp only [LockStands, Origin.signed.injEq, forall_eq']
  | delegateVote origin vtoken poll vote =>
    simp only [step, bind_eq_ok] at h
    obtain ⟨-, -, h⟩ := h
    exact covered_commonVote_iff hs h
  | unlock origin vtoken maybePoll =>
    simp only [step, bind_eq_ok] at h
    obtain ⟨who, -, h⟩ := h
    exact iff_true_intro (covered_unlock hs h)
  | notifyVote origin queryId success =>
    simp only [step, bind_eq_ok] at h
    obtain ⟨-, -, h⟩ := h
    exact iff_true_intro (covered_notifyVote hs h)
  | delegate origin vtoken target conviction balance =>
    simp only [step, bind_eq_ok] at h
    obtain ⟨who, hwho, -, -, h⟩ := h
    rw [covered_tryDelegate_iff hs h, ensureSigned_ok hwho]
    simp only [LockStands, Origin.signed.injEq, forall_eq']
  | undelegate origin vtoken =>
    simp only [step, bind_eq_ok] at h
    obtain ⟨who, hwho, -, -, h⟩ := h
    rw [covered_tryUndelegate_iff hs h, ensureSigned_ok hwho]
    simp only [LockStands, Origin.signed.injEq, forall_eq']
  | setReferendumStatus origin vtoken poll info =>
    simp only [step, bind_eq_ok] at h
    obtain ⟨-, -, h⟩ := h
    obtain ⟨-, -, -, rfl⟩ := setReferendumStatus_ok h
    exact iff_true_intro hs
  | _ => exact haside trivial

section Runs

variable (cfg) (delegators : CurrencyId → List ℕ) (undecidingTimeout : CurrencyId → Option ℕ)
  (voteCapRatio : CurrencyId → Perbill) (ledger : cfg.currencies.Ledger) (outside : cfg.Outside)
  (xcm : cfg.Xcm)

theorem genesis_covered :
    (genesis cfg delegators undecidingTimeout voteCapRatio ledger outside xcm).Covered := by
  intro v x
  refine le_of_eq_of_le ?_ (Nat.zero_le _)
  show Voting.default.obligation _ = 0
  simp only [Voting.default, Voting.obligation, PriorLock.due, PriorLock.zero]
  split <;> rfl

/-- Locks cover the obligations of every account throughout a run exactly if no vote and no
delegation sets a lock below a prior lock that is not over, and no end of a delegation revives a
prior lock above the lock. -/
theorem locks_cover_obligations_iff (calls : List (Call cfg)) :
    let s₀ := genesis cfg delegators undecidingTimeout voteCapRatio ledger outside xcm
    Always step State.Covered s₀ calls ↔ Meets step LockStands s₀ calls := by
  intro s₀
  have hstep (s : State cfg) (call : Call cfg) (s' : State cfg) (_ : True) (_ : True)
      (hp : s.Covered) (h : step s call = .ok s') :
      (s'.Covered ↔ LockStands s call) ∧ (s'.Covered → True) :=
    ⟨covered_step_iff hp h, fun _ => trivial⟩
  exact always_iff_meets (I := fun _ => True) hstep (fun _ _ => trivial) trivial
    (genesis_covered cfg delegators undecidingTimeout voteCapRatio ledger outside xcm)

end Runs

namespace Sample

/-- Account 1 delegates a hundred to account 2 and ends it. -/
def endedDelegation : List (Call config) :=
  [.setVoteLockingPeriod .control vdot 10, .delegate (.signed 1) vdot 2 .locked1x 100,
    .undelegate (.signed 1) vdot]

end Sample

/-- What it has delegated is to stay locked for ten blocks; a vote over one vToken unlocks it. -/
theorem prior_lock_lost :
    let s₀ := run step Sample.start Sample.endedDelegation
    let s₁ := run step s₀ [.vote (.signed 1) vdot 0 (Sample.aye .locked1x 1)]
    s₀.convictionLock vdot 1 = 100 ∧ s₁.obligation vdot 1 = 100 ∧ s₁.convictionLock vdot 1 = 1 ∧
      ¬Always step State.Covered Sample.start
        (Sample.endedDelegation ++ [.vote (.signed 1) vdot 0 (Sample.aye .locked1x 1)]) := by
  refine ⟨rfl, rfl, rfl, fun h => ?_⟩
  have hcovered := h.run vdot 1
  have hobligation : (run step Sample.start (Sample.endedDelegation ++
    [.vote (.signed 1) vdot 0 (Sample.aye .locked1x 1)])).obligation vdot 1 = 100 := rfl
  have hlock : (run step Sample.start (Sample.endedDelegation ++
    [.vote (.signed 1) vdot 0 (Sample.aye .locked1x 1)])).convictionLock vdot 1 = 1 := rfl
  rw [hobligation, hlock] at hcovered
  omega

end Bifrost.VtokenVoting
