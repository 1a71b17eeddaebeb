import Bifrost.VtokenVoting.Calls

/-!
# What the functions of the vtoken-voting pallet do

One lemma for each function. Sending or dispatching votes is `Quiet`: accounts, locks and tallies
stay as they are, only the time a referendum was submitted at may change.
-/

namespace Bifrost.VtokenVoting

open Result Machine
set_option autoImplicit false

variable {AccountId : Type} [DecidableEq AccountId] {cfg : Config AccountId} {s s' s'' : State cfg}
  {vtoken : CurrencyId} {who : AccountId} {poll : ℕ} {olds : List OldVote} {scope : UnvoteScope}
  {submitted : Bool}

/-! Storage. -/

theorem getVoting_setVoting (s : State cfg) (vtoken v : CurrencyId) (who x : AccountId)
    (voting : Voting AccountId) :
    (s.setVoting vtoken who voting).getVoting v x =
      if v = vtoken ∧ x = who then voting else s.getVoting v x := by
  unfold State.getVoting State.setVoting
  by_cases hv : v = vtoken
  · subst v
    simp only [Function.update_self, Table.get_write, true_and]
    split <;> rfl
  · simp [hv]

@[simp] theorem getVoting_setVoting_self (s : State cfg) (vtoken : CurrencyId) (who : AccountId)
    (voting : Voting AccountId) : (s.setVoting vtoken who voting).getVoting vtoken who = voting := by
  simp [getVoting_setVoting]

theorem info_setInfo (s : State cfg) (vtoken v : CurrencyId) (poll p : ℕ)
    (info : Option ReferendumInfo) :
    (s.setInfo vtoken poll info).referendumInfoFor v p =
      if v = vtoken ∧ p = poll then info else s.referendumInfoFor v p := by
  unfold State.setInfo
  by_cases hv : v = vtoken
  · subst v
    by_cases hp : p = poll
    · simp [hp]
    · simp [hp]
  · simp [hv]

@[simp] theorem info_setInfo_self (s : State cfg) (vtoken : CurrencyId) (poll : ℕ)
    (info : Option ReferendumInfo) :
    (s.setInfo vtoken poll info).referendumInfoFor vtoken poll = info := by
  simp [info_setInfo]

theorem ensureOngoing_ok {status : ReferendumStatus}
    (h : s.ensureReferendumOngoing vtoken poll = .ok status) :
    s.referendumInfoFor vtoken poll = some (.ongoing status) := by
  unfold State.ensureReferendumOngoing at h
  split at h
  · rename_i status' heq
    rw [pure_eq_ok] at h
    rw [heq, h]
  · cases h

/-! Time. -/

/-- The block the locks of a vToken count in: the local one for vBNC, the relay chain's for the
others. -/
def State.currentBlock (s : State cfg) (vtoken : CurrencyId) : ℕ :=
  if vtoken = vbnc then s.localBlock else s.relayBlock

theorem getAgentBlockNumber_ok {now : ℕ} (h : s.getAgentBlockNumber vtoken = .ok now) :
    now = s.currentBlock vtoken := by
  simp only [State.getAgentBlockNumber, bind_eq_ok, pure_eq_ok] at h
  obtain ⟨agent, hagent, rfl⟩ := h
  unfold getVotingAgent at hagent
  split at hagent
  · rename_i hrelay
    have hne : vtoken ≠ vbnc := by
      rintro rfl
      rcases hrelay with h | h <;> cases h
    cases hagent
    rw [State.currentBlock, if_neg hne]
    rfl
  · split at hagent
    · rename_i hbnc
      cases hagent
      rw [State.currentBlock, if_pos hbnc.1]
      rfl
    · cases hagent

/-! Locks. -/

/-- The lock of `who` has been set to `n`, and nothing but locks has changed. -/
def LocksTo (s : State cfg) (vtoken : CurrencyId) (who : AccountId) (n : ℕ)
    (s' : State cfg) : Prop :=
  ∃ ledger locks, s' = { s with ledger := ledger, classLocksFor := locks } ∧ ∀ v x,
    cfg.currencies.lock ledger .convictionVotingId v x =
      if v = vtoken ∧ x = who then n else s.convictionLock v x

theorem lay_ok {n : ℕ} (h : s.lay who vtoken n = .ok s') : LocksTo s vtoken who n s' := by
  simp only [State.lay, bind_eq_ok, mapErr_eq_ok, pure_eq_ok] at h
  obtain ⟨ledger, hledger, rfl⟩ := h
  refine ⟨ledger, s.classLocksFor, rfl, fun v x => ?_⟩
  split at hledger
  · rename_i hzero
    rw [cfg.currencies.removeLock_lock hledger, hzero]
    simp only [true_and]
    rfl
  · rename_i hzero
    rw [cfg.currencies.setLock_lock hledger hzero]
    simp only [true_and]
    rfl

theorem LocksTo.ofClass {s₁ : State cfg} {n : ℕ} {locks : AccountId → List (CurrencyId × ℕ)}
    (hs₁ : s₁ = { s with classLocksFor := locks }) (h : LocksTo s₁ vtoken who n s') :
    LocksTo s vtoken who n s' := by
  obtain ⟨ledger, locks', rfl, hlock⟩ := h
  subst hs₁
  exact ⟨ledger, locks', rfl, hlock⟩

theorem setLock_ok {n : ℕ} (h : s.setLock who vtoken n = .ok s') : LocksTo s vtoken who n s' :=
  LocksTo.ofClass rfl (lay_ok h)

theorem updateLock_ok (h : s.updateLock who vtoken = .ok s') :
    LocksTo (s.setVoting vtoken who ((s.getVoting vtoken who).rejig (s.currentBlock vtoken))) vtoken
      who ((s.getVoting vtoken who).rejig (s.currentBlock vtoken)).lockedBalance s' := by
  simp only [State.updateLock, bind_eq_ok] at h
  obtain ⟨now, hnow, h⟩ := h
  rw [getAgentBlockNumber_ok hnow] at h
  split at h
  · exact LocksTo.ofClass rfl (lay_ok h)
  · exact LocksTo.ofClass rfl (lay_ok h)

/-! Quiet functions. -/

/-- A referendum without the time it was submitted at. -/
def ReferendumInfo.untimed : ReferendumInfo → ReferendumInfo
  | .ongoing status => .ongoing { status with submitted := 0 }
  | info => info

structure Quiet (s s' : State cfg) : Prop where
  votingFor : s'.votingFor = s.votingFor
  ledger : s'.ledger = s.ledger
  localBlock : s'.localBlock = s.localBlock
  relayBlock : s'.relayBlock = s.relayBlock
  voteLockingPeriod : s'.voteLockingPeriod = s.voteLockingPeriod
  infos : ∀ vtoken poll, (s'.referendumInfoFor vtoken poll).map ReferendumInfo.untimed =
    (s.referendumInfoFor vtoken poll).map ReferendumInfo.untimed

theorem Quiet.refl (s : State cfg) : Quiet s s := ⟨rfl, rfl, rfl, rfl, rfl, fun _ _ => rfl⟩

theorem Quiet.trans (h : Quiet s s') (h' : Quiet s' s'') : Quiet s s'' where
  votingFor := h'.votingFor.trans h.votingFor
  ledger := h'.ledger.trans h.ledger
  localBlock := h'.localBlock.trans h.localBlock
  relayBlock := h'.relayBlock.trans h.relayBlock
  voteLockingPeriod := h'.voteLockingPeriod.trans h.voteLockingPeriod
  infos v p := (h'.infos v p).trans (h.infos v p)

theorem Quiet.getVoting (h : Quiet s s') (v : CurrencyId) (x : AccountId) :
    s'.getVoting v x = s.getVoting v x := by
  rw [State.getVoting, h.votingFor]
  rfl

theorem Quiet.convictionLock (h : Quiet s s') (v : CurrencyId) (x : AccountId) :
    s'.convictionLock v x = s.convictionLock v x := by
  rw [State.convictionLock, h.ledger]
  rfl

theorem Quiet.currentBlock (h : Quiet s s') (v : CurrencyId) :
    s'.currentBlock v = s.currentBlock v := by
  rw [State.currentBlock, h.localBlock, h.relayBlock]
  rfl

theorem restart_quiet (h : s.restart vtoken poll = .ok s') : Quiet s s' := by
  unfold State.restart at h
  split at h
  · rename_i status heq
    simp only [bind_eq_ok, pure_eq_ok] at h
    obtain ⟨current, -, timeout, -, -, -, rfl⟩ := h
    refine ⟨rfl, rfl, rfl, rfl, rfl, fun v p => ?_⟩
    rw [info_setInfo]
    split
    · rename_i hvp
      rw [hvp.1, hvp.2, heq]
      rfl
    · rfl
  · rw [pure_eq_ok] at h
    exact h ▸ Quiet.refl s

theorem confirmVote_quiet {old : OldVote} (h : State.confirmVote vtoken s old = .ok s') :
    Quiet s s' := by
  simp only [State.confirmVote, bind_eq_ok] at h
  obtain ⟨-, -, h⟩ := h
  have hrestart := restart_quiet h
  exact ⟨hrestart.votingFor, hrestart.ledger, hrestart.localBlock, hrestart.relayBlock,
    hrestart.voteLockingPeriod, hrestart.infos⟩

theorem handleSuccess_quiet (h : s.handleVoteResult true who vtoken olds = .ok s') : Quiet s s' :=
  foldlM_rel Quiet.refl Quiet.trans (fun _ _ _ h => confirmVote_quiet h) h

theorem recordVotes_quiet {all all' : SortedMap ℕ VoteItemList} {ctx : VoteCtx}
    (h : State.recordVotes vtoken (s, all) ctx = .ok (s', all')) : Quiet s s' := by
  simp only [State.recordVotes, bind_eq_ok, pure_eq_ok, Prod.mk.injEq] at h
  obtain ⟨_, -, _, -, -, -, rfl, -⟩ := h
  exact ⟨rfl, rfl, rfl, rfl, rfl, fun _ _ => rfl⟩

theorem recordAll_quiet {ctx : List VoteCtx} {all all' : SortedMap ℕ VoteItemList}
    (h : ctx.foldlM (State.recordVotes vtoken) (s, all) = .ok (s', all')) : Quiet s s' :=
  foldlM_rel (R := fun a b : State cfg × SortedMap ℕ VoteItemList => Quiet a.1 b.1)
    (fun a => Quiet.refl a.1) Quiet.trans (fun _ _ _ h => recordVotes_quiet h) h

theorem sendXcm_ok {call : RemoteCall} {weightAndFee : ℕ × ℕ}
    {f : State cfg → ℕ → Except Fault (State cfg)}
    (h : s.sendXcmWithNotify vtoken call weightAndFee f = .ok s') :
    ∃ queryId xcm s₁ outside timeout, cfg.newNotifyQuery s.xcm vtoken timeout = (queryId, xcm) ∧
      f { s with xcm := xcm } queryId = .ok s₁ ∧
      s' = { s₁ with
        outside := outside
        sent := s₁.sent ++ [⟨queryId, call, weightAndFee.1, weightAndFee.2⟩] } := by
  simp only [State.sendXcmWithNotify, bind_eq_ok, pure_eq_ok] at h
  obtain ⟨s₁, hs₁, outside, -, rfl⟩ := h
  exact ⟨_, _, s₁, outside, _, rfl, hs₁, rfl⟩

theorem awaitVote_ok {polls : List ℕ} {queryId : ℕ}
    (h : State.awaitVote who vtoken submitted polls olds s queryId = .ok s') :
    s.pendingVotingInfo.get queryId = none ∧ ∃ info, s' = { s with
      pendingReferendumInfo := info
      pendingVotingInfo := s.pendingVotingInfo.write queryId (some ⟨vtoken, who, olds⟩) } := by
  simp only [State.awaitVote, bind_eq_ok, ensure_eq_ok, pure_eq_ok, exists_const] at h
  obtain ⟨-, hnone, rfl⟩ := h
  exact ⟨hnone, _, rfl⟩

theorem sendVote_ok {votes : SortedMap ℕ VoteItemList}
    (h : s.sendXcmVoteMessage who vtoken submitted votes olds = .ok s') :
    ∃ queryId xcm timeout outside info weight fee,
      cfg.newNotifyQuery s.xcm vtoken timeout = (queryId, xcm) ∧
      s.pendingVotingInfo.get queryId = none ∧
      s' = { s with
        xcm := xcm
        pendingReferendumInfo := info
        pendingVotingInfo := s.pendingVotingInfo.write queryId (some ⟨vtoken, who, olds⟩)
        outside := outside
        sent := s.sent ++ [⟨queryId, .vote votes, weight, fee⟩] } := by
  simp only [State.sendXcmVoteMessage, State.voteCallEncode, bind_eq_ok, pure_eq_ok] at h
  obtain ⟨token, -, weightAndFee, -, -, -, call, ⟨-, -, rfl⟩, h⟩ := h
  obtain ⟨queryId, xcm, s₁, outside, timeout, hquery, hawait, rfl⟩ := sendXcm_ok h
  obtain ⟨hnone, info, rfl⟩ := awaitVote_ok hawait
  exact ⟨queryId, xcm, timeout, outside, info, _, _, hquery, hnone, rfl⟩

theorem sendVote_quiet {votes : SortedMap ℕ VoteItemList}
    (h : s.sendXcmVoteMessage who vtoken submitted votes olds = .ok s') : Quiet s s' := by
  obtain ⟨_, _, _, _, _, _, _, -, -, rfl⟩ := sendVote_ok h
  exact ⟨rfl, rfl, rfl, rfl, rfl, fun _ _ => rfl⟩

theorem dispatchVote_ok {votes : SortedMap ℕ VoteItemList}
    (h : s.dispatchVote who vtoken votes olds = .ok s') :
    ∃ outside, State.handleVoteResult { s with outside := outside } true who vtoken olds =
      .ok s' := by
  simp only [State.dispatchVote, bind_eq_ok] at h
  obtain ⟨-, -, h⟩ := h
  split at h
  · exact ⟨_, h⟩
  · simp at h

theorem dispatchVote_quiet {votes : SortedMap ℕ VoteItemList}
    (h : s.dispatchVote who vtoken votes olds = .ok s') : Quiet s s' := by
  obtain ⟨outside, h⟩ := dispatchVote_ok h
  have hsuccess := handleSuccess_quiet h
  exact ⟨hsuccess.votingFor, hsuccess.ledger, hsuccess.localBlock, hsuccess.relayBlock,
    hsuccess.voteLockingPeriod, hsuccess.infos⟩

theorem doVote_quiet {ctx : List VoteCtx}
    (h : s.doVote who vtoken submitted ctx = .ok s') : Quiet s s' := by
  simp only [State.doVote, bind_eq_ok] at h
  obtain ⟨-, -, ⟨s₁, votes⟩, hrecord, -, -, agent, -, hdelegate⟩ := h
  refine Quiet.trans (recordAll_quiet hrecord) ?_
  cases agent with
  | relaychain => exact sendVote_quiet hdelegate
  | bifrost => exact dispatchVote_quiet hdelegate

theorem doVoteIfAny_quiet {ctx : List VoteCtx} (h : s.doVoteIfAny who vtoken ctx = .ok s') :
    Quiet s s' := by
  unfold State.doVoteIfAny at h
  split at h
  · rw [pure_eq_ok] at h
    exact h ▸ Quiet.refl s
  · exact doVote_quiet h

/-! Votes. -/

theorem takeBack_ok {c : Casting} {tally t : Tally} {old : Option (AccountVote × ℕ)}
    (h : s.takeBack vtoken poll c tally = .ok (t, old)) :
    (c.votes.get poll = none ∧ t = tally ∧ old = none) ∨
      ∃ record n, c.votes.get poll = some record ∧
        tally.discount record.vote c.delegations = some t ∧
        s.computeTokenBalance vtoken record.vtokenBalance = .ok n ∧
        old = some (record.vote, n) := by
  unfold State.takeBack at h
  split at h
  · rename_i record heq
    simp only [bind_eq_ok, okOr_eq_ok, pure_eq_ok, Prod.mk.injEq] at h
    obtain ⟨t', ht, n, hn, rfl, rfl⟩ := h
    exact Or.inr ⟨record, n, heq, ht, hn, rfl⟩
  · rename_i heq
    simp only [bind_eq_ok, pure_eq_ok, Prod.mk.injEq] at h
    obtain ⟨-, -, rfl, rfl⟩ := h
    exact Or.inl ⟨heq, rfl, rfl⟩

/-- The casting of an account with a vote on the poll. -/
def Casting.put (c : Casting) (poll : ℕ) (record : VoteRecord) : Casting :=
  { c with votes := c.votes.insert poll record }

def Casting.drop (c : Casting) (poll : ℕ) : Casting := { c with votes := c.votes.erase poll }

theorem tryVote_ok {vote : AccountVote} {balance : ℕ} {old : Option (AccountVote × ℕ)}
    {total : AccountVote} (h : s.tryVote who vtoken poll vote balance = .ok (s', old, total)) :
    ∃ status c t₀ t₁, balance ≤ cfg.totalBalance s.ledger vtoken who ∧
      s.referendumInfoFor vtoken poll = some (.ongoing status) ∧
      s.getVoting vtoken who = .casting c ∧
      s.takeBack vtoken poll c status.tally = .ok (t₀, old) ∧
      t₀.count vote c.delegations = some t₁ ∧ total = t₁.accountVote .locked1x ∧
      LocksTo ((s.setInfo vtoken poll (some (.ongoing { status with tally := t₁ }))).setVoting vtoken
        who (.casting (c.put poll ⟨vote, balance⟩))) vtoken who
          ((c.put poll ⟨vote, balance⟩).maxBalance 0) s' := by
  simp only [State.tryVote, bind_eq_ok, ensure_eq_ok, exists_const] at h
  obtain ⟨hbalance, status, hstatus, h⟩ := h
  split at h
  · rename_i c hc
    simp only [bind_eq_ok, okOr_eq_ok, pure_eq_ok, Prod.mk.injEq] at h
    obtain ⟨⟨t₀, old'⟩, htake, t₁, hcount, s₁, hlock, rfl, rfl, rfl⟩ := h
    exact ⟨status, c, t₀, t₁, hbalance, ensureOngoing_ok hstatus, hc, htake, hcount, rfl,
      setLock_ok hlock⟩
  · cases h

/-- What is left once the vote of `c` on the poll is removed. -/
inductive Removed (s : State cfg) (who : AccountId) (vtoken : CurrencyId) (poll : ℕ) (c : Casting)
    (record : VoteRecord) (scope : UnvoteScope) : State cfg → Prop where
  | ongoing (status : ReferendumStatus) (tally : Tally)
      (hinfo : s.referendumInfoFor vtoken poll = some (.ongoing status)) (hscope : scope = .any)
      (htally : status.tally.discount record.vote c.delegations = some tally) :
      Removed s who vtoken poll c record scope
        ((s.setInfo vtoken poll (some (.ongoing { status with tally := tally }))).setVoting vtoken
          who (.casting (c.drop poll)))
  | ended (statuses : CurrencyId → ℕ → ReferendumVoteStatus) (prior : PriorLock)
      (hinfo : ∀ status, s.referendumInfoFor vtoken poll ≠ some (.ongoing status)) :
      Removed s who vtoken poll c record scope
        (State.setVoting { s with referendumVoteStatus := statuses } vtoken who
          (.casting { c.drop poll with prior := prior }))

theorem ensureEarlyUnlock_eq (s : State cfg) (vtoken : CurrencyId) (poll : ℕ) (vote : AccountVote) :
    ∃ statuses, (s.ensureEarlyUnlock vtoken poll vote).2 =
      { s with referendumVoteStatus := statuses } := by
  unfold State.ensureEarlyUnlock
  have hstatuses : ∃ statuses, (if vtoken = vbnc then
      ((s.nativeReferendumVoteStatus poll).1,
        if (s.nativeReferendumVoteStatus poll).1.isOver then
          s.setVoteStatus vbnc poll (s.nativeReferendumVoteStatus poll).1 else s)
      else (s.referendumVoteStatus vtoken poll, s)).2 =
        { s with referendumVoteStatus := statuses } := by
    split
    · split
      · exact ⟨_, rfl⟩
      · exact ⟨s.referendumVoteStatus, rfl⟩
    · exact ⟨s.referendumVoteStatus, rfl⟩
  obtain ⟨statuses, h⟩ := hstatuses
  refine ⟨statuses, ?_⟩
  dsimp only
  split
  all_goals exact h

theorem removeCast_ok {c : Casting} {record : VoteRecord}
    (h : s.removeCast who vtoken poll c record scope = .ok s') :
    Removed s who vtoken poll c record scope s' := by
  unfold State.removeCast at h
  split at h
  · rename_i status hinfo
    simp only [bind_eq_ok, ensure_eq_ok, okOr_eq_ok, pure_eq_ok, exists_const] at h
    obtain ⟨hscope, tally, htally, rfl⟩ := h
    exact .ongoing status tally hinfo hscope htally
  · rename_i ended hinfo
    have hended (status : ReferendumStatus) :
        s.referendumInfoFor vtoken poll ≠ some (.ongoing status) := by
      simp [hinfo]
    obtain ⟨statuses, heq⟩ := ensureEarlyUnlock_eq s vtoken poll record.vote
    dsimp only at h
    rw [heq] at h
    split at h
    · rw [pure_eq_ok] at h
      subst s'
      exact .ended statuses c.prior hended
    · simp only [bind_eq_ok, pure_eq_ok] at h
      obtain ⟨prior, -, rfl⟩ := h
      exact .ended statuses prior hended
  · rename_i hongoing hcompleted
    rw [pure_eq_ok] at h
    subst s'
    exact .ended s.referendumVoteStatus c.prior hongoing

theorem tryRemoveVote_ok {maybePoll : Option ℕ}
    (h : s.tryRemoveVote who vtoken maybePoll scope = .ok s') :
    s' = s ∨ ∃ poll c record, maybePoll = some poll ∧ s.getVoting vtoken who = .casting c ∧
      c.votes.get poll = some record ∧ Removed s who vtoken poll c record scope s' := by
  unfold State.tryRemoveVote at h
  split at h
  · simp only [bind_eq_ok, pure_eq_ok] at h
    obtain ⟨-, -, rfl⟩ := h
    exact Or.inl rfl
  · rename_i c poll hc
    simp only [bind_eq_ok, okOr_eq_ok] at h
    obtain ⟨record, hrecord, h⟩ := h
    exact Or.inr ⟨poll, c, record, rfl, hc, hrecord, removeCast_ok h⟩
  · rw [pure_eq_ok] at h
    exact Or.inl h.symm

theorem tryRemoveVote_some (h : s.tryRemoveVote who vtoken (some poll) scope = .ok s') :
    ((∃ d, s.getVoting vtoken who = .delegating d) ∧ s' = s) ∨
      ∃ c record, s.getVoting vtoken who = .casting c ∧ c.votes.get poll = some record ∧
        Removed s who vtoken poll c record scope s' := by
  cases hvoting : s.getVoting vtoken who with
  | delegating d =>
    simp only [State.tryRemoveVote, hvoting, pure_eq_ok] at h
    exact Or.inl ⟨⟨d, rfl⟩, h.symm⟩
  | casting c =>
    simp only [State.tryRemoveVote, hvoting, bind_eq_ok, okOr_eq_ok] at h
    obtain ⟨record, hrecord, h⟩ := h
    exact Or.inr ⟨c, record, rfl, hrecord, removeCast_ok h⟩

/-- The votes of an account; one that delegates has none. -/
def Voting.votes : Voting AccountId → SortedMap ℕ VoteRecord
  | casting c => c.votes
  | delegating _ => ∅

def Voting.delegations : Voting AccountId → Delegations
  | casting c => c.delegations
  | delegating d => d.delegations

/-! What waits stays. -/

/-- Accounts, locks and referenda may have changed, nothing that waits or has been sent. -/
def Locally (s s' : State cfg) : Prop :=
  ∃ infos votings classLocks ledger statuses timeouts, s' = { s with
    referendumInfoFor := infos
    votingFor := votings
    classLocksFor := classLocks
    ledger := ledger
    referendumVoteStatus := statuses
    referendumTimeout := timeouts }

theorem Locally.refl (s : State cfg) : Locally s s := ⟨_, _, _, _, _, _, rfl⟩

theorem Locally.trans (h : Locally s s') (h' : Locally s' s'') : Locally s s'' := by
  obtain ⟨_, _, _, _, _, _, rfl⟩ := h
  obtain ⟨_, _, _, _, _, _, rfl⟩ := h'
  exact ⟨_, _, _, _, _, _, rfl⟩

theorem LocksTo.locally {n : ℕ} (h : LocksTo s vtoken who n s') : Locally s s' := by
  obtain ⟨ledger, locks, rfl, -⟩ := h
  exact ⟨_, _, _, _, _, _, rfl⟩

theorem tryVote_locally {vote : AccountVote} {balance : ℕ} {old : Option (AccountVote × ℕ)}
    {total : AccountVote} (h : s.tryVote who vtoken poll vote balance = .ok (s', old, total)) :
    Locally s s' := by
  obtain ⟨status, c, t₀, t₁, -, -, -, -, -, -, ledger, locks, rfl, -⟩ := tryVote_ok h
  exact ⟨_, _, _, _, _, _, rfl⟩

theorem Removed.locally {c : Casting} {record : VoteRecord}
    (h : Removed s who vtoken poll c record scope s') : Locally s s' := by
  cases h <;> exact ⟨_, _, _, _, _, _, rfl⟩

theorem tryRemoveVote_locally {maybePoll : Option ℕ}
    (h : s.tryRemoveVote who vtoken maybePoll scope = .ok s') : Locally s s' := by
  rcases tryRemoveVote_ok h with rfl | ⟨poll, c, record, -, -, -, hremoved⟩
  · exact Locally.refl s'
  · exact hremoved.locally

theorem updateLock_locally (h : s.updateLock who vtoken = .ok s') : Locally s s' := by
  obtain ⟨ledger, locks, rfl, -⟩ := updateLock_ok h
  exact ⟨_, _, _, _, _, _, rfl⟩

/-! Votes that are undone. -/

/-- A failed vote on one poll has been undone: the referendum and the vote are those that were
replaced, and the other polls and accounts are as they were. -/
structure RolledBack (s : State cfg) (who : AccountId) (vtoken : CurrencyId) (old : OldVote)
    (s' : State cfg) : Prop where
  infos : ∀ v p, s'.referendumInfoFor v p =
    if v = vtoken ∧ p = old.poll then old.info else s.referendumInfoFor v p
  records : ∀ v x p, (s'.getVoting v x).votes.get p =
    if (v = vtoken ∧ x = who) ∧ p = old.poll then old.vote.map fun e => ⟨e.1, e.2⟩
    else (s.getVoting v x).votes.get p
  casting : ∀ c, s.getVoting vtoken who = .casting c →
    ∃ c', s'.getVoting vtoken who = .casting c' ∧ c'.delegations = c.delegations
  voted : old.vote ≠ none → (s.getVoting vtoken who).votes.get old.poll ≠ none
  locally : Locally s s'

theorem Removed.frame {c : Casting} {record : VoteRecord}
    (h : Removed s who vtoken poll c record scope s') :
    (∀ v p, ¬(v = vtoken ∧ p = poll) → s'.referendumInfoFor v p = s.referendumInfoFor v p) ∧
      ∃ prior, ∀ v x, s'.getVoting v x = if v = vtoken ∧ x = who then
        .casting { c.drop poll with prior := prior } else s.getVoting v x := by
  cases h with
  | ongoing status tally hinfo hscope htally =>
    refine ⟨fun v p hne => (info_setInfo ..).trans (if_neg hne), c.prior, fun v x => ?_⟩
    exact getVoting_setVoting ..
  | ended statuses prior hinfo =>
    refine ⟨fun _ _ _ => rfl, prior, fun v x => ?_⟩
    exact getVoting_setVoting ..

theorem rollbackVote_ok {old : OldVote} (h : State.rollbackVote who vtoken s old = .ok s') :
    RolledBack s who vtoken old s' := by
  simp only [State.rollbackVote, bind_eq_ok] at h
  obtain ⟨s₁, hremove, h⟩ := h
  have hlocal := tryRemoveVote_locally hremove
  have hset (s₂ : State cfg) : Locally s₂ (s₂.setInfo vtoken old.poll old.info) :=
    ⟨_, _, _, _, _, _, rfl⟩
  rcases tryRemoveVote_some hremove with ⟨⟨d, hd⟩, rfl⟩ | ⟨c, record, hc, hrecord, hremoved⟩
  · cases hvote : old.vote with
    | none =>
      rw [hvote, pure_eq_ok] at h
      subst s'
      refine ⟨fun v p => info_setInfo .., fun v x p => ?_, fun c hc => ?_, fun h => ?_, hset s₁⟩
      · split
        · rename_i hvxp
          obtain ⟨⟨rfl, rfl⟩, rfl⟩ := hvxp
          have hsame : (s₁.setInfo v old.poll old.info).getVoting v x = .delegating d := hd
          rw [hsame, hvote]
          rfl
        · rfl
      · rw [hd] at hc
        cases hc
      · exact absurd hvote h
    | some vote =>
      rw [hvote] at h
      simp only [bind_eq_ok, pure_eq_ok] at h
      obtain ⟨⟨s₂, result⟩, hvoted, -⟩ := h
      obtain ⟨status, c, t₀, t₁, -, -, hc, -⟩ := tryVote_ok hvoted
      rw [hd] at hc
      cases hc
  · obtain ⟨hinfos, prior, hvotings⟩ := hremoved.frame
    have hc₁ : s₁.getVoting vtoken who = .casting { c.drop old.poll with prior := prior } := by
      rw [hvotings, if_pos ⟨rfl, rfl⟩]
    have hdrop (p : ℕ) : (c.drop old.poll).votes.get p =
        if p = old.poll then none else c.votes.get p := by
      rw [Casting.drop, SortedMap.get_erase]
    have hvoted : (s.getVoting vtoken who).votes.get old.poll ≠ none := by
      rw [hc]
      simp only [Voting.votes, hrecord, ne_eq, reduceCtorEq, not_false_eq_true]
    cases hvote : old.vote with
    | none =>
      rw [hvote, pure_eq_ok] at h
      subst s'
      refine ⟨fun v p => ?_, fun v x p => ?_, fun c' hc' => ?_, fun _ => hvoted,
        hlocal.trans (hset s₁)⟩
      · rw [info_setInfo]
        split
        · rfl
        · rename_i hne
          exact hinfos v p hne
      · have hsame : (s₁.setInfo vtoken old.poll old.info).getVoting v x = s₁.getVoting v x := rfl
        rw [hsame, hvotings]
        by_cases hvx : v = vtoken ∧ x = who
        · obtain ⟨rfl, rfl⟩ := hvx
          rw [if_pos ⟨rfl, rfl⟩, hvote, hc]
          simp only [Voting.votes, hdrop, true_and, and_self, Option.map_none]
        · rw [if_neg hvx, if_neg fun h => hvx h.1]
      · rw [hc] at hc'
        cases hc'
        exact ⟨_, hc₁, rfl⟩
    | some vote =>
      rw [hvote] at h
      simp only [bind_eq_ok, pure_eq_ok] at h
      obtain ⟨⟨s₂, result⟩, hvoted', rfl⟩ := h
      obtain ⟨status, c', t₀, t₁, -, -, hc', -, -, -, ledger, locks, rfl, -⟩ := tryVote_ok hvoted'
      rw [hc₁] at hc'
      cases hc'
      refine ⟨fun v p => ?_, fun v x p => ?_, fun c' hc' => ?_, fun _ => hvoted,
        hlocal.trans ((tryVote_locally hvoted').trans (hset _))⟩
      · rw [info_setInfo]
        split
        · rfl
        · rename_i hne
          exact (info_setInfo ..).trans ((if_neg hne).trans (hinfos v p hne))
      · refine (congrArg (fun voting => Voting.votes voting |>.get p)
          (getVoting_setVoting _ vtoken v who x _)).trans ?_
        by_cases hvx : v = vtoken ∧ x = who
        · obtain ⟨rfl, rfl⟩ := hvx
          rw [if_pos ⟨rfl, rfl⟩, hvote, hc]
          simp only [Voting.votes, Casting.put, SortedMap.get_insert, hdrop, true_and, and_self,
            Option.map_some]
          split <;> rfl
        · rw [if_neg hvx, if_neg fun h => hvx h.1]
          have hsame := hvotings v x
          rw [if_neg hvx] at hsame
          rw [← hsame]
          rfl
      · rw [hc] at hc'
        cases hc'
        exact ⟨_, getVoting_setVoting_self .., rfl⟩

/-! Delegations. -/

def Voting.shift (direction : Direction) (amount : Delegations) : Voting AccountId → Voting AccountId
  | casting c => casting { c with delegations := c.delegations.shift direction amount }
  | delegating d => delegating { d with delegations := d.delegations.shift direction amount }

/-- What a change of the delegations of an account makes of a referendum it has voted on. -/
def shiftInfo (direction : Direction) (amount : Delegations) (record : Option VoteRecord)
    (info : Option ReferendumInfo) : Option ReferendumInfo :=
  match record, info with
  | some ⟨.standard vote _, _⟩, some (.ongoing status) =>
    some (.ongoing { status with tally := status.tally.shift direction vote.aye amount })
  | _, _ => info

@[simp] theorem shiftInfo_none (direction : Direction) (amount : Delegations)
    (info : Option ReferendumInfo) : shiftInfo direction amount none info = info := rfl

variable {direction : Direction} {amount : Delegations}

/-- What a change of delegations asks to vote anew: the standard vote `e` on an ongoing referendum,
with the vote and the referendum as they were. -/
structure Revotes (s : State cfg) (vtoken : CurrencyId) (e : ℕ × VoteRecord) (x : VoteCtx) :
    Prop where
  poll : x.poll = e.1
  standard : e.2.vote.asStandard ≠ none
  old : ∃ n, s.computeTokenBalance vtoken e.2.vtokenBalance = .ok n ∧
    x.oldVote = some (e.2.vote, n)
  info : ∃ status, s.referendumInfoFor vtoken e.1 = some (.ongoing status) ∧
    x.oldReferendumInfo = some (.ongoing status)

theorem shiftPoll_ok {ctx ctx' : List VoteCtx} {e : ℕ × VoteRecord}
    (h : State.shiftPoll direction vtoken amount (s, ctx) e = .ok (s', ctx')) :
    s' = s.setInfo vtoken e.1
        (shiftInfo direction amount (some e.2) (s.referendumInfoFor vtoken e.1)) ∧
      (ctx' = ctx ∨ ∃ x, Revotes s vtoken e x ∧ ctx' = ctx ++ [x]) := by
  obtain ⟨poll, vote, balance⟩ := e
  have hsame (h : (pure (s, ctx) : Except Fault _) = .ok (s', ctx')) :
      s' = s.setInfo vtoken poll (s.referendumInfoFor vtoken poll) ∧ ctx' = ctx := by
    simp only [pure_eq_ok, Prod.mk.injEq] at h
    obtain ⟨rfl, rfl⟩ := h
    simp [State.setInfo]
  unfold State.shiftPoll at h
  cases vote with
  | standard vote n =>
    cases hinfo : s.referendumInfoFor vtoken poll with
    | none =>
      simp only [hinfo] at h hsame
      exact (hsame h).imp_right Or.inl
    | some info =>
      cases info with
      | ongoing status =>
        simp only [hinfo, bind_eq_ok, mapErr_eq_ok, pure_eq_ok, Prod.mk.injEq] at h
        obtain ⟨tokenBalance, hbalance, rfl, rfl⟩ := h
        exact ⟨rfl, Or.inr ⟨_, ⟨rfl, Option.some_ne_none _, ⟨tokenBalance, hbalance, rfl⟩, status,
          hinfo, rfl⟩, rfl⟩⟩
      | completed moment =>
        simp only [hinfo] at h hsame
        exact (hsame h).imp_right Or.inl
      | killed moment =>
        simp only [hinfo] at h hsame
        exact (hsame h).imp_right Or.inl
  | split aye nay => exact (hsame h).imp_right Or.inl
  | splitAbstain aye nay abstain => exact (hsame h).imp_right Or.inl

theorem shiftPolls_ok {es : List (ℕ × VoteRecord)} (hes : es.Pairwise fun a b => a.1 < b.1)
    {ctx ctx' : List VoteCtx}
    (h : es.foldlM (State.shiftPoll direction vtoken amount) (s, ctx) = .ok (s', ctx')) :
    ∃ infos, s' = { s with referendumInfoFor := infos } ∧ (∀ v p, infos v p =
        if v = vtoken then
          shiftInfo direction amount (SortedMap.lookup p es) (s.referendumInfoFor vtoken p)
        else s.referendumInfoFor v p) ∧
      ∃ ctx₁, ctx' = ctx ++ ctx₁ ∧ (ctx₁.map VoteCtx.poll).Sublist (es.map Prod.fst) ∧
        ∀ x ∈ ctx₁, ∃ e ∈ es, Revotes s vtoken e x := by
  induction es generalizing s ctx with
  | nil =>
    simp only [List.foldlM_nil, pure_eq_ok, Prod.mk.injEq] at h
    obtain ⟨rfl, rfl⟩ := h
    refine ⟨s.referendumInfoFor, rfl, fun v p => ?_, [], (List.append_nil ctx).symm,
      List.Sublist.slnil, List.forall_mem_nil _⟩
    split
    · rename_i hv
      rw [hv]
      rfl
    · rfl
  | cons e es ih =>
    obtain ⟨hhead, htail⟩ := List.pairwise_cons.mp hes
    simp only [List.foldlM_cons, bind_eq_ok] at h
    obtain ⟨⟨s₁, ctx₁⟩, hstep, hrest⟩ := h
    obtain ⟨rfl, hctx₁⟩ := shiftPoll_ok hstep
    obtain ⟨infos, rfl, hinfos, ctx₂, rfl, hsub, hrevotes⟩ := ih htail hrest
    -- the votes that follow are on other polls
    have hlater (x : VoteCtx) (hx : x ∈ ctx₂) : ∃ d ∈ e :: es, Revotes s vtoken d x := by
      obtain ⟨d, hd, hpoll, hstandard, hold, status, hinfo, hx⟩ := hrevotes x hx
      have hne : d.1 ≠ e.1 := (hhead d hd).ne'
      rw [info_setInfo, if_neg fun h => hne h.2] at hinfo
      exact ⟨d, List.mem_cons_of_mem e hd, hpoll, hstandard, hold, status, hinfo, hx⟩
    refine ⟨infos, rfl, fun v p => ?_, ?_⟩
    · rw [hinfos]
      split
      · rename_i hv
        have habsent : SortedMap.lookup e.1 es = none := by
          cases hlookup : SortedMap.lookup e.1 es with
          | none => rfl
          | some record =>
            have hmem := (SortedMap.lookup_eq_some htail).mp hlookup
            exact absurd (hhead _ hmem) (lt_irrefl _)
        rw [info_setInfo, SortedMap.lookup]
        by_cases hp : p = e.1
        · subst p
          rw [if_pos ⟨rfl, rfl⟩, if_pos rfl, habsent]
          rfl
        · rw [if_neg fun h => hp h.2, if_neg fun h => hp h.symm]
      · rename_i hv
        rw [info_setInfo, if_neg fun h => hv h.1]
    · rcases hctx₁ with rfl | ⟨x, hx, rfl⟩
      · exact ⟨ctx₂, rfl, hsub.cons _, hlater⟩
      · refine ⟨x :: ctx₂, List.append_assoc _ _ _, ?_, ?_⟩
        · rw [List.map_cons, List.map_cons, hx.poll]
          exact hsub.cons_cons _
        · exact List.forall_mem_cons.mpr ⟨⟨e, List.mem_cons_self, hx⟩, hlater⟩

/-- The referenda of `s` once the delegations of `who` have changed. -/
def State.shifted (s : State cfg) (direction : Direction) (who : AccountId) (vtoken : CurrencyId)
    (amount : Delegations) : State cfg :=
  let votes := (s.getVoting vtoken who).votes
  let infos := fun v p =>
    if v = vtoken then shiftInfo direction amount (votes.get p) (s.referendumInfoFor vtoken p)
    else s.referendumInfoFor v p
  { s with referendumInfoFor := infos }

theorem shifted_of_delegating {d : Delegating AccountId}
    (hd : s.getVoting vtoken who = .delegating d) : s.shifted direction who vtoken amount = s := by
  have hinfos : (s.shifted direction who vtoken amount).referendumInfoFor =
      s.referendumInfoFor := by
    funext v p
    simp only [State.shifted, hd]
    split
    · rename_i hv
      rw [hv]
      rfl
    · rfl
  have heta : s.shifted direction who vtoken amount = { s with
      referendumInfoFor := (s.shifted direction who vtoken amount).referendumInfoFor } := rfl
  rw [heta, hinfos]

/-- The votes of `who` that take delegations along are cast anew, with the referenda as they are
once the delegations have changed. -/
def Recasts (s : State cfg) (direction : Direction) (who : AccountId) (vtoken : CurrencyId)
    (amount : Delegations) (s' : State cfg) : Prop :=
  ∃ ctx, (ctx.map VoteCtx.poll).Nodup ∧
    (∀ x ∈ ctx, ∃ e ∈ (s.getVoting vtoken who).votes.entries, Revotes s vtoken e x) ∧
    State.doVoteIfAny (s.shifted direction who vtoken amount) who vtoken ctx = .ok s'

theorem Recasts.quiet (h : Recasts s direction who vtoken amount s') :
    Quiet (s.shifted direction who vtoken amount) s' := by
  obtain ⟨ctx, -, -, hvote⟩ := h
  exact doVoteIfAny_quiet hvote

theorem shiftUpstream_ok (h : s.shiftUpstreamDelegation direction who vtoken amount = .ok s') :
    ∃ s₁, Recasts s direction who vtoken amount s₁ ∧
      s' = s₁.setVoting vtoken who ((s.getVoting vtoken who).shift direction amount) := by
  unfold State.shiftUpstreamDelegation at h
  split at h
  · rename_i d hd
    rw [pure_eq_ok] at h
    subst s'
    refine ⟨s, ⟨[], List.nodup_nil, nofun, ?_⟩, ?_⟩
    · rw [shifted_of_delegating hd]
      rfl
    · rw [hd]
      rfl
  · rename_i c hc
    simp only [bind_eq_ok, pure_eq_ok] at h
    obtain ⟨-, -, ⟨s₁, ctx⟩, hpolls, s₂, hvote, rfl⟩ := h
    obtain ⟨infos, rfl, hinfos, ctx₁, hctx, hsub, hrevotes⟩ := shiftPolls_ok c.votes.sorted hpolls
    rw [List.nil_append] at hctx
    subst ctx₁
    refine ⟨s₂, ⟨ctx, ?_, ?_, ?_⟩, by rw [hc]; rfl⟩
    · have hsorted := List.pairwise_map.mpr c.votes.sorted
      exact hsub.nodup (hsorted.imp fun h => h.ne)
    · rw [hc]
      exact hrevotes
    · have hfun : (s.shifted direction who vtoken amount).referendumInfoFor = infos := by
        funext v p
        rw [hinfos]
        simp only [State.shifted, hc]
        rfl
      have heq : s.shifted direction who vtoken amount = { s with referendumInfoFor := infos } := by
        rw [← hfun]
        rfl
      rw [heq]
      exact hvote

theorem tryDelegate_ok {target : AccountId} {conviction : Conviction} {balance : ℕ}
    (h : s.tryDelegate who target vtoken conviction balance = .ok s') :
    ∃ c n s₁, who ≠ target ∧ s.getVoting vtoken who = .casting c ∧ c.votes.entries = [] ∧
      s.computeTokenBalance vtoken balance = .ok n ∧
      Recasts s .increase target vtoken (conviction.votes n) s₁ ∧
      LocksTo ((s₁.setVoting vtoken target
        ((s.getVoting vtoken target).shift .increase (conviction.votes n))).setVoting vtoken who
          (.delegating ⟨balance, target, conviction, c.delegations, c.prior⟩)) vtoken who balance
            s' := by
  simp only [State.tryDelegate, bind_eq_ok, ensure_eq_ok, exists_const] at h
  obtain ⟨hne, -, n, hn, h⟩ := h
  split at h
  · cases h
  · rename_i c hc
    simp only [bind_eq_ok, ensure_eq_ok, exists_const] at h
    obtain ⟨hvotes, s₁, hshift, hlock⟩ := h
    obtain ⟨s₂, hrecasts, rfl⟩ := shiftUpstream_ok hshift
    exact ⟨c, n, s₂, hne, hc, hvotes, hn, hrecasts, setLock_ok hlock⟩

theorem tryUndelegate_ok (h : s.tryUndelegate who vtoken = .ok s') :
    ∃ d n s₁ period, s.getVoting vtoken who = .delegating d ∧
      s.computeTokenBalance vtoken d.balance = .ok n ∧
      Recasts s .reduce d.target vtoken (d.conviction.votes n) s₁ ∧
      s₁.voteLockingPeriod vtoken = some period ∧
      s' = (s₁.setVoting vtoken d.target
        ((s.getVoting vtoken d.target).shift .reduce (d.conviction.votes n))).setVoting vtoken who
          (.casting ⟨∅, d.delegations, d.prior.accumulate (U32.saturatingAdd s.localBlock
            (U32.saturatingMul period d.conviction.lockPeriods)) d.balance⟩) := by
  unfold State.tryUndelegate at h
  split at h
  · rename_i d hd
    simp only [bind_eq_ok, okOr_eq_ok, pure_eq_ok] at h
    obtain ⟨n, hn, s₁, hshift, period, hperiod, rfl⟩ := h
    obtain ⟨s₂, hrecasts, rfl⟩ := shiftUpstream_ok hshift
    refine ⟨d, n, s₂, period, hd, hn, hrecasts, hperiod, ?_⟩
    have hlocal : s₂.localBlock = s.localBlock := hrecasts.quiet.localBlock
    have hlocal' : (s₂.setVoting vtoken d.target
        ((s.getVoting vtoken d.target).shift .reduce (d.conviction.votes n))).localBlock =
          s.localBlock := hlocal
    rw [hlocal']
    rfl
  · cases h

/-! Casting a vote. -/

theorem openReferendum_ok {current : ℕ}
    (h : s.openReferendum vtoken poll current = .ok (s', submitted)) :
    (s.referendumInfoFor vtoken poll = none ∧ submitted = false ∧
        s' = s.setInfo vtoken poll (some (.ongoing ⟨current, .zero⟩))) ∨
      ∃ status, s.referendumInfoFor vtoken poll = some (.ongoing status) ∧ submitted = true ∧
        s' = s := by
  unfold State.openReferendum at h
  split at h
  · rename_i hinfo
    simp only [pure_eq_ok, Prod.mk.injEq] at h
    exact Or.inl ⟨hinfo, h.2.symm, h.1.symm⟩
  · simp only [bind_eq_ok, pure_eq_ok, Prod.mk.injEq] at h
    obtain ⟨status, hstatus, rfl, rfl⟩ := h
    exact Or.inr ⟨status, ensureOngoing_ok hstatus, rfl, rfl⟩

theorem commonVote_ok {vote : AccountVote} (h : s.commonVote who vtoken poll vote = .ok s') :
    ∃ tokenVote s₁ submitted s₂ old total, (∀ e ∈ s.pendingVotingInfo.entries,
        ¬(e.2.vtoken = vtoken ∧ ∃ old ∈ e.2.oldVotes, old.poll = poll)) ∧
      s.computeTokenVote vtoken vote = .ok tokenVote ∧
      s.openReferendum vtoken poll (s.currentBlock vtoken) = .ok (s₁, submitted) ∧
      s₁.tryVote who vtoken poll tokenVote vote.balance = .ok (s₂, old, total) ∧
      s₂.doVote who vtoken submitted [⟨poll, total, old, s.referendumInfoFor vtoken poll⟩] =
        .ok s' := by
  simp only [State.commonVote, State.ensureNoPendingVote, bind_eq_ok, ensure_eq_ok,
    exists_const] at h
  obtain ⟨-, -, -, hpending, tokenVote, htoken, current, hcurrent, ⟨s₁, submitted⟩, hopen,
    ⟨s₂, old, total⟩, hvote, hdo⟩ := h
  rw [getAgentBlockNumber_ok hcurrent] at hopen
  exact ⟨tokenVote, s₁, submitted, s₂, old, total, hpending, htoken, hopen, hvote, hdo⟩

/-! Referenda that end. -/

/-- Referenda have ended, and the records of timeouts and outcomes have changed. -/
structure Ends (s s' : State cfg) : Prop where
  eq : ∃ infos timeouts statuses, s' = { s with
    referendumInfoFor := infos
    referendumTimeout := timeouts
    referendumVoteStatus := statuses }
  infos : ∀ v p, s'.referendumInfoFor v p = s.referendumInfoFor v p ∨
    ∃ status moment, s.referendumInfoFor v p = some (.ongoing status) ∧
      s'.referendumInfoFor v p = some (.completed moment)

theorem Ends.refl (s : State cfg) : Ends s s := ⟨⟨_, _, _, rfl⟩, fun _ _ => Or.inl rfl⟩

theorem Ends.trans (h : Ends s s') (h' : Ends s' s'') : Ends s s'' where
  eq := by
    obtain ⟨_, _, _, rfl⟩ := h.eq
    obtain ⟨_, _, _, rfl⟩ := h'.eq
    exact ⟨_, _, _, rfl⟩
  infos v p := by
    rcases h'.infos v p with heq | ⟨status, moment, hongoing, hcompleted⟩
    · rw [heq]
      exact h.infos v p
    · rcases h.infos v p with heq | ⟨status', moment', -, hcompleted'⟩
      · rw [heq] at hongoing
        exact Or.inr ⟨status, moment, hongoing, hcompleted⟩
      · rw [hcompleted'] at hongoing
        cases hongoing

theorem overReferendumInfoFor_ends (s : State cfg) (vtoken : CurrencyId) (poll current : ℕ) :
    Ends s (s.overReferendumInfoFor vtoken poll current) := by
  unfold State.overReferendumInfoFor
  split
  · rename_i status hinfo
    refine ⟨⟨_, _, _, rfl⟩, fun v p => ?_⟩
    rw [info_setInfo]
    split
    · rename_i hvp
      rw [hvp.1, hvp.2]
      exact Or.inr ⟨status, current, hinfo, rfl⟩
    · exact Or.inl rfl
  · exact Ends.refl s

theorem autoSync_ends (s : State cfg) (poll : ℕ) (due : Option ℕ) :
    Ends s (s.autoSyncNativeReferendumState poll due) := by
  unfold State.autoSyncNativeReferendumState
  split
  · exact Ends.refl s
  · dsimp only
    split
    · have hover := overReferendumInfoFor_ends s vbnc poll
        ((s.nativeReferendumVoteStatus poll).2.getD s.localBlock)
      cases due with
      | none => exact hover.trans ⟨⟨_, _, _, rfl⟩, fun _ _ => Or.inl rfl⟩
      | some due => exact hover.trans ⟨⟨_, _, _, rfl⟩, fun _ _ => Or.inl rfl⟩
    · exact Ends.refl s

theorem foldl_ends {α : Type} {f : State cfg → α → State cfg} (h : ∀ s a, Ends s (f s a))
    (as : List α) (s : State cfg) : Ends s (as.foldl f s) := by
  induction as generalizing s with
  | nil => exact Ends.refl s
  | cons a as ih => exact (h s a).trans (ih (f s a))

theorem handleTimeout_ends (s : State cfg) (key : CurrencyId × ℕ) :
    Ends s (s.handleTimeout key) := by
  unfold State.handleTimeout
  dsimp only
  split
  · exact foldl_ends (fun s poll => autoSync_ends s poll (some key.2)) _ s
  · split
    · have hover := foldl_ends
        (fun (s : State cfg) poll => overReferendumInfoFor_ends s key.1 poll s.relayBlock)
        (s.referendumTimeout key.1 key.2) s
      exact hover.trans ⟨⟨_, _, _, rfl⟩, fun _ _ => Or.inl rfl⟩
    · exact Ends.refl s

theorem onIdle_ends (s : State cfg) (keys : List (CurrencyId × ℕ)) : Ends s (s.onIdle keys) := by
  unfold State.onIdle
  split
  · exact Ends.refl s
  · exact foldl_ends handleTimeout_ends keys s

/-! Calls. -/

theorem unlock_ok {maybePoll : Option ℕ} (h : s.unlock who vtoken maybePoll = .ok s') :
    ∃ s₁ s₂, Ends s s₁ ∧ s₁.tryRemoveVote who vtoken maybePoll .onlyExpired = .ok s₂ ∧
      s₂.updateLock who vtoken = .ok s' := by
  simp only [State.unlock, bind_eq_ok] at h
  obtain ⟨-, -, s₁, hready, s₂, hremove, hupdate⟩ := h
  refine ⟨s₁, s₂, ?_, hremove, hupdate⟩
  cases maybePoll with
  | none =>
    rw [Option.elim_none, pure_eq_ok] at hready
    exact hready ▸ Ends.refl s
  | some poll =>
    have hsync : Ends s
        (if vtoken = vbnc then s.autoSyncNativeReferendumState poll none else s) := by
      split
      · exact autoSync_ends s poll none
      · exact Ends.refl s
    simp only [Option.elim_some, State.readyToUnlock] at hready
    split at hready
    · simp only [bind_eq_ok, pure_eq_ok] at hready
      obtain ⟨-, -, rfl⟩ := hready
      exact hsync
    · simp only [bind_eq_ok, pure_eq_ok] at hready
      obtain ⟨-, -, rfl⟩ := hready
      exact hsync
    · cases hready

omit [DecidableEq AccountId] in
theorem ensureSigned_ok {origin : Origin AccountId} (h : ensureSigned origin = .ok who) :
    origin = .signed who := by
  cases origin with
  | signed x =>
    cases h
    rfl
  | _ => cases h

theorem setReferendumStatus_ok {info : ReferendumInfo}
    (h : s.setReferendumStatus vtoken poll info = .ok s') :
    ∃ status, s.referendumInfoFor vtoken poll = some (.ongoing status) ∧
      status.submitted ≤ info.moment ∧ s' = s.setInfo vtoken poll (some info) := by
  simp only [State.setReferendumStatus, bind_eq_ok] at h
  obtain ⟨-, -, h⟩ := h
  split at h
  · rename_i status hinfo
    simp only [bind_eq_ok, ensure_eq_ok, pure_eq_ok, exists_const] at h
    exact ⟨status, hinfo, h.1, h.2.symm⟩
  all_goals cases h

/-- The calls that neither vote nor delegate, nor undo it, nor overwrite a referendum. -/
def Call.Aside : Call cfg → Prop
  | .vote .. | .unlock .. | .notifyVote .. | .delegate .. | .undelegate .. | .delegateVote ..
  | .setReferendumStatus .. => False
  | _ => True

/-- Some queries have been opened. -/
inductive Issues (cfg : Config AccountId) (x : cfg.Xcm) : cfg.Xcm → Prop
  | refl : Issues cfg x x
  | next {y : cfg.Xcm} (responder : CurrencyId) (timeout : ℕ) (h : Issues cfg x y) :
    Issues cfg x (cfg.newNotifyQuery y responder timeout).2

theorem Issues.trans {x y z : cfg.Xcm} (h : Issues cfg x y) (h' : Issues cfg y z) :
    Issues cfg x z := by
  induction h' with
  | refl => exact h
  | next responder timeout _ ih => exact .next responder timeout ih

/-- Accounts, locks and what is pending are as they were, at a later time; a referendum that has
changed has ended, and no votes have been sent. -/
structure Aside (s s' : State cfg) : Prop where
  votingFor : s'.votingFor = s.votingFor
  pendingVotingInfo : s'.pendingVotingInfo = s.pendingVotingInfo
  pendingDelegatorVotes : s'.pendingDelegatorVotes = s.pendingDelegatorVotes
  locks : ∀ v x, s'.convictionLock v x = s.convictionLock v x
  localBlock : s.localBlock ≤ s'.localBlock
  relayBlock : s.relayBlock ≤ s'.relayBlock
  infos : ∀ v p, s'.referendumInfoFor v p = s.referendumInfoFor v p ∨
    s.referendumInfoFor v p ≠ none ∧ ∃ moment, s'.referendumInfoFor v p = some (.completed moment) ∨
      s'.referendumInfoFor v p = some (.killed moment)
  xcm : Issues cfg s.xcm s'.xcm
  sent : ∀ m ∈ s'.sent, m ∈ s.sent ∨ ∀ votes, m.call ≠ .vote votes

theorem Aside.getVoting (h : Aside s s') (v : CurrencyId) (x : AccountId) :
    s'.getVoting v x = s.getVoting v x := by
  rw [State.getVoting, h.votingFor]
  rfl

theorem Ends.aside (h : Ends s s') : Aside s s' := by
  have hinfos := h.infos
  obtain ⟨infos, timeouts, statuses, rfl⟩ := h.eq
  refine ⟨rfl, rfl, rfl, fun _ _ => rfl, le_rfl, le_rfl, fun v p => (hinfos v p).imp_right ?_, .refl,
    fun _ => Or.inl⟩
  rintro ⟨status, moment, hongoing, hcompleted⟩
  refine ⟨?_, moment, Or.inl hcompleted⟩
  rw [hongoing]
  nofun

theorem Aside.trans (h : Aside s s') (h' : Aside s' s'') : Aside s s'' where
  votingFor := h'.votingFor.trans h.votingFor
  pendingVotingInfo := h'.pendingVotingInfo.trans h.pendingVotingInfo
  pendingDelegatorVotes := h'.pendingDelegatorVotes.trans h.pendingDelegatorVotes
  locks v x := (h'.locks v x).trans (h.locks v x)
  localBlock := h.localBlock.trans h'.localBlock
  relayBlock := h.relayBlock.trans h'.relayBlock
  infos v p := by
    rcases h'.infos v p with heq | ⟨hsome, hended⟩
    · rw [heq]
      exact h.infos v p
    · rcases h.infos v p with heq | ⟨hsome', -⟩
      · exact Or.inr ⟨heq ▸ hsome, hended⟩
      · exact Or.inr ⟨hsome', hended⟩
  xcm := h.xcm.trans h'.xcm
  sent m hm := by
    rcases h'.sent m hm with hm | hcall
    · exact h.sent m hm
    · exact Or.inr hcall

theorem Aside.of_eq {outside : cfg.Outside} {xcm : cfg.Xcm}
    {removals : ℕ → Option (CurrencyId × ℕ × ℕ)} {periods timeouts : CurrencyId → Option ℕ}
    {delegators : CurrencyId → List ℕ} {ratios : CurrencyId → Perbill}
    {votes : CurrencyId → ℕ → VoteItemList} {statuses : CurrencyId → ℕ → ReferendumVoteStatus}
    (hxcm : Issues cfg s.xcm xcm) {sent : List XcmMessage}
    (hsent : ∀ m ∈ sent, m ∈ s.sent ∨ ∀ votes, m.call ≠ .vote votes) :
    Aside s { s with
      outside := outside
      xcm := xcm
      pendingRemoveDelegatorVote := removals
      voteLockingPeriod := periods
      undecidingTimeout := timeouts
      delegators := delegators
      voteCapRatio := ratios
      delegatorVotes := votes
      referendumVoteStatus := statuses
      sent := sent } :=
  ⟨rfl, rfl, rfl, fun _ _ => rfl, le_rfl, le_rfl, fun _ _ => Or.inl rfl, hxcm, hsent⟩

theorem delegateRemoveDelegatorVote_aside {agent : Agent} {pollClass index : ℕ}
    (h : s.delegateRemoveDelegatorVote agent vtoken poll pollClass index = .ok s') :
    Aside s s' := by
  cases agent with
  | relaychain =>
    simp only [State.delegateRemoveDelegatorVote, bind_eq_ok] at h
    obtain ⟨-, -, weightAndFee, -, h⟩ := h
    obtain ⟨queryId, xcm, s₁, outside, timeout, hquery, hs₁, rfl⟩ := sendXcm_ok h
    rw [pure_eq_ok] at hs₁
    subst s₁
    refine .of_eq ?_ fun m hm => ?_
    · have hxcm : xcm = (cfg.newNotifyQuery s.xcm vtoken timeout).2 := by rw [hquery]
      exact hxcm ▸ .next vtoken timeout .refl
    · rcases List.mem_append.mp hm with hm | hm
      · exact Or.inl hm
      · rw [List.mem_singleton.mp hm]
        exact Or.inr (by simp)
  | bifrost =>
    simp only [State.delegateRemoveDelegatorVote, bind_eq_ok, pure_eq_ok] at h
    obtain ⟨outside, -, rfl⟩ := h
    exact .of_eq .refl fun _ => Or.inl

theorem removeDelegatorVote_aside {pollClass index : ℕ}
    (h : s.removeDelegatorVote vtoken pollClass poll index = .ok s') : Aside s s' := by
  simp only [State.removeDelegatorVote, bind_eq_ok] at h
  obtain ⟨-, -, -, -, -, -, agent, -, h⟩ := h
  have hremove := delegateRemoveDelegatorVote_aside h
  split at hremove
  · exact (autoSync_ends s poll none).aside.trans hremove
  · exact hremove

theorem killReferendum_aside (h : s.killReferendum vtoken poll = .ok s') : Aside s s' := by
  simp only [State.killReferendum, bind_eq_ok] at h
  obtain ⟨-, -, h⟩ := h
  split at h
  · rename_i moment hinfo
    simp only [bind_eq_ok, pure_eq_ok] at h
    obtain ⟨current, -, rfl⟩ := h
    refine ⟨rfl, rfl, rfl, fun _ _ => rfl, le_rfl, le_rfl, fun v p => ?_, .refl, fun _ => Or.inl⟩
    rw [info_setInfo]
    split
    · rename_i hvp
      refine Or.inr ⟨?_, current, Or.inr rfl⟩
      rw [hvp.1, hvp.2, hinfo]
      simp
    · exact Or.inl rfl
  · cases h

theorem updateReferendumVoteStatus_aside {status : ReferendumVoteStatus}
    (h : s.updateReferendumVoteStatus vtoken poll status = .ok s') : Aside s s' := by
  simp only [State.updateReferendumVoteStatus, bind_eq_ok] at h
  obtain ⟨-, -, h⟩ := h
  split at h
  · simp only [bind_eq_ok, pure_eq_ok] at h
    obtain ⟨current, -, rfl⟩ := h
    exact (overReferendumInfoFor_ends s vtoken poll current).aside.trans
      (.of_eq .refl fun _ => Or.inl)
  · rw [pure_eq_ok] at h
    subst s'
    exact .of_eq .refl fun _ => Or.inl

theorem step_aside {call : Call cfg} (hcall : call.Aside) (h : step s call = .ok s') :
    Aside s s' := by
  cases call with
  | removeDelegatorVote origin vtoken pollClass poll index =>
    simp only [step, bind_eq_ok] at h
    obtain ⟨-, -, h⟩ := h
    exact removeDelegatorVote_aside h
  | killReferendum origin vtoken poll =>
    simp only [step, bind_eq_ok] at h
    obtain ⟨-, -, h⟩ := h
    exact killReferendum_aside h
  | addDelegator origin vtoken index =>
    simp only [step, State.addDelegator, bind_eq_ok, pure_eq_ok] at h
    obtain ⟨-, -, -, -, token, -, -, -, -, -, -, -, rfl⟩ := h
    exact .of_eq .refl fun _ => Or.inl
  | setVoteLockingPeriod origin vtoken period =>
    simp only [step, bind_eq_ok, pure_eq_ok] at h
    obtain ⟨-, -, -, -, rfl⟩ := h
    exact .of_eq .refl fun _ => Or.inl
  | setUndecidingTimeout origin vtoken timeout =>
    simp only [step, bind_eq_ok, pure_eq_ok] at h
    obtain ⟨-, -, -, -, rfl⟩ := h
    exact .of_eq .refl fun _ => Or.inl
  | notifyRemoveDelegatorVote origin queryId success =>
    simp only [step, bind_eq_ok, pure_eq_ok] at h
    obtain ⟨-, -, rfl⟩ := h
    unfold State.notifyRemoveDelegatorVote
    split
    · split
      · exact .of_eq .refl fun _ => Or.inl
      · exact .of_eq .refl fun _ => Or.inl
    · exact .of_eq .refl fun _ => Or.inl
  | setVoteCapRatio origin vtoken ratio =>
    simp only [step, bind_eq_ok, pure_eq_ok] at h
    obtain ⟨-, -, -, -, rfl⟩ := h
    exact .of_eq .refl fun _ => Or.inl
  | updateReferendumVoteStatus origin vtoken poll status =>
    simp only [step, bind_eq_ok] at h
    obtain ⟨-, -, h⟩ := h
    exact updateReferendumVoteStatus_aside h
  | onIdle keys =>
    simp only [step, pure_eq_ok] at h
    subst s'
    exact (onIdle_ends s keys).aside
  | world change =>
    simp only [step, pure_eq_ok] at h
    subst s'
    exact ⟨rfl, rfl, rfl, change.keeps_lock s.ledger, Nat.le_add_right _ _, Nat.le_add_right _ _,
      fun _ _ => Or.inl rfl, .refl, fun _ => Or.inl⟩
  | otherQuery responder timeout =>
    simp only [step, pure_eq_ok] at h
    subst s'
    exact .of_eq (.next responder timeout .refl) fun _ => Or.inl
  | _ => exact hcall.elim

end Bifrost.VtokenVoting
