import Bifrost.VtokenVoting.Transitions

/-!
# Votes that wait for a response

The votes of the derivative accounts on a poll wait in `PendingDelegatorVotes`, and what they have
replaced waits under the id of the query. A referendum that is not known has no votes, and a vote
that has opened one is the only vote on it as long as it waits.
-/

namespace Bifrost.VtokenVoting

open Result Machine
set_option autoImplicit false

variable {AccountId : Type} [DecidableEq AccountId] {cfg : Config AccountId} {s s' s'' : State cfg}
  {vtoken : CurrencyId} {who : AccountId} {poll : ℕ} {direction : Direction} {target : AccountId}
  {amount : Delegations} {e : PendingVote AccountId}

/-! Delegator votes. -/

theorem delegatorVotes_setDelegatorVotes (s : State cfg) (vtoken v : CurrencyId) (poll p : ℕ)
    (votes : VoteItemList) : (s.setDelegatorVotes vtoken poll votes).delegatorVotes v p =
      if v = vtoken ∧ p = poll then votes else s.delegatorVotes v p := by
  unfold State.setDelegatorVotes
  by_cases hv : v = vtoken
  · subst v
    by_cases hp : p = poll
    · simp [hp]
    · simp [hp]
  · simp [hv]

theorem pendingDelegatorVotes_set (s : State cfg) (vtoken v : CurrencyId) (poll p : ℕ)
    (votes : VoteItemList) : (s.setPendingDelegatorVotes vtoken poll votes).pendingDelegatorVotes v p =
      if v = vtoken ∧ p = poll then votes else s.pendingDelegatorVotes v p := by
  unfold State.setPendingDelegatorVotes
  by_cases hv : v = vtoken
  · subst v
    by_cases hp : p = poll
    · simp [hp]
    · simp [hp]
  · simp [hv]

/-- The votes on some polls have joined those that wait, and are in the message. -/
structure Recording (s : State cfg) (vtoken : CurrencyId) (polls : List ℕ)
    (votes : ℕ → VoteItemList) (waiting : CurrencyId → ℕ → VoteItemList)
    (all : SortedMap ℕ VoteItemList) : Prop where
  waiting : ∀ v p, waiting v p =
    if v = vtoken ∧ p ∈ polls then s.pendingDelegatorVotes v p ++ votes p
    else s.pendingDelegatorVotes v p
  message : ∀ p, all.get p = if p ∈ polls then some (votes p) else none

theorem recordVotes_ok {all all' : SortedMap ℕ VoteItemList} {x : VoteCtx}
    (h : State.recordVotes vtoken (s, all) x = .ok (s', all')) :
    ∃ votes, s' = s.setPendingDelegatorVotes vtoken x.poll
        (s.pendingDelegatorVotes vtoken x.poll ++ votes) ∧ all' = all.insert x.poll votes := by
  simp only [State.recordVotes, bind_eq_ok, pure_eq_ok, Prod.mk.injEq] at h
  obtain ⟨totalVote, -, votes, -, -, -, rfl, rfl⟩ := h
  exact ⟨votes, rfl, rfl⟩

theorem recordAll_ok {ctx : List VoteCtx} {all all' : SortedMap ℕ VoteItemList}
    (hnodup : (ctx.map VoteCtx.poll).Nodup)
    (h : ctx.foldlM (State.recordVotes vtoken) (s, all) = .ok (s', all')) :
    ∃ (votes : ℕ → VoteItemList) (waiting : CurrencyId → ℕ → VoteItemList),
      s' = { s with pendingDelegatorVotes := waiting } ∧
      (∀ v p, waiting v p = if v = vtoken ∧ p ∈ ctx.map VoteCtx.poll then
        s.pendingDelegatorVotes v p ++ votes p else s.pendingDelegatorVotes v p) ∧
      ∀ p, all'.get p = if p ∈ ctx.map VoteCtx.poll then some (votes p) else all.get p := by
  induction ctx generalizing s all with
  | nil =>
    simp only [List.foldlM_nil, pure_eq_ok, Prod.mk.injEq] at h
    obtain ⟨rfl, rfl⟩ := h
    exact ⟨fun _ => [], s.pendingDelegatorVotes, rfl, fun v p => by simp, fun p => by simp⟩
  | cons x ctx ih =>
    obtain ⟨hhead, htail⟩ := List.nodup_cons.mp hnodup
    simp only [List.foldlM_cons, bind_eq_ok] at h
    obtain ⟨⟨s₁, all₁⟩, hrecord, hrest⟩ := h
    obtain ⟨votes₁, rfl, rfl⟩ := recordVotes_ok hrecord
    obtain ⟨votes, waiting, rfl, hwaiting, hall⟩ := ih htail hrest
    refine ⟨Function.update votes x.poll votes₁, waiting, rfl, fun v p => ?_, fun p => ?_⟩
    · rw [hwaiting, pendingDelegatorVotes_set]
      by_cases hp : p = x.poll
      · subst p
        rw [if_neg fun h => hhead h.2, Function.update_self]
        by_cases hv : v = vtoken
        · simp [hv]
        · simp [hv]
      · rw [if_neg fun h : v = vtoken ∧ p = x.poll => hp h.2, Function.update_of_ne hp]
        simp [hp]
    · rw [hall, SortedMap.get_insert]
      by_cases hp : p = x.poll
      · subst p
        rw [if_neg hhead, if_pos rfl, if_pos (by simp), Function.update_self]
      · rw [if_neg hp, Function.update_of_ne hp]
        simp [hp]

/-! Votes that have arrived. -/

theorem restart_ok (h : s.restart vtoken poll = .ok s') :
    ∃ infos timeouts, s' = { s with referendumInfoFor := infos, referendumTimeout := timeouts } ∧
      ∀ v p, ¬(v = vtoken ∧ p = poll) → infos v p = s.referendumInfoFor v p := by
  unfold State.restart at h
  split at h
  · rename_i status heq
    simp only [bind_eq_ok, pure_eq_ok] at h
    obtain ⟨current, -, timeout, -, -, -, rfl⟩ := h
    exact ⟨_, _, rfl, fun v p hne => (info_setInfo ..).trans (if_neg hne)⟩
  · rw [pure_eq_ok] at h
    subst s'
    exact ⟨_, _, rfl, fun _ _ _ => rfl⟩

/-- The votes that have waited on the polls are those of the derivative accounts now. -/
structure Arrived (s : State cfg) (vtoken : CurrencyId) (polls : List ℕ) (s' : State cfg) :
    Prop where
  eq : ∃ infos timeouts votes waiting, s' = { s with
    referendumInfoFor := infos
    referendumTimeout := timeouts
    delegatorVotes := votes
    pendingDelegatorVotes := waiting }
  infos : ∀ v p, ¬(v = vtoken ∧ p ∈ polls) → s'.referendumInfoFor v p = s.referendumInfoFor v p
  votes : ∀ v p, s'.delegatorVotes v p =
    if v = vtoken ∧ p ∈ polls then s.pendingDelegatorVotes v p else s.delegatorVotes v p
  waiting : ∀ v p, s'.pendingDelegatorVotes v p =
    if v = vtoken ∧ p ∈ polls then [] else s.pendingDelegatorVotes v p

theorem confirmVote_ok {old : OldVote} (h : State.confirmVote vtoken s old = .ok s') :
    Arrived s vtoken [old.poll] s' := by
  simp only [State.confirmVote, bind_eq_ok] at h
  obtain ⟨-, -, h⟩ := h
  obtain ⟨infos, timeouts, rfl, hinfos⟩ := restart_ok h
  refine ⟨⟨_, _, _, _, rfl⟩, fun v p hne => ?_, fun v p => ?_, fun v p => ?_⟩
  · exact hinfos v p (by simpa using hne)
  · refine (delegatorVotes_setDelegatorVotes s vtoken v old.poll p _).trans ?_
    simp only [List.mem_singleton]
    split
    · rename_i hvp
      rw [hvp.1, hvp.2]
    · rfl
  · refine (pendingDelegatorVotes_set _ vtoken v old.poll p []).trans ?_
    simp only [List.mem_singleton]
    rfl

theorem handleSuccess_ok {olds : List OldVote} (hnodup : (olds.map OldVote.poll).Nodup)
    (h : s.handleVoteResult true who vtoken olds = .ok s') :
    Arrived s vtoken (olds.map OldVote.poll) s' := by
  simp only [State.handleVoteResult, if_true] at h
  induction olds generalizing s with
  | nil =>
    rw [List.foldlM_nil, pure_eq_ok] at h
    subst s'
    exact ⟨⟨_, _, _, _, rfl⟩, fun _ _ _ => rfl, fun v p => by simp, fun v p => by simp⟩
  | cons old olds ih =>
    obtain ⟨hhead, htail⟩ := List.nodup_cons.mp hnodup
    simp only [List.foldlM_cons, bind_eq_ok] at h
    obtain ⟨s₁, hconfirm, hrest⟩ := h
    have hfirst := confirmVote_ok hconfirm
    have hrest := ih htail hrest
    refine ⟨?_, fun v p hne => ?_, fun v p => ?_, fun v p => ?_⟩
    · obtain ⟨_, _, _, _, rfl⟩ := hfirst.eq
      obtain ⟨_, _, _, _, rfl⟩ := hrest.eq
      exact ⟨_, _, _, _, rfl⟩
    · rw [List.map_cons, List.mem_cons] at hne
      rw [hrest.infos v p (by tauto), hfirst.infos v p (by rw [List.mem_singleton]; tauto)]
    · rw [hrest.votes, hfirst.votes, hfirst.waiting]
      simp only [List.map_cons, List.mem_cons, List.not_mem_nil, or_false]
      by_cases hp : p = old.poll
      · subst p
        rw [if_neg fun h => hhead h.2]
        simp
      · rw [if_neg fun h : v = vtoken ∧ p = old.poll => hp h.2,
          if_neg fun h : v = vtoken ∧ p = old.poll => hp h.2]
        simp [hp]
    · rw [hrest.waiting, hfirst.waiting]
      simp only [List.map_cons, List.mem_cons, List.not_mem_nil, or_false]
      by_cases hp : p = old.poll
      · subst p
        rw [if_neg fun h => hhead h.2]
        simp
      · rw [if_neg fun h : v = vtoken ∧ p = old.poll => hp h.2]
        simp [hp]

/-! Votes that leave. -/

/-- What a vote leaves behind: a query that waits, or, if the agent is of Bifrost, the response to
one. -/
inductive Departs (s : State cfg) (who : AccountId) (vtoken : CurrencyId) (ctx : List VoteCtx) :
    State cfg → Prop
  | sent (queryId : ℕ) (xcm : cfg.Xcm) (timeout : ℕ) (outside : cfg.Outside)
      (info : ℕ → Option (CurrencyId × List ℕ)) (weight fee : ℕ) (votes : ℕ → VoteItemList)
      (waiting : CurrencyId → ℕ → VoteItemList) (all : SortedMap ℕ VoteItemList)
      (hagent : getVotingAgent cfg vtoken = .ok .relaychain)
      (hquery : cfg.newNotifyQuery s.xcm vtoken timeout = (queryId, xcm))
      (hnone : s.pendingVotingInfo.get queryId = none)
      (hrecording : Recording s vtoken (ctx.map VoteCtx.poll) votes waiting all) :
      Departs s who vtoken ctx { s with
        pendingDelegatorVotes := waiting
        xcm := xcm
        pendingReferendumInfo := info
        pendingVotingInfo := s.pendingVotingInfo.write queryId
          (some ⟨vtoken, who, ctx.map VoteCtx.toOldVote⟩)
        outside := outside
        sent := s.sent ++ [⟨queryId, .vote all, weight, fee⟩] }
  | dispatched (s' : State cfg) (outside : cfg.Outside) (votes : ℕ → VoteItemList)
      (waiting : CurrencyId → ℕ → VoteItemList) (all : SortedMap ℕ VoteItemList)
      (hagent : getVotingAgent cfg vtoken = .ok .bifrost)
      (hrecording : Recording s vtoken (ctx.map VoteCtx.poll) votes waiting all)
      (harrived : Arrived { s with pendingDelegatorVotes := waiting, outside := outside } vtoken
        (ctx.map VoteCtx.poll) s') : Departs s who vtoken ctx s'

theorem doVote_ok {submitted : Bool} {ctx : List VoteCtx} (hnodup : (ctx.map VoteCtx.poll).Nodup)
    (h : s.doVote who vtoken submitted ctx = .ok s') : Departs s who vtoken ctx s' := by
  simp only [State.doVote, bind_eq_ok] at h
  obtain ⟨-, -, ⟨s₁, all⟩, hrecord, -, -, agent, hagent, h⟩ := h
  obtain ⟨votes, waiting, rfl, hwaiting, hall⟩ := recordAll_ok hnodup hrecord
  have hrecording : Recording s vtoken (ctx.map VoteCtx.poll) votes waiting all := ⟨hwaiting, hall⟩
  cases agent with
  | relaychain =>
    obtain ⟨queryId, xcm, timeout, outside, info, weight, fee, hquery, hnone, rfl⟩ := sendVote_ok h
    exact .sent queryId xcm timeout outside info weight fee votes waiting all hagent hquery hnone
      hrecording
  | bifrost =>
    obtain ⟨outside, h⟩ := dispatchVote_ok h
    have hpolls : (ctx.map VoteCtx.toOldVote).map OldVote.poll = ctx.map VoteCtx.poll := by
      rw [List.map_map]
      rfl
    have harrived := handleSuccess_ok (hpolls ▸ hnodup) h
    rw [hpolls] at harrived
    exact .dispatched s' outside votes waiting all hagent hrecording harrived

theorem Departs.pendingVotingInfo {ctx : List VoteCtx} (h : Departs s who vtoken ctx s') :
    s'.pendingVotingInfo = s.pendingVotingInfo ∨ ∃ queryId,
      s.pendingVotingInfo.get queryId = none ∧ s'.pendingVotingInfo =
        s.pendingVotingInfo.write queryId (some ⟨vtoken, who, ctx.map VoteCtx.toOldVote⟩) := by
  cases h with
  | sent queryId _ _ _ _ _ _ _ _ _ _ _ hnone _ => exact Or.inr ⟨queryId, hnone, rfl⟩
  | dispatched _ outside votes waiting all hagent hrecording harrived =>
    obtain ⟨_, _, _, _, rfl⟩ := harrived.eq
    exact Or.inl rfl

/-! Which polls have votes. -/

/-- No account has a vote on a poll it had none on. -/
def NoNewVotes (s s' : State cfg) : Prop :=
  ∀ v x p, (s.getVoting v x).votes.get p = none → (s'.getVoting v x).votes.get p = none

theorem NoNewVotes.refl (s : State cfg) : NoNewVotes s s := fun _ _ _ h => h

theorem NoNewVotes.trans (h : NoNewVotes s s') (h' : NoNewVotes s' s'') : NoNewVotes s s'' :=
  fun v x p hnone => h' v x p (h v x p hnone)

theorem NoNewVotes.of_votingFor (h : s'.votingFor = s.votingFor) : NoNewVotes s s' := by
  intro v x p hnone
  rw [State.getVoting, h]
  exact hnone

theorem NoNewVotes.setVoting {voting : Voting AccountId}
    (h : ∀ p, (s.getVoting vtoken who).votes.get p = none → voting.votes.get p = none) :
    NoNewVotes s (s.setVoting vtoken who voting) := by
  intro v x p hnone
  rw [getVoting_setVoting]
  split
  · rename_i hvx
    rw [hvx.1, hvx.2] at hnone
    exact h p hnone
  · exact hnone

theorem LocksTo.noNewVotes {n : ℕ} (h : LocksTo s vtoken who n s') : NoNewVotes s s' := by
  obtain ⟨ledger, locks, rfl, -⟩ := h
  exact NoNewVotes.refl s

theorem Quiet.noNewVotes (h : Quiet s s') : NoNewVotes s s' := .of_votingFor h.votingFor

theorem Removed.noNewVotes {c : Casting} {record : VoteRecord} {scope : UnvoteScope}
    (h : Removed s who vtoken poll c record scope s') (hc : s.getVoting vtoken who = .casting c) :
    NoNewVotes s s' := by
  obtain ⟨-, prior, hvotings⟩ := h.frame
  intro v x p hnone
  rw [hvotings]
  split
  · rename_i hvx
    rw [hvx.1, hvx.2, hc] at hnone
    have hget : (c.drop poll).votes.get p = none := by
      rw [Casting.drop, SortedMap.get_erase]
      split
      · rfl
      · exact hnone
    exact hget
  · exact hnone

theorem tryRemoveVote_noNewVotes {maybePoll : Option ℕ} {scope : UnvoteScope}
    (h : s.tryRemoveVote who vtoken maybePoll scope = .ok s') : NoNewVotes s s' := by
  rcases tryRemoveVote_ok h with rfl | ⟨poll, c, record, -, hc, -, hremoved⟩
  · exact NoNewVotes.refl s'
  · exact hremoved.noNewVotes hc

theorem updateLock_noNewVotes (h : s.updateLock who vtoken = .ok s') : NoNewVotes s s' := by
  refine NoNewVotes.trans (.setVoting fun p hnone => ?_) (updateLock_ok h).noNewVotes
  cases hvoting : s.getVoting vtoken who with
  | casting c =>
    rw [hvoting] at hnone
    exact hnone
  | delegating d => rfl

theorem RolledBack.noNewVotes {old : OldVote} (h : RolledBack s who vtoken old s') :
    NoNewVotes s s' := by
  intro v x p hnone
  rw [h.records]
  split
  · rename_i hvxp
    obtain ⟨⟨rfl, rfl⟩, rfl⟩ := hvxp
    cases hvote : old.vote with
    | none => rfl
    | some vote => exact absurd hnone (h.voted (by rw [hvote]; nofun))
  · exact hnone

theorem Recasts.noNewVotes (h : Recasts s direction target vtoken amount s') :
    NoNewVotes s (s'.setVoting vtoken target
      ((s.getVoting vtoken target).shift direction amount)) := by
  have hquiet := h.quiet
  refine NoNewVotes.trans (.of_votingFor hquiet.votingFor) (.setVoting fun p hnone => ?_)
  have hsame : s'.getVoting vtoken target = s.getVoting vtoken target :=
    hquiet.getVoting vtoken target
  rw [hsame] at hnone
  cases hvoting : s.getVoting vtoken target with
  | casting c =>
    rw [hvoting] at hnone
    exact hnone
  | delegating d => rfl

/-- A referendum that is not known has no votes, and has had none but the one that has opened it.
No vote waits twice for one response. -/
structure Recorded (s : State cfg) : Prop where
  unknown : ∀ v p, s.referendumInfoFor v p = none → ∀ x, (s.getVoting v x).votes.get p = none
  opened : ∀ q e, s.pendingVotingInfo.get q = some e → ∀ old ∈ e.oldVotes, old.info = none →
    old.vote = none ∧ ∀ x, x ≠ e.who → (s.getVoting e.vtoken x).votes.get old.poll = none
  polls : ∀ q e, s.pendingVotingInfo.get q = some e → (e.oldVotes.map OldVote.poll).Nodup

theorem Recorded.of_noNewVotes (hs : Recorded s) (hvotes : NoNewVotes s s')
    (hinfos : ∀ v p, s'.referendumInfoFor v p = none → s.referendumInfoFor v p = none)
    (hpending : ∀ q e, s'.pendingVotingInfo.get q = some e → s.pendingVotingInfo.get q = some e ∨
      (e.oldVotes.map OldVote.poll).Nodup ∧ ∀ old ∈ e.oldVotes, old.info ≠ none) :
    Recorded s' where
  unknown v p hnone x := hvotes v x p (hs.unknown v p (hinfos v p hnone) x)
  opened q e he old hold hnone := by
    rcases hpending q e he with he' | ⟨-, hknown⟩
    · obtain ⟨hvote, hothers⟩ := hs.opened q e he' old hold hnone
      exact ⟨hvote, fun x hx => hvotes _ x _ (hothers x hx)⟩
    · exact absurd hnone (hknown old hold)
  polls q e he := by
    rcases hpending q e he with he' | ⟨hnodup, -⟩
    · exact hs.polls q e he'
    · exact hnodup

theorem Recorded.of_inner (hs : Recorded s) (hvotes : NoNewVotes s s')
    (hinfos : ∀ v p, s'.referendumInfoFor v p = none → s.referendumInfoFor v p = none)
    (hpending : s'.pendingVotingInfo = s.pendingVotingInfo) : Recorded s' :=
  hs.of_noNewVotes hvotes hinfos fun _ _ he => Or.inl (hpending ▸ he)

theorem Aside.recorded (h : Aside s s') (hs : Recorded s) : Recorded s' := by
  refine hs.of_inner (.of_votingFor h.votingFor) (fun v p hnone => ?_) h.pendingVotingInfo
  rcases h.infos v p with heq | ⟨-, moment, hended | hended⟩
  · rw [← heq, hnone]
  · rw [hnone] at hended
    cases hended
  · rw [hnone] at hended
    cases hended

theorem Quiet.info_none (h : Quiet s s') {v : CurrencyId} {p : ℕ} :
    s'.referendumInfoFor v p = none ↔ s.referendumInfoFor v p = none := by
  rw [← Option.map_eq_none_iff, h.infos, Option.map_eq_none_iff]

theorem Locally.pendingVotingInfo (h : Locally s s') :
    s'.pendingVotingInfo = s.pendingVotingInfo := by
  obtain ⟨_, _, _, _, _, _, rfl⟩ := h
  rfl

theorem Recorded.locksTo {n : ℕ} (hs : Recorded s) (h : LocksTo s vtoken who n s') :
    Recorded s' := by
  obtain ⟨ledger, locks, rfl, -⟩ := h
  exact ⟨hs.unknown, hs.opened, hs.polls⟩

theorem updateLock_recorded (hs : Recorded s) (h : s.updateLock who vtoken = .ok s') :
    Recorded s' := by
  refine hs.of_inner (updateLock_noNewVotes h) (fun v p hnone => ?_)
    (updateLock_locally h).pendingVotingInfo
  obtain ⟨ledger, locks, rfl, -⟩ := updateLock_ok h
  exact hnone

theorem unlock_recorded {maybePoll : Option ℕ} (hs : Recorded s)
    (h : s.unlock who vtoken maybePoll = .ok s') : Recorded s' := by
  obtain ⟨s₁, s₂, hends, hremove, hupdate⟩ := unlock_ok h
  have hs₁ := hends.aside.recorded hs
  refine updateLock_recorded (hs₁.of_inner (tryRemoveVote_noNewVotes hremove)
    (fun v p hnone => ?_) (tryRemoveVote_locally hremove).pendingVotingInfo) hupdate
  rcases tryRemoveVote_ok hremove with rfl | ⟨poll, c, record, -, -, -, hremoved⟩
  · exact hnone
  · cases hremoved with
    | ongoing status tally hinfo hscope htally => cases hscope
    | ended statuses prior hinfo => exact hnone

theorem rollbackVote_recorded {old : OldVote} {q : ℕ}
    (hs : Recorded s) (he : s.pendingVotingInfo.get q = some e) (hold : old ∈ e.oldVotes)
    (h : State.rollbackVote e.who e.vtoken s old = .ok s') : Recorded s' := by
  have hrolled := rollbackVote_ok h
  have hpending := hrolled.locally.pendingVotingInfo
  refine ⟨fun v p hnone x => ?_, fun q' e' he' old' hold' hnone => ?_, fun q' e' he' => ?_⟩
  · rw [hrolled.infos] at hnone
    split at hnone
    · rename_i hvp
      obtain ⟨rfl, rfl⟩ := hvp
      obtain ⟨hvote, hothers⟩ := hs.opened q e he old hold hnone
      by_cases hx : x = e.who
      · rw [hrolled.records, if_pos ⟨⟨rfl, hx⟩, rfl⟩, hvote]
        rfl
      · exact hrolled.noNewVotes _ x _ (hothers x hx)
    · exact hrolled.noNewVotes v x p (hs.unknown v p hnone x)
  · rw [hpending] at he'
    obtain ⟨hvote, hothers⟩ := hs.opened q' e' he' old' hold' hnone
    exact ⟨hvote, fun x hx => hrolled.noNewVotes _ x _ (hothers x hx)⟩
  · rw [hpending] at he'
    exact hs.polls q' e' he'

theorem rollback_recorded {olds : List OldVote} {q : ℕ}
    (hs : Recorded s) (he : s.pendingVotingInfo.get q = some e) (holds : ∀ old ∈ olds, old ∈ e.oldVotes)
    (h : olds.foldlM (State.rollbackVote e.who e.vtoken) s = .ok s') : Recorded s' := by
  induction olds generalizing s with
  | nil =>
    rw [List.foldlM_nil, pure_eq_ok] at h
    exact h ▸ hs
  | cons old olds ih =>
    obtain ⟨hold, holds⟩ := List.forall_mem_cons.mp holds
    simp only [List.foldlM_cons, bind_eq_ok] at h
    obtain ⟨s₁, hrollback, hrest⟩ := h
    refine ih (rollbackVote_recorded hs he hold hrollback) ?_ holds hrest
    rw [(rollbackVote_ok hrollback).locally.pendingVotingInfo]
    exact he

theorem handleVoteResult_recorded {success : Bool} {q : ℕ}
    (hs : Recorded s) (he : s.pendingVotingInfo.get q = some e)
    (h : s.handleVoteResult success e.who e.vtoken e.oldVotes = .ok s') : Recorded s' := by
  cases success with
  | true =>
    have hquiet := handleSuccess_quiet h
    obtain ⟨_, _, _, _, heq⟩ := (handleSuccess_ok (hs.polls q e he) h).eq
    exact hs.of_inner hquiet.noNewVotes (fun v p hnone => hquiet.info_none.mp hnone) (by rw [heq])
  | false =>
    simp only [State.handleVoteResult, Bool.false_eq_true, if_false, bind_eq_ok] at h
    obtain ⟨s₁, hrollback, hupdate⟩ := h
    have hclear : Recorded (s.clearPendingDelegatorVotes e.vtoken) :=
      ⟨hs.unknown, hs.opened, hs.polls⟩
    exact updateLock_recorded (rollback_recorded hclear he (fun _ h => h) hrollback) hupdate

theorem notifyVote_recorded {q : ℕ} {success : Bool} (hs : Recorded s)
    (h : s.notifyVote q success = .ok s') : Recorded s' := by
  have hdrop {s₁ : State cfg} (hs₁ : Recorded s₁) : Recorded (s₁.dropPending q) := by
    refine hs₁.of_noNewVotes (NoNewVotes.refl _) (fun _ _ h => h) fun q' e he => Or.inl ?_
    have hget : (s₁.pendingVotingInfo.write q none).get q' = some e := he
    rw [Table.get_write] at hget
    split at hget
    · cases hget
    · exact hget
  unfold State.notifyVote at h
  split at h
  · rename_i e he
    simp only [bind_eq_ok, pure_eq_ok] at h
    obtain ⟨s₁, hresult, rfl⟩ := h
    exact hdrop (handleVoteResult_recorded hs he hresult)
  · rw [pure_eq_ok] at h
    subst s'
    exact hdrop hs

theorem shiftInfo_eq_none {record : Option VoteRecord} {info : Option ReferendumInfo} :
    shiftInfo direction amount record info = none ↔ info = none := by
  unfold shiftInfo
  split
  · simp
  · exact Iff.rfl

theorem shifted_info_none {v : CurrencyId} {p : ℕ} :
    (s.shifted direction target vtoken amount).referendumInfoFor v p = none ↔
      s.referendumInfoFor v p = none := by
  simp only [State.shifted]
  split
  · rename_i hv
    rw [shiftInfo_eq_none, hv]
  · exact Iff.rfl

theorem toOldVote_polls (ctx : List VoteCtx) :
    (ctx.map VoteCtx.toOldVote).map OldVote.poll = ctx.map VoteCtx.poll := by
  rw [List.map_map]
  rfl

theorem Recasts.pending (h : Recasts s direction target vtoken amount s') {q : ℕ}
    (he : s'.pendingVotingInfo.get q = some e) : s.pendingVotingInfo.get q = some e ∨
      (e.oldVotes.map OldVote.poll).Nodup ∧ ∀ old ∈ e.oldVotes, old.info ≠ none := by
  obtain ⟨ctx, hnodup, hrevotes, hvote⟩ := h
  unfold State.doVoteIfAny at hvote
  split at hvote
  · rw [pure_eq_ok] at hvote
    subst s'
    exact Or.inl he
  · rcases (doVote_ok hnodup hvote).pendingVotingInfo with heq | ⟨queryId, -, heq⟩
    · rw [heq] at he
      exact Or.inl he
    · rw [heq, Table.get_write] at he
      split at he
      · cases he
        refine Or.inr ⟨?_, fun old hold => ?_⟩
        · rw [toOldVote_polls]
          exact hnodup
        · obtain ⟨x, hx, rfl⟩ := List.mem_map.mp hold
          obtain ⟨d, -, hrevote⟩ := hrevotes x hx
          obtain ⟨status, -, hinfo⟩ := hrevote.info
          have hold' : x.toOldVote.info = some (.ongoing status) := hinfo
          simp [hold']
      · exact Or.inl he

theorem Recasts.recorded (h : Recasts s direction target vtoken amount s') (hs : Recorded s) :
    Recorded (s'.setVoting vtoken target
      ((s.getVoting vtoken target).shift direction amount)) :=
  hs.of_noNewVotes h.noNewVotes
    (fun _ _ hnone => shifted_info_none.mp (h.quiet.info_none.mp hnone)) fun _ _ he => h.pending he

theorem Recorded.setVoting {voting : Voting AccountId} (hs : Recorded s)
    (hvoting : voting.votes = ∅) : Recorded (s.setVoting vtoken who voting) :=
  hs.of_inner (.setVoting fun _ _ => by rw [hvoting]; rfl) (fun _ _ hnone => hnone) rfl

theorem tryDelegate_recorded {conviction : Conviction} {balance : ℕ}
    (hs : Recorded s) (h : s.tryDelegate who target vtoken conviction balance = .ok s') :
    Recorded s' := by
  obtain ⟨c, n, s₁, -, -, -, -, hrecasts, hlock⟩ := tryDelegate_ok h
  exact ((hrecasts.recorded hs).setVoting rfl).locksTo hlock

theorem tryUndelegate_recorded (hs : Recorded s) (h : s.tryUndelegate who vtoken = .ok s') :
    Recorded s' := by
  obtain ⟨d, n, s₁, period, -, -, hrecasts, -, rfl⟩ := tryUndelegate_ok h
  exact (hrecasts.recorded hs).setVoting rfl

theorem commonVote_recorded {vote : AccountVote} (hs : Recorded s)
    (h : s.commonVote who vtoken poll vote = .ok s') : Recorded s' := by
  obtain ⟨tokenVote, s₁, submitted, s₂, old, total, hpending, -, hopen, hvote, hdo⟩ :=
    commonVote_ok h
  have hquiet := doVote_quiet hdo
  obtain ⟨status, c, t₀, t₁, -, -, hc, htake, -, -, ledger, locks, rfl, -⟩ := tryVote_ok hvote
  have hs₁ : s₁.votingFor = s.votingFor ∧ s₁.pendingVotingInfo = s.pendingVotingInfo ∧
      ∀ v p, ¬(v = vtoken ∧ p = poll) → s₁.referendumInfoFor v p = s.referendumInfoFor v p := by
    rcases openReferendum_ok hopen with ⟨-, -, rfl⟩ | ⟨status, -, -, rfl⟩
    · exact ⟨rfl, rfl, fun v p hne => (info_setInfo ..).trans (if_neg hne)⟩
    · exact ⟨rfl, rfl, fun _ _ _ => rfl⟩
  obtain ⟨hvotings, hpendings, hinfos⟩ := hs₁
  have hsame (v : CurrencyId) (x : AccountId) : s₁.getVoting v x = s.getVoting v x := by
    rw [State.getVoting, hvotings]
    rfl
  rw [hsame] at hc
  -- the votes: one more, by `who` on the poll
  have hvotes (v : CurrencyId) (x : AccountId) (p : ℕ) (hne : ¬((v = vtoken ∧ x = who) ∧ p = poll)) :
      (s'.getVoting v x).votes.get p = (s.getVoting v x).votes.get p := by
    rw [hquiet.getVoting]
    refine (congrArg (fun voting => (Voting.votes voting).get p)
      (getVoting_setVoting _ vtoken v who x _)).trans ?_
    split
    · rename_i hvx
      rw [hvx.1, hvx.2, hc]
      exact (SortedMap.get_insert ..).trans (if_neg fun h => hne ⟨hvx, h⟩)
    · exact congrArg (fun voting => (Voting.votes voting).get p) (hsame v x)
  have hother (v : CurrencyId) (p : ℕ) (hne : ¬(v = vtoken ∧ p = poll)) (x : AccountId) :
      (s'.getVoting v x).votes.get p = (s.getVoting v x).votes.get p :=
    hvotes v x p fun h => hne ⟨h.1.1, h.2⟩
  have hnew : ∀ q e, s'.pendingVotingInfo.get q = some e → s.pendingVotingInfo.get q = some e ∨
      e = ⟨vtoken, who, [⟨poll, old, s.referendumInfoFor vtoken poll⟩]⟩ := by
    intro q e he
    have hdeparts := doVote_ok (by simp) hdo
    rcases hdeparts.pendingVotingInfo with heq | ⟨queryId, -, heq⟩
    · rw [heq] at he
      exact Or.inl (hpendings ▸ he)
    · rw [heq, Table.get_write] at he
      split at he
      · cases he
        exact Or.inr rfl
      · exact Or.inl (hpendings ▸ he)
  refine ⟨fun v p hnone x => ?_, fun q e he old' hold' hnone => ?_, fun q e he => ?_⟩
  · have hne : ¬(v = vtoken ∧ p = poll) := by
      rintro ⟨rfl, rfl⟩
      have hnone' := hquiet.info_none.mp hnone
      exact absurd ((info_setInfo_self s₁ v p _).symm.trans hnone') (by simp)
    have hunknown : s.referendumInfoFor v p = none := by
      rw [← hinfos v p hne]
      exact ((info_setInfo ..).trans (if_neg hne)).symm.trans (hquiet.info_none.mp hnone)
    rw [hother v p hne]
    exact hs.unknown v p hunknown x
  · rcases hnew q e he with he' | rfl
    · obtain ⟨hvote', hothers⟩ := hs.opened q e he' old' hold' hnone
      refine ⟨hvote', fun x hx => ?_⟩
      have hfree := hpending (q, e) (Table.mem_entries.mpr he')
      rw [hother _ _ fun h => hfree ⟨h.1, old', hold', h.2⟩]
      exact hothers x hx
    · rw [List.mem_singleton] at hold'
      subst old'
      have hunvoted := hs.unknown vtoken poll hnone
      constructor
      · rcases takeBack_ok htake with ⟨-, -, hold⟩ | ⟨record, n, hget, -⟩
        · exact hold
        · have hvoted := hunvoted who
          rw [hc] at hvoted
          rw [Voting.votes, hget] at hvoted
          cases hvoted
      · intro x hx
        rw [hvotes vtoken x poll fun h => hx h.1.2]
        exact hunvoted x
  · rcases hnew q e he with he' | rfl
    · exact hs.polls q e he'
    · exact List.nodup_singleton _

theorem recorded_step {call : Call cfg} (hs : Recorded s) (h : step s call = .ok s') :
    Recorded s' := by
  have haside (hcall : call.Aside) : Recorded s' := (step_aside hcall h).recorded hs
  cases call with
  | vote origin vtoken poll vote =>
    simp only [step, bind_eq_ok] at h
    obtain ⟨who, -, h⟩ := h
    exact commonVote_recorded hs h
  | delegateVote origin vtoken poll vote =>
    simp only [step, bind_eq_ok] at h
    obtain ⟨-, -, h⟩ := h
    exact commonVote_recorded hs h
  | unlock origin vtoken maybePoll =>
    simp only [step, bind_eq_ok] at h
    obtain ⟨who, -, h⟩ := h
    exact unlock_recorded hs h
  | notifyVote origin queryId success =>
    simp only [step, bind_eq_ok] at h
    obtain ⟨-, -, h⟩ := h
    exact notifyVote_recorded hs h
  | delegate origin vtoken target conviction balance =>
    simp only [step, bind_eq_ok] at h
    obtain ⟨who, -, -, -, h⟩ := h
    exact tryDelegate_recorded hs h
  | undelegate origin vtoken =>
    simp only [step, bind_eq_ok] at h
    obtain ⟨who, -, -, -, h⟩ := h
    exact tryUndelegate_recorded hs h
  | setReferendumStatus origin vtoken poll info =>
    simp only [step, bind_eq_ok] at h
    obtain ⟨-, -, h⟩ := h
    obtain ⟨status, hstatus, -, rfl⟩ := setReferendumStatus_ok h
    refine hs.of_inner (NoNewVotes.refl _) (fun v p hnone => ?_) rfl
    rw [info_setInfo] at hnone
    split at hnone
    · cases hnone
    · exact hnone
  | _ => exact haside trivial

theorem genesis_recorded (cfg : Config AccountId) (delegators : CurrencyId → List ℕ)
    (undecidingTimeout : CurrencyId → Option ℕ) (voteCapRatio : CurrencyId → Perbill)
    (ledger : cfg.currencies.Ledger) (outside : cfg.Outside) (xcm : cfg.Xcm) :
    Recorded (genesis cfg delegators undecidingTimeout voteCapRatio ledger outside xcm) where
  unknown _ _ _ _ := rfl
  opened _ _ he := nomatch he
  polls _ _ he := nomatch he

/-- In every run a vote is on a referendum that is known, also after failed votes have taken back
the ones they opened, and no vote waits twice for one response. -/
theorem votes_on_known_referenda (cfg : Config AccountId) (delegators : CurrencyId → List ℕ)
    (undecidingTimeout : CurrencyId → Option ℕ) (voteCapRatio : CurrencyId → Perbill)
    (ledger : cfg.currencies.Ledger) (outside : cfg.Outside) (xcm : cfg.Xcm)
    (calls : List (Call cfg)) :
    let s := run step (genesis cfg delegators undecidingTimeout voteCapRatio ledger outside xcm)
      calls
    (∀ v x p, (s.getVoting v x).votes.get p ≠ none → s.referendumInfoFor v p ≠ none) ∧
      ∀ q e, s.pendingVotingInfo.get q = some e → (e.oldVotes.map OldVote.poll).Nodup := by
  intro s
  have hs : Recorded s := run_invariant (I := Recorded)
    (fun _ _ _ hs _ h => recorded_step hs h) calls
    (genesis_recorded cfg delegators undecidingTimeout voteCapRatio ledger outside xcm)
    (meets_true _ _)
  exact ⟨fun v x p hvote hnone => hvote (hs.unknown v p hnone x), hs.polls⟩

end Bifrost.VtokenVoting
