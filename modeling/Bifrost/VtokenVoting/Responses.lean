import Bifrost.Lib.Outstanding
import Bifrost.VtokenVoting.Pending

/-!
# Responses to votes

A response is to change what belongs to its own query: the polls the votes were on, and the
entry that waits for it. The votes of the derivative accounts wait under the vToken and the poll,
so they are those of one query as long as no two queries wait on one poll. A failed vote drops
the votes on every poll of the vToken, and delegations that change do not look whether a vote on
the poll waits.
-/

namespace Bifrost.VtokenVoting

open Result Machine
set_option autoImplicit false

variable {AccountId : Type} [DecidableEq AccountId]

/-- The ids `pallet_xcm` gives are new. -/
structure QueryIds (cfg : Config AccountId) where
  issued : cfg.Xcm → ℕ → Prop
  fresh : ∀ x responder timeout, ¬issued x (cfg.newNotifyQuery x responder timeout).1
  issued_iff : ∀ x responder timeout q, issued (cfg.newNotifyQuery x responder timeout).2 q ↔
    issued x q ∨ q = (cfg.newNotifyQuery x responder timeout).1

variable {cfg : Config AccountId} {s s' s'' : State cfg} {vtoken : CurrencyId} {who : AccountId}
  {poll : ℕ} {ids : QueryIds cfg} {answered : List ℕ}

omit [DecidableEq AccountId] in
def PendingVote.polls (e : PendingVote AccountId) : List ℕ := e.oldVotes.map OldVote.poll

theorem Issues.issued {x y : cfg.Xcm} (h : Issues cfg x y) {q : ℕ} (hq : ids.issued x q) :
    ids.issued y q := by
  induction h with
  | refl => exact hq
  | next responder timeout _ ih => exact (ids.issued_iff ..).mpr (Or.inl ih)

/-! What waits. -/

/-- No vote on the poll waits. -/
def State.Free (s : State cfg) (vtoken : CurrencyId) (poll : ℕ) : Prop :=
  ∀ q e, s.pendingVotingInfo.get q = some e → e.vtoken = vtoken → poll ∉ e.polls

/-- The votes of a message wait as they were sent. -/
def InFlight (s : State cfg) (e : PendingVote AccountId) (all : SortedMap ℕ VoteItemList) : Prop :=
  ∀ p, all.get p = if p ∈ e.polls then some (s.pendingDelegatorVotes e.vtoken p) else none

/-- Every vote that was sent waits as it was sent, or has been answered; no two wait on one
poll. -/
structure Waiting (ids : QueryIds cfg) (s : State cfg) (answered : List ℕ) : Prop where
  queue : Outstanding (ids.issued s.xcm) s.pendingVotingInfo.get answered
  issued : ∀ m ∈ s.sent, ∀ all, m.call = .vote all → ids.issued s.xcm m.queryId
  sent : ∀ m ∈ s.sent, ∀ all, m.call = .vote all → m.queryId ∈ answered ∨
    ∃ e, s.pendingVotingInfo.get m.queryId = some e ∧ InFlight s e all
  alone : ∀ q q' e e', s.pendingVotingInfo.get q = some e → s.pendingVotingInfo.get q' = some e' →
    e.vtoken = e'.vtoken → ∀ p ∈ e.polls, p ∈ e'.polls → q = q'
  clean : ∀ v p, s.Free v p → s.pendingDelegatorVotes v p = []

theorem Waiting.locally (hs : Waiting ids s answered) (h : Locally s s') :
    Waiting ids s' answered := by
  obtain ⟨_, _, _, _, _, _, rfl⟩ := h
  exact ⟨hs.queue, hs.issued, hs.sent, hs.alone, hs.clean⟩

theorem InFlight.of_eq {e : PendingVote AccountId} {all : SortedMap ℕ VoteItemList}
    (h : InFlight s e all)
    (heq : ∀ p ∈ e.polls, s'.pendingDelegatorVotes e.vtoken p = s.pendingDelegatorVotes e.vtoken p) :
    InFlight s' e all := by
  intro p
  rw [h p]
  split
  · rename_i hp
    rw [heq p hp]
  · rfl

theorem Waiting.aside (hs : Waiting ids s answered) (h : Aside s s') : Waiting ids s' answered := by
  have hpending := h.pendingVotingInfo
  have hwaiting := h.pendingDelegatorVotes
  refine ⟨?_, fun m hm all hcall => ?_, fun m hm all hcall => ?_, ?_, fun v p hfree => ?_⟩
  · rw [hpending]
    exact hs.queue.issue fun q => h.xcm.issued
  · rcases h.sent m hm with hm | hnot
    · exact h.xcm.issued (hs.issued m hm all hcall)
    · exact absurd hcall (hnot all)
  · rcases h.sent m hm with hm | hnot
    · rw [hpending]
      refine (hs.sent m hm all hcall).imp_right ?_
      rintro ⟨e, he, hflight⟩
      exact ⟨e, he, hflight.of_eq fun p _ => by rw [hwaiting]⟩
    · exact absurd hcall (hnot all)
  · rw [hpending]
    exact hs.alone
  · rw [hwaiting]
    refine hs.clean v p fun q e he => ?_
    exact hfree q e (by rw [hpending]; exact he)

theorem Waiting.departs {ctx : List VoteCtx} (hs : Waiting ids s answered)
    (hfree : ∀ p ∈ ctx.map VoteCtx.poll, s.Free vtoken p) (h : Departs s who vtoken ctx s') :
    Waiting ids s' answered := by
  have hapart {q : ℕ} {e : PendingVote AccountId} (he : s.pendingVotingInfo.get q = some e) {p : ℕ}
      (hp : p ∈ e.polls) : ¬(e.vtoken = vtoken ∧ p ∈ ctx.map VoteCtx.poll) :=
    fun h => hfree p h.2 q e he h.1 hp
  cases h with
  | sent queryId xcm timeout outside info weight fee votes waiting all hagent hquery hnone
      hrecording =>
    have hxcm : xcm = (cfg.newNotifyQuery s.xcm vtoken timeout).2 := by rw [hquery]
    have hid : queryId = (cfg.newNotifyQuery s.xcm vtoken timeout).1 := by rw [hquery]
    have hfresh : ¬ids.issued s.xcm queryId := hid ▸ ids.fresh _ _ _
    have hissued (q : ℕ) (hq : ids.issued s.xcm q) : ids.issued xcm q := by
      rw [hxcm, ids.issued_iff]
      exact Or.inl hq
    have hnew : ids.issued xcm queryId := by
      rw [hxcm, hid, ids.issued_iff]
      exact Or.inr rfl
    have hpolls : PendingVote.polls
        (⟨vtoken, who, ctx.map VoteCtx.toOldVote⟩ : PendingVote AccountId) =
          ctx.map VoteCtx.poll := toOldVote_polls ctx
    refine ⟨?_, fun m hm all' hcall => ?_, fun m hm all' hcall => ?_, ?_, fun v p hfree' => ?_⟩
    · rw [Table.get_write_eq]
      exact hs.queue.add hfresh hnew hissued _
    · rcases List.mem_append.mp hm with hm | hm
      · exact hissued _ (hs.issued m hm all' hcall)
      · rw [List.mem_singleton.mp hm]
        exact hnew
    · rcases List.mem_append.mp hm with hm | hm
      · refine (hs.sent m hm all' hcall).imp_right ?_
        rintro ⟨e, he, hflight⟩
        have hne : m.queryId ≠ queryId := fun h => hfresh (h ▸ hs.issued m hm all' hcall)
        refine ⟨e, (Table.get_write_ne _ _ hne).trans he, hflight.of_eq fun p hp => ?_⟩
        exact (hrecording.waiting ..).trans (if_neg (hapart he hp))
      · rw [List.mem_singleton.mp hm] at hcall ⊢
        cases hcall
        refine Or.inr ⟨_, Table.get_write_self .., fun p => ?_⟩
        rw [hrecording.message, hpolls]
        split
        · rename_i hp
          have hwaits : waiting vtoken p = votes p := by
            rw [hrecording.waiting, if_pos ⟨rfl, hp⟩, hs.clean vtoken p (hfree p hp),
              List.nil_append]
          exact congrArg some hwaits.symm
        · rfl
    · intro q q' e e' he he' hvtoken p hp hp'
      rw [Table.get_write] at he he'
      split at he
      · rename_i hq
        cases he
        rw [hpolls] at hp
        split at he'
        · rename_i hq'
          rw [hq, hq']
        · exact absurd ⟨hvtoken.symm, hp⟩ (hapart he' hp')
      · split at he'
        · cases he'
          rw [hpolls] at hp'
          exact absurd ⟨hvtoken, hp'⟩ (hapart he hp)
        · exact hs.alone q q' e e' he he' hvtoken p hp hp'
    · have hown : ¬(v = vtoken ∧ p ∈ ctx.map VoteCtx.poll) := by
        rintro ⟨rfl, hp⟩
        exact hfree' queryId _ (Table.get_write_self ..) rfl (hpolls ▸ hp)
      refine ((hrecording.waiting v p).trans (if_neg hown)).trans (hs.clean v p fun q e he => ?_)
      have hne : q ≠ queryId := by
        rintro rfl
        rw [hnone] at he
        cases he
      exact hfree' q e ((Table.get_write_ne _ _ hne).trans he)
  | dispatched _ outside votes waiting all hagent hrecording harrived =>
    have hwaiting (v : CurrencyId) (p : ℕ) : s'.pendingDelegatorVotes v p =
        if v = vtoken ∧ p ∈ ctx.map VoteCtx.poll then [] else s.pendingDelegatorVotes v p := by
      rw [harrived.waiting]
      split
      · rfl
      · rename_i hown
        exact (hrecording.waiting v p).trans (if_neg hown)
    have heq : s'.pendingVotingInfo = s.pendingVotingInfo ∧ s'.xcm = s.xcm ∧ s'.sent = s.sent := by
      obtain ⟨_, _, _, _, rfl⟩ := harrived.eq
      exact ⟨rfl, rfl, rfl⟩
    obtain ⟨hpending, hxcm, hsent⟩ := heq
    refine ⟨?_, ?_, fun m hm all' hcall => ?_, ?_, fun v p hfree' => ?_⟩
    · rw [hpending, hxcm]
      exact hs.queue
    · rw [hxcm, hsent]
      exact hs.issued
    · rw [hsent] at hm
      rw [hpending]
      refine (hs.sent m hm all' hcall).imp_right ?_
      rintro ⟨e, he, hflight⟩
      refine ⟨e, he, hflight.of_eq fun p hp => ?_⟩
      rw [hwaiting, if_neg (hapart he hp)]
    · rw [hpending]
      exact hs.alone
    · rw [hwaiting]
      split
      · rfl
      · refine hs.clean v p fun q e he => ?_
        exact hfree' q e (by rw [hpending]; exact he)

theorem Waiting.answer {q : ℕ} {e : PendingVote AccountId} (hs : Waiting ids s answered)
    (he : s.pendingVotingInfo.get q = some e)
    (hpending : s'.pendingVotingInfo = s.pendingVotingInfo.write q none) (hxcm : s'.xcm = s.xcm)
    (hsent : s'.sent = s.sent)
    (hown : ∀ p ∈ e.polls, s'.pendingDelegatorVotes e.vtoken p = [])
    (hothers : ∀ v p, ¬(v = e.vtoken ∧ p ∈ e.polls) →
      s'.pendingDelegatorVotes v p = s.pendingDelegatorVotes v p) :
    Waiting ids s' (answered ++ [q]) := by
  have hget {q' : ℕ} (hne : q' ≠ q) :
      s'.pendingVotingInfo.get q' = s.pendingVotingInfo.get q' := by
    rw [hpending, Table.get_write_ne _ _ hne]
  have hback {q' : ℕ} {e' : PendingVote AccountId} (he' : s'.pendingVotingInfo.get q' = some e') :
      q' ≠ q ∧ s.pendingVotingInfo.get q' = some e' := by
    rw [hpending, Table.get_write] at he'
    split at he'
    · cases he'
    · exact ⟨by assumption, he'⟩
  refine ⟨?_, ?_, fun m hm all hcall => ?_, ?_, fun v p hfree => ?_⟩
  · rw [hpending, hxcm, Table.get_write_eq]
    exact hs.queue.answer (by simp [he])
  · rw [hxcm, hsent]
    exact hs.issued
  · rw [hsent] at hm
    by_cases hq : m.queryId = q
    · exact Or.inl (List.mem_append.mpr (Or.inr (List.mem_singleton.mpr hq)))
    · rcases hs.sent m hm all hcall with hmem | ⟨e', he', hflight⟩
      · exact Or.inl (List.mem_append.mpr (Or.inl hmem))
      · refine Or.inr ⟨e', (hget hq).trans he', hflight.of_eq fun p hp => hothers _ p ?_⟩
        rintro ⟨hvtoken, hp'⟩
        exact hq (hs.alone _ _ e' e he' he hvtoken p hp hp')
  · intro q₁ q₂ e₁ e₂ he₁ he₂
    exact hs.alone q₁ q₂ e₁ e₂ (hback he₁).2 (hback he₂).2
  · by_cases hp : v = e.vtoken ∧ p ∈ e.polls
    · rw [hp.1]
      exact hown p hp.2
    · rw [hothers v p hp]
      refine hs.clean v p fun q' e' he' hvtoken hmem => ?_
      by_cases hq : q' = q
      · subst q'
        rw [he] at he'
        cases he'
        exact hp ⟨hvtoken.symm, hmem⟩
      · exact hfree q' e' ((hget hq).trans he') hvtoken hmem

/-! What a response changes. -/

/-- When a call keeps what waits for other queries: a failed vote finds no other poll of the
vToken with votes that wait, and delegations change only votes on polls no vote waits on. -/
def DelegationFree (s : State cfg) (target : AccountId) (vtoken : CurrencyId) : Prop :=
  ∀ p record status, (s.getVoting vtoken target).votes.get p = some record →
    record.vote.asStandard ≠ none → s.referendumInfoFor vtoken p = some (.ongoing status) →
      s.Free vtoken p

theorem Recasts.waiting {direction : Direction} {target : AccountId} {amount : Delegations}
    (hs : Waiting ids s answered) (hfree : DelegationFree s target vtoken)
    (h : Recasts s direction target vtoken amount s') : Waiting ids s' answered := by
  obtain ⟨ctx, hnodup, hrevotes, hvote⟩ := h
  have hlocal : Locally s (s.shifted direction target vtoken amount) := ⟨_, _, _, _, _, _, rfl⟩
  unfold State.doVoteIfAny at hvote
  split at hvote
  · rw [pure_eq_ok] at hvote
    subst s'
    exact hs.locally hlocal
  · refine (hs.locally hlocal).departs (fun p hp => ?_) (doVote_ok hnodup hvote)
    obtain ⟨x, hx, rfl⟩ := List.mem_map.mp hp
    obtain ⟨e, he, hrevote⟩ := hrevotes x hx
    obtain ⟨status, hinfo, -⟩ := hrevote.info
    rw [hrevote.poll]
    exact hfree e.1 e.2 status (SortedMap.mem_entries.mp he) hrevote.standard hinfo

section Genesis

variable (delegators : CurrencyId → List ℕ) (undecidingTimeout : CurrencyId → Option ℕ)
  (voteCapRatio : CurrencyId → Perbill) (ledger : cfg.currencies.Ledger) (outside : cfg.Outside)
  (xcm : cfg.Xcm)

end Genesis

namespace Sample

/-- `pallet_xcm` counts. -/
def queryIds : QueryIds config where
  issued := fun n q => q < n
  fresh := fun n _ _ => Nat.lt_irrefl n
  issued_iff := fun n _ _ q => Nat.lt_succ_iff_lt_or_eq (m := q) (n := n)

end Sample

end Bifrost.VtokenVoting
