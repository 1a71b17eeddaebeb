import Bifrost.VtokenVoting.Pending

/-!
# A tally is the sum of the votes

Each part of the tally of an ongoing referendum is to be the sum, over the accounts that have
voted on it, of what their votes and the delegations to them weigh. A vote moves the tally and the
sum by the same amount, and so does a change of delegations, unless a balance is cut off at its
bounds. The end of a delegation takes away what the delegation is worth then, and a vote that has
failed is undone by the referendum that was there before it.
-/

namespace Bifrost.VtokenVoting

open Result Machine
set_option autoImplicit false

/-! The parts of a tally. -/

inductive Part where
  | ayes | nays | support
deriving DecidableEq

/-- The parts that delegations go to. -/
def Part.of : Bool → List Part
  | true => [.ayes, .support]
  | false => [.nays]

def Tally.part (tally : Tally) : Part → ℕ
  | .ayes => tally.ayes
  | .nays => tally.nays
  | .support => tally.support

/-- What delegations weigh in each part, with an aye or a nay. -/
def Delegations.weight (d : Delegations) (aye : Bool) (i : Part) : ℕ :=
  match aye, i with
  | true, .ayes | false, .nays => d.votes
  | true, .support => d.capital
  | _, _ => 0

namespace AccountVote

def weight (i : Part) : AccountVote → ℕ
  | standard vote balance => (vote.conviction.votes balance).weight vote.aye i
  | split aye nay =>
    (Conviction.none.votes aye).weight true i + (Conviction.none.votes nay).weight false i
  | splitAbstain aye nay abstain =>
    (Conviction.none.votes aye).weight true i + (Conviction.none.votes nay).weight false i +
      if i = .support then (Conviction.none.votes abstain).capital else 0

/-- What it weighs with the delegations to the voter, which only a standard vote takes along. -/
def counted (vote : AccountVote) (d : Delegations) (i : Part) : ℕ :=
  vote.weight i + vote.asStandard.elim 0 fun aye => d.weight aye i

end AccountVote

namespace Tally

variable {tally t t' : Tally} {aye : Bool} {d : Delegations} {vote : AccountVote} {i : Part}

theorem apply_part {op : ℕ → ℕ → Option ℕ} {R : ℕ → ℕ → ℕ → Prop} (hzero : ∀ a, R a 0 a)
    (hop : ∀ {a b c}, op a b = some c → R a b c)
    (htrans : ∀ {a b c d e}, R a b c → R c d e → R a (b + d) e) (h : apply op t vote = some t')
    (i : Part) : R (t.part i) (vote.weight i) (t'.part i) := by
  cases vote with
  | standard vote balance =>
    unfold apply at h
    cases haye : vote.aye with
    | true =>
      simp only [haye, if_true, Option.bind_eq_bind, Option.bind_eq_some_iff, Option.pure_def,
        Option.some_inj] at h
      obtain ⟨support, hsupport, ayes, hayes, rfl⟩ := h
      simp only [AccountVote.weight, haye]
      cases i with
      | ayes => exact hop hayes
      | nays => exact hzero t.nays
      | support => exact hop hsupport
    | false =>
      simp only [haye, Bool.false_eq_true, if_false, Option.bind_eq_bind, Option.bind_eq_some_iff,
        Option.pure_def, Option.some_inj] at h
      obtain ⟨nays, hnays, rfl⟩ := h
      simp only [AccountVote.weight, haye]
      cases i with
      | ayes => exact hzero t.ayes
      | nays => exact hop hnays
      | support => exact hzero t.support
  | split aye nay =>
    simp only [apply, Option.bind_eq_bind, Option.bind_eq_some_iff, Option.pure_def,
      Option.some_inj] at h
    obtain ⟨support, hsupport, ayes, hayes, nays, hnays, rfl⟩ := h
    cases i with
    | ayes => exact htrans (hop hayes) (hzero ayes)
    | nays => exact htrans (hzero t.nays) (hop hnays)
    | support => exact htrans (hop hsupport) (hzero support)
  | splitAbstain aye nay abstain =>
    simp only [apply, Option.bind_eq_bind, Option.bind_eq_some_iff, Option.pure_def,
      Option.some_inj] at h
    obtain ⟨support, hsupport, support', hsupport', ayes, hayes, nays, hnays, rfl⟩ := h
    cases i with
    | ayes => exact htrans (htrans (hop hayes) (hzero ayes)) (hzero ayes)
    | nays => exact htrans (htrans (hzero t.nays) (hop hnays)) (hzero nays)
    | support => exact htrans (htrans (hop hsupport) (hzero support)) (hop hsupport')

theorem add_part (h : t.add vote = some t') (i : Part) : t'.part i = t.part i + vote.weight i :=
  apply_part (R := fun a b c => c = a + b) (fun _ => rfl)
    (fun h => (U128.checkedAdd_eq_some.mp h).1.symm) (fun h h' => by omega) h i

theorem remove_part (h : t.remove vote = some t') (i : Part) :
    t.part i = t'.part i + vote.weight i :=
  apply_part (R := fun a b c => a = c + b) (fun _ => rfl)
    (fun h => by
      obtain ⟨hle, heq⟩ := U128.checkedSub_eq_some.mp h
      omega)
    (fun h h' => by omega) h i

theorem increase_part (tally : Tally) (aye : Bool) (d : Delegations) (i : Part) :
    (tally.increase aye d).part i =
      if i ∈ Part.of aye then U128.saturatingAdd (tally.part i) (d.weight aye i)
      else tally.part i := by
  cases aye <;> cases i <;> rfl

theorem reduce_part (tally : Tally) (aye : Bool) (d : Delegations) (i : Part) :
    (tally.reduce aye d).part i = tally.part i - d.weight aye i := by
  cases aye <;> cases i <;> rfl

/-- The tally has room for the delegations. -/
def Room (tally : Tally) (aye : Bool) (d : Delegations) : Prop :=
  ∀ i ∈ Part.of aye, tally.part i + d.weight aye i ≤ u128Max

/-- The delegations to the voter are counted in full, with the vote. -/
def InFull (tally : Tally) (vote : AccountVote) (d : Delegations) : Prop :=
  ∀ t aye, tally.add vote = some t → vote.asStandard = some aye → t.Room aye d

end Tally

theorem Delegations.weight_of_notMem {d : Delegations} {aye : Bool} {i : Part}
    (h : i ∉ Part.of aye) : d.weight aye i = 0 := by
  cases aye <;> cases i
  case false.nays | true.ayes | true.support => exact absurd (by decide) h
  all_goals rfl

theorem Delegations.weight_saturatingSub (d e : Delegations) (aye : Bool) (i : Part) :
    (d.saturatingSub e).weight aye i = d.weight aye i - e.weight aye i := by
  cases aye <;> cases i <;> rfl

theorem Delegations.weight_saturatingAdd (d e : Delegations) (aye : Bool) (i : Part) :
    (d.saturatingAdd e).weight aye i = U128.saturatingAdd (d.weight aye i) (e.weight aye i) := by
  cases aye <;> cases i <;> rfl

namespace Tally

variable {tally t t' : Tally} {aye : Bool} {d : Delegations} {vote : AccountVote} {i : Part}

theorem increase_room (h : tally.Room aye d) (i : Part) :
    (tally.increase aye d).part i = tally.part i + d.weight aye i := by
  rw [increase_part]
  split
  · rename_i hi
    exact min_eq_left (h i hi)
  · rename_i hi
    rw [Delegations.weight_of_notMem hi, Nat.add_zero]

theorem count_part (hfull : t.InFull vote d) (h : t.count vote d = some t') (i : Part) :
    t'.part i = t.part i + vote.counted d i := by
  simp only [count, Option.bind_eq_bind, Option.bind_eq_some_iff, Option.pure_def,
    Option.some_inj] at h
  obtain ⟨t₁, hadd, rfl⟩ := h
  rw [AccountVote.counted, ← Nat.add_assoc, ← add_part hadd]
  cases hvote : vote.asStandard with
  | none => rfl
  | some aye => exact increase_room (hfull t₁ aye hadd hvote) i

theorem discount_part (h : t.discount vote d = some t') (hle : vote.counted d i ≤ t.part i) :
    t.part i = t'.part i + vote.counted d i := by
  simp only [discount, Option.bind_eq_bind, Option.bind_eq_some_iff, Option.pure_def,
    Option.some_inj] at h
  obtain ⟨t₁, hremove, rfl⟩ := h
  have hpart := remove_part hremove i
  rw [AccountVote.counted] at hle ⊢
  cases hvote : vote.asStandard with
  | none =>
    simp only [Option.elim_none, Nat.add_zero]
    exact hpart
  | some aye =>
    rw [hvote, Option.elim_some] at hle
    rw [Option.elim_some, Option.elim_some, reduce_part]
    omega

end Tally

/-! The sums. -/

variable {AccountId : Type} [DecidableEq AccountId] {cfg : Config AccountId} {s s' s'' : State cfg}
  {vtoken : CurrencyId} {who : AccountId} {poll : ℕ} {amount : Delegations}

omit [DecidableEq AccountId] in
def Voting.weight (poll : ℕ) (i : Part) : Voting AccountId → ℕ
  | casting c => (c.votes.get poll).elim 0 fun record => record.vote.counted c.delegations i
  | delegating _ => 0

def State.total (s : State cfg) (vtoken : CurrencyId) (poll : ℕ) (i : Part) : ℕ :=
  (s.votingFor vtoken).sum fun _ voting => voting.weight poll i

/-- The tally of every ongoing referendum is the sum of the votes on it. -/
def State.Tallied (s : State cfg) : Prop :=
  ∀ vtoken poll status, s.referendumInfoFor vtoken poll = some (.ongoing status) →
    ∀ i, status.tally.part i = s.total vtoken poll i

theorem total_congr (h : s'.votingFor = s.votingFor) (v : CurrencyId) (p : ℕ) (i : Part) :
    s'.total v p i = s.total v p i := by
  rw [State.total, h]
  rfl

theorem total_setVoting (s : State cfg) (vtoken : CurrencyId) (who : AccountId)
    (voting : Voting AccountId) (p : ℕ) (i : Part) :
    (s.setVoting vtoken who voting).total vtoken p i + (s.getVoting vtoken who).weight p i =
      s.total vtoken p i + voting.weight p i := by
  have hsum := Table.sum_write (fun _ voting => Voting.weight p i voting) (s.votingFor vtoken) who
    (some voting)
  have hold : Table.weight (fun _ voting => Voting.weight p i voting) who
      ((s.votingFor vtoken).get who) = (s.getVoting vtoken who).weight p i := by
    unfold State.getVoting
    cases (s.votingFor vtoken).get who <;> rfl
  rw [hold, Table.weight_some] at hsum
  have htotal : (s.setVoting vtoken who voting).total vtoken p i = Table.sum
      (fun _ voting => voting.weight p i) ((s.votingFor vtoken).write who (some voting)) := by
    simp only [State.total, State.setVoting, Function.update_self]
  rw [htotal]
  exact hsum

theorem total_setVoting_ne (s : State cfg) (who : AccountId) (voting : Voting AccountId)
    {v : CurrencyId} (hv : v ≠ vtoken) (p : ℕ) (i : Part) :
    (s.setVoting vtoken who voting).total v p i = s.total v p i := by
  simp only [State.total, State.setVoting, Function.update_of_ne hv]

theorem weight_le_total (s : State cfg) (vtoken : CurrencyId) (who : AccountId) (p : ℕ)
    (i : Part) : (s.getVoting vtoken who).weight p i ≤ s.total vtoken p i := by
  have h := total_setVoting s vtoken who .default p i
  have hzero : (Voting.default : Voting AccountId).weight p i = 0 := rfl
  omega

/-! One account on one poll. -/

theorem Quiet.tallied (h : Quiet s s') (hs : s.Tallied) : s'.Tallied := by
  intro v p status' hstatus' i
  rw [total_congr h.votingFor]
  have huntimed := h.infos v p
  rw [hstatus'] at huntimed
  cases hinfo : s.referendumInfoFor v p with
  | none =>
    rw [hinfo] at huntimed
    cases huntimed
  | some info =>
    rw [hinfo] at huntimed
    cases info with
    | ongoing status =>
      have htally : status'.tally = status.tally := by
        simp only [Option.map_some, ReferendumInfo.untimed, Option.some_inj,
          ReferendumInfo.ongoing.injEq, ReferendumStatus.mk.injEq, true_and] at huntimed
        exact huntimed
      rw [htally]
      exact hs v p status hinfo i
    | completed moment => cases huntimed
    | killed moment => cases huntimed

theorem setVoting_tallied (hs : s.Tallied) {voting : Voting AccountId}
    (hoff : ∀ p status, s.referendumInfoFor vtoken p = some (.ongoing status) → ∀ i,
      voting.weight p i = (s.getVoting vtoken who).weight p i) :
    (s.setVoting vtoken who voting).Tallied := by
  intro v p status hstatus i
  have hstatus' : s.referendumInfoFor v p = some (.ongoing status) := hstatus
  rw [hs v p status hstatus' i]
  by_cases hv : v = vtoken
  · subst v
    have htotal := total_setVoting s vtoken who voting p i
    rw [hoff p status hstatus' i] at htotal
    omega
  · rw [total_setVoting_ne s who voting hv]

theorem setInfo_setVoting_tallied (hs : s.Tallied) {status : ReferendumStatus} {t : Tally}
    {voting : Voting AccountId}
    (hstatus : s.referendumInfoFor vtoken poll = some (.ongoing status))
    (hoff : ∀ p, p ≠ poll → ∀ i, voting.weight p i = (s.getVoting vtoken who).weight p i)
    (hon : ∀ i, t.part i + (s.getVoting vtoken who).weight poll i =
      status.tally.part i + voting.weight poll i) :
    ((s.setInfo vtoken poll (some (.ongoing { status with tally := t }))).setVoting vtoken who
      voting).Tallied := by
  intro v p status' hstatus' i
  have hinfo : (s.setInfo vtoken poll (some (.ongoing { status with tally := t }))).referendumInfoFor
      v p = some (.ongoing status') := hstatus'
  rw [info_setInfo] at hinfo
  have hsame (v : CurrencyId) (p : ℕ) : ((s.setInfo vtoken poll
      (some (.ongoing { status with tally := t }))).setVoting vtoken who voting).total v p i =
        (s.setVoting vtoken who voting).total v p i := total_congr rfl v p i
  rw [hsame]
  have htotal := total_setVoting s vtoken who voting
  split at hinfo
  · rename_i hvp
    obtain ⟨rfl, rfl⟩ := hvp
    cases hinfo
    have hpart := htotal p i
    have hold := hs v p status hstatus i
    have hmoved := hon i
    simp only at hmoved ⊢
    omega
  · rename_i hvp
    rw [hs v p status' hinfo i]
    by_cases hv : v = vtoken
    · subst v
      have hp : p ≠ poll := fun h => hvp ⟨rfl, h⟩
      have hpart := htotal p i
      rw [hoff p hp i] at hpart
      omega
    · rw [total_setVoting_ne s who voting hv]

/-! Votes. -/

def pollTally : Option ReferendumInfo → Option Tally
  | none => some .zero
  | some (.ongoing status) => some status.tally
  | some _ => none

/-- The tally of the poll without the vote of `c`. -/
def State.tallyWithout (s : State cfg) (vtoken : CurrencyId) (poll : ℕ) (c : Casting) :
    Option Tally :=
  (pollTally (s.referendumInfoFor vtoken poll)).bind fun tally =>
    (c.votes.get poll).elim (some tally) fun record => tally.discount record.vote c.delegations

theorem tallyWithout_part (hs : s.Tallied) {status : ReferendumStatus} {c : Casting} {t : Tally}
    (hinfo : s.referendumInfoFor vtoken poll = some (.ongoing status))
    (hc : s.getVoting vtoken who = .casting c) (h : s.tallyWithout vtoken poll c = some t)
    (i : Part) : status.tally.part i = t.part i + (s.getVoting vtoken who).weight poll i := by
  have hle := weight_le_total s vtoken who poll i
  rw [← hs vtoken poll status hinfo i, hc] at hle
  simp only [State.tallyWithout, hinfo, pollTally, Option.bind_some] at h
  rw [hc]
  simp only [Voting.weight] at hle ⊢
  cases hget : c.votes.get poll with
  | none =>
    rw [hget, Option.elim_none, Option.some_inj] at h
    subst t
    rfl
  | some record =>
    rw [hget, Option.elim_some] at h hle
    exact Tally.discount_part h hle

omit [DecidableEq AccountId] in
theorem weight_put {c : Casting} (record : VoteRecord) {p : ℕ} (hp : p ≠ poll) (i : Part) :
    (Voting.casting (c.put poll record) : Voting AccountId).weight p i =
      (Voting.casting c : Voting AccountId).weight p i := by
  simp only [Voting.weight, Casting.put, SortedMap.get_insert, if_neg hp]

omit [DecidableEq AccountId] in
theorem weight_drop {c : Casting} {p : ℕ} (prior : PriorLock) (hp : p ≠ poll) (i : Part) :
    (Voting.casting { c.drop poll with prior := prior } : Voting AccountId).weight p i =
      (Voting.casting c : Voting AccountId).weight p i := by
  simp only [Voting.weight, Casting.drop, SortedMap.get_erase, if_neg hp]

theorem LocksTo.tallied {n : ℕ} (h : LocksTo s vtoken who n s') (hs : s.Tallied) : s'.Tallied := by
  obtain ⟨ledger, locks, rfl, -⟩ := h
  exact hs

/-- The vote is counted in full, in place of the one before it. -/
def VoteFits (s : State cfg) (who : AccountId) (vtoken : CurrencyId) (poll : ℕ)
    (vote : AccountVote) : Prop :=
  ∀ c t, s.getVoting vtoken who = .casting c → s.tallyWithout vtoken poll c = some t →
    t.InFull vote c.delegations

theorem tryVote_tally {vote : AccountVote} {balance : ℕ} {old : Option (AccountVote × ℕ)}
    {total : AccountVote} (h : s.tryVote who vtoken poll vote balance = .ok (s', old, total)) :
    ∃ status c t₀ t₁, s.referendumInfoFor vtoken poll = some (.ongoing status) ∧
      s.getVoting vtoken who = .casting c ∧ s.tallyWithout vtoken poll c = some t₀ ∧
      t₀.count vote c.delegations = some t₁ ∧
      LocksTo ((s.setInfo vtoken poll (some (.ongoing { status with tally := t₁ }))).setVoting vtoken
        who (.casting (c.put poll ⟨vote, balance⟩))) vtoken who
          ((c.put poll ⟨vote, balance⟩).maxBalance 0) s' := by
  obtain ⟨status, c, t₀, t₁, -, hinfo, hc, htake, hcount, -, hlock⟩ := tryVote_ok h
  refine ⟨status, c, t₀, t₁, hinfo, hc, ?_, hcount, hlock⟩
  simp only [State.tallyWithout, hinfo, pollTally, Option.bind_some]
  rcases takeBack_ok htake with ⟨hget, rfl, -⟩ | ⟨record, n, hget, hdiscount, -, -⟩
  · rw [hget]
    rfl
  · rw [hget]
    exact hdiscount

theorem tryVote_tallied {vote : AccountVote} {balance : ℕ} {old : Option (AccountVote × ℕ)}
    {total : AccountVote} (hs : s.Tallied) (hfits : VoteFits s who vtoken poll vote)
    (h : s.tryVote who vtoken poll vote balance = .ok (s', old, total)) : s'.Tallied := by
  obtain ⟨status, c, t₀, t₁, hinfo, hc, hwithout, hcount, hlock⟩ := tryVote_tally h
  refine hlock.tallied (setInfo_setVoting_tallied hs hinfo (fun p hp i => ?_) fun i => ?_)
  · rw [hc]
    exact weight_put _ hp i
  · have hold := tallyWithout_part hs hinfo hc hwithout i
    have hnew := Tally.count_part (hfits c t₀ hc hwithout) hcount i
    have hweight : (Voting.casting (c.put poll ⟨vote, balance⟩) : Voting AccountId).weight poll i =
        vote.counted c.delegations i := by
      simp only [Voting.weight, Casting.put, SortedMap.get_insert_self, Option.elim_some]
    rw [hweight]
    omega

theorem Removed.tallied {c : Casting} {record : VoteRecord} {scope : UnvoteScope}
    (h : Removed s who vtoken poll c record scope s') (hc : s.getVoting vtoken who = .casting c)
    (hrecord : c.votes.get poll = some record) (hs : s.Tallied) : s'.Tallied := by
  cases h with
  | ongoing status tally hinfo hscope htally =>
    refine setInfo_setVoting_tallied hs hinfo (fun p hp i => ?_) fun i => ?_
    · rw [hc]
      exact weight_drop c.prior hp i
    · have hwithout : s.tallyWithout vtoken poll c = some tally := by
        simp only [State.tallyWithout, hinfo, pollTally, Option.bind_some, hrecord,
          Option.elim_some, htally]
      have hold := tallyWithout_part hs hinfo hc hwithout i
      have hweight : (Voting.casting (c.drop poll) : Voting AccountId).weight poll i = 0 := by
        simp only [Voting.weight, Casting.drop, SortedMap.get_erase, if_true, Option.elim_none]
      rw [hweight]
      omega
  | ended statuses prior hinfo =>
    refine setVoting_tallied (s := { s with referendumVoteStatus := statuses }) hs
      fun p status hstatus i => ?_
    have hp : p ≠ poll := by
      rintro rfl
      exact hinfo status hstatus
    have hc' : State.getVoting { s with referendumVoteStatus := statuses } vtoken who =
      .casting c := hc
    rw [hc']
    exact weight_drop prior hp i

theorem tryRemoveVote_tallied {maybePoll : Option ℕ} {scope : UnvoteScope} (hs : s.Tallied)
    (h : s.tryRemoveVote who vtoken maybePoll scope = .ok s') : s'.Tallied := by
  rcases tryRemoveVote_ok h with rfl | ⟨poll, c, record, -, hc, hrecord, hremoved⟩
  · exact hs
  · exact hremoved.tallied hc hrecord hs

theorem updateLock_tallied (hs : s.Tallied) (h : s.updateLock who vtoken = .ok s') :
    s'.Tallied := by
  refine (updateLock_ok h).tallied (setVoting_tallied hs fun p _ _ i => ?_)
  cases s.getVoting vtoken who <;> rfl

/-! Votes that have failed. -/

/-- What failed is undone by the referendum there was before: nothing else has moved the tally
since, so it is the present tally with the vote exchanged. -/
def UndoFits (s : State cfg) (who : AccountId) (vtoken : CurrencyId) (old : OldVote) : Prop :=
  ∃ status c t, s.referendumInfoFor vtoken old.poll = some (.ongoing status) ∧
    s.getVoting vtoken who = .casting c ∧ s.tallyWithout vtoken old.poll c = some t ∧
    match old.vote with
    | none => pollTally old.info = some t
    | some (vote, _) => t.InFull vote c.delegations ∧
      t.count vote c.delegations = pollTally old.info

theorem setInfo_tallied (hs : s.Tallied) {status : ReferendumStatus} {info : Option ReferendumInfo}
    (hstatus : s.referendumInfoFor vtoken poll = some (.ongoing status))
    (htally : pollTally info = some status.tally) : (s.setInfo vtoken poll info).Tallied := by
  intro v p status' hstatus' i
  have htotal : (s.setInfo vtoken poll info).total v p i = s.total v p i := total_congr rfl v p i
  rw [htotal]
  rw [info_setInfo] at hstatus'
  split at hstatus'
  · rename_i hvp
    obtain ⟨rfl, rfl⟩ := hvp
    rw [hstatus', pollTally, Option.some_inj] at htally
    rw [htally]
    exact hs v p status hstatus i
  · exact hs v p status' hstatus' i

theorem rollbackVote_tallied {old : OldVote} (hs : s.Tallied)
    (hfits : UndoFits s who vtoken old) (h : State.rollbackVote who vtoken s old = .ok s') :
    s'.Tallied := by
  obtain ⟨status, c, t, hinfo, hc, hwithout, hold⟩ := hfits
  simp only [State.rollbackVote, bind_eq_ok] at h
  obtain ⟨s₁, hremove, h⟩ := h
  rcases tryRemoveVote_some hremove with ⟨⟨d, hd⟩, -⟩ | ⟨c', record, hc', hrecord, hremoved⟩
  · rw [hc] at hd
    cases hd
  rw [hc] at hc'
  cases hc'
  have hs₁ := hremoved.tallied hc hrecord hs
  cases hremoved with
  | ended statuses prior hnone => exact absurd hinfo (hnone status)
  | ongoing status' tally hinfo' hscope htally =>
    rw [hinfo] at hinfo'
    cases hinfo'
    have ht : tally = t := by
      simp only [State.tallyWithout, hinfo, pollTally, Option.bind_some, hrecord,
        Option.elim_some, htally, Option.some_inj] at hwithout
      exact hwithout
    subst t
    -- the referendum and the account once the vote is removed
    have hinfo₁ : ((s.setInfo vtoken old.poll (some (.ongoing { status with
        tally := tally }))).setVoting vtoken who (.casting (c.drop old.poll))).referendumInfoFor
          vtoken old.poll = some (.ongoing { status with tally := tally }) := info_setInfo_self ..
    have hc₁ := getVoting_setVoting_self (s.setInfo vtoken old.poll (some (.ongoing { status with
      tally := tally }))) vtoken who (.casting (c.drop old.poll))
    have hget : (c.drop old.poll).votes.get old.poll = none := by
      rw [Casting.drop, SortedMap.get_erase, if_pos rfl]
    cases hvote : old.vote with
    | none =>
      rw [hvote] at h hold
      rw [pure_eq_ok] at h
      subst s'
      exact setInfo_tallied hs₁ hinfo₁ hold
    | some vote =>
      rw [hvote] at h hold
      simp only [bind_eq_ok, pure_eq_ok] at h
      obtain ⟨⟨s₂, result⟩, hvoted, rfl⟩ := h
      have hwithout₁ {t₀ : Tally} (ht₀ : ((s.setInfo vtoken old.poll (some (.ongoing { status with
          tally := tally }))).setVoting vtoken who (.casting (c.drop old.poll))).tallyWithout vtoken
            old.poll (c.drop old.poll) = some t₀) : t₀ = tally := by
        simp only [State.tallyWithout, hinfo₁, pollTally, Option.bind_some, hget, Option.elim_none,
          Option.some_inj] at ht₀
        exact ht₀.symm
      have hs₂ : s₂.Tallied := by
        refine tryVote_tallied hs₁ ?_ hvoted
        intro c' t₀ hc' ht₀
        rw [hc₁] at hc'
        cases hc'
        rw [hwithout₁ ht₀]
        exact hold.1
      obtain ⟨status₁, c', t₀, t₁, hstatus₁, hc', ht₀, hcount, hlock⟩ := tryVote_tally hvoted
      rw [hc₁] at hc'
      cases hc'
      rw [hwithout₁ ht₀] at hcount
      have hinfo₂ : s₂.referendumInfoFor vtoken old.poll =
          some (.ongoing { status₁ with tally := t₁ }) := by
        obtain ⟨ledger, locks, rfl, -⟩ := hlock
        exact info_setInfo_self ..
      refine setInfo_tallied hs₂ hinfo₂ ?_
      rw [← hold.2]
      exact hcount

theorem UndoFits.of_rollbackVote {old old' : OldVote} (hfits : UndoFits s who vtoken old')
    (hne : old'.poll ≠ old.poll) (h : State.rollbackVote who vtoken s old = .ok s') :
    UndoFits s' who vtoken old' := by
  obtain ⟨status, c, t, hinfo, hc, hwithout, hold⟩ := hfits
  have hrolled := rollbackVote_ok h
  obtain ⟨c', hc', hdelegations⟩ := hrolled.casting c hc
  have hinfo' : s'.referendumInfoFor vtoken old'.poll = s.referendumInfoFor vtoken old'.poll := by
    rw [hrolled.infos, if_neg fun h => hne h.2]
  have hget : c'.votes.get old'.poll = c.votes.get old'.poll := by
    have hrecord := hrolled.records vtoken who old'.poll
    rw [hc', hc, if_neg fun h => hne h.2] at hrecord
    exact hrecord
  refine ⟨status, c', t, hinfo'.trans hinfo, hc', ?_, ?_⟩
  · rw [State.tallyWithout, hinfo', hget, hdelegations]
    exact hwithout
  · rw [hdelegations]
    exact hold

theorem rollback_tallied {olds : List OldVote} (hnodup : (olds.map OldVote.poll).Nodup)
    (hs : s.Tallied) (hfits : ∀ old ∈ olds, UndoFits s who vtoken old)
    (h : olds.foldlM (State.rollbackVote who vtoken) s = .ok s') : s'.Tallied := by
  induction olds generalizing s with
  | nil =>
    rw [List.foldlM_nil, pure_eq_ok] at h
    exact h ▸ hs
  | cons old olds ih =>
    obtain ⟨hhead, htail⟩ := List.nodup_cons.mp hnodup
    obtain ⟨hold, holds⟩ := List.forall_mem_cons.mp hfits
    simp only [List.foldlM_cons, bind_eq_ok] at h
    obtain ⟨s₁, hrollback, hrest⟩ := h
    refine ih htail (rollbackVote_tallied hs hold hrollback) (fun old' hmem => ?_) hrest
    refine (holds old' hmem).of_rollbackVote (fun heq => hhead ?_) hrollback
    exact heq ▸ List.mem_map_of_mem hmem

theorem handleVoteResult_tallied {success : Bool} {olds : List OldVote}
    (hnodup : (olds.map OldVote.poll).Nodup) (hs : s.Tallied)
    (hfits : success = false → ∀ old ∈ olds, UndoFits s who vtoken old)
    (h : s.handleVoteResult success who vtoken olds = .ok s') : s'.Tallied := by
  cases success with
  | true => exact (handleSuccess_quiet h).tallied hs
  | false =>
    simp only [State.handleVoteResult, Bool.false_eq_true, if_false, bind_eq_ok] at h
    obtain ⟨s₁, hrollback, hupdate⟩ := h
    have hclear : (s.clearPendingDelegatorVotes vtoken).Tallied := hs
    have hfits' (old : OldVote) (hold : old ∈ olds) :
        UndoFits (s.clearPendingDelegatorVotes vtoken) who vtoken old := hfits rfl old hold
    exact updateLock_tallied (rollback_tallied hnodup hclear hfits' hrollback) hupdate

/-! Delegations. -/

/-- How one balance moves, cut off at its bounds. -/
def Direction.move : Direction → ℕ → ℕ → ℕ
  | .increase => U128.saturatingAdd
  | .reduce => (· - ·)

theorem Tally.shift_part (direction : Direction) (tally : Tally) (aye : Bool) (d : Delegations)
    (i : Part) : (tally.shift direction aye d).part i =
      if i ∈ Part.of aye then direction.move (tally.part i) (d.weight aye i)
      else tally.part i := by
  cases direction with
  | increase => exact tally.increase_part aye d i
  | reduce => cases aye <;> cases i <;> rfl

theorem Delegations.weight_shift (direction : Direction) (d e : Delegations) (aye : Bool)
    (i : Part) : (d.shift direction e).weight aye i =
      direction.move (d.weight aye i) (e.weight aye i) := by
  cases direction with
  | increase => exact weight_saturatingAdd d e aye i
  | reduce => exact weight_saturatingSub d e aye i

/-- A part `t` of a tally and the delegations `d` in it move by the same amount: neither is cut
off, or there is nothing else in the tally. -/
def Direction.Fits (direction : Direction) (t d amount : ℕ) : Prop :=
  match direction with
  | .increase => t + amount ≤ u128Max ∨ t ≤ d
  | .reduce => amount ≤ d ∨ t ≤ d

theorem Direction.move_add {direction : Direction} {w d amount : ℕ}
    (h : direction.Fits (w + d) d amount) :
    direction.move (w + d) amount = w + direction.move d amount := by
  cases direction with
  | increase =>
    simp only [Fits] at h
    simp only [move, U128.saturatingAdd]
    omega
  | reduce =>
    simp only [Fits] at h
    simp only [move]
    omega

/-- The delegations to an account move in every tally they are counted in as they move with the
account. -/
def ShiftFits (s : State cfg) (direction : Direction) (target : AccountId) (vtoken : CurrencyId)
    (amount : Delegations) : Prop :=
  ∀ c poll record aye status, s.getVoting vtoken target = .casting c →
    c.votes.get poll = some record → record.vote.asStandard = some aye →
    s.referendumInfoFor vtoken poll = some (.ongoing status) → ∀ i ∈ Part.of aye,
      direction.Fits (status.tally.part i) (c.delegations.weight aye i) (amount.weight aye i)

theorem shiftInfo_some (direction : Direction) (amount : Delegations) (record : VoteRecord)
    (status : ReferendumStatus) :
    shiftInfo direction amount (some record) (some (.ongoing status)) = some (.ongoing { status with
      tally := record.vote.asStandard.elim status.tally fun aye =>
        status.tally.shift direction aye amount }) := by
  obtain ⟨vote, balance⟩ := record
  cases vote <;> rfl

theorem shiftInfo_ongoing {direction : Direction}
    {record : Option VoteRecord} {info : Option ReferendumInfo} {status' : ReferendumStatus}
    (h : shiftInfo direction amount record info = some (.ongoing status')) :
    ∃ status, info = some (.ongoing status) := by
  cases info with
  | none =>
    unfold shiftInfo at h
    split at h
    · rename_i heq
      cases heq
    · cases h
  | some info =>
    cases info with
    | ongoing status => exact ⟨status, rfl⟩
    | completed moment =>
      unfold shiftInfo at h
      split at h
      · rename_i heq
        cases heq
      · cases h
    | killed moment =>
      unfold shiftInfo at h
      split at h
      · rename_i heq
        cases heq
      · cases h

theorem shifted_tallied {direction : Direction} {target : AccountId}
    (hs : s.Tallied) (hfits : ShiftFits s direction target vtoken amount) :
    ((s.shifted direction target vtoken amount).setVoting vtoken target
      ((s.getVoting vtoken target).shift direction amount)).Tallied := by
  intro v p status' hstatus' i
  have hsame : ((s.shifted direction target vtoken amount).setVoting vtoken target
      ((s.getVoting vtoken target).shift direction amount)).total v p i =
        (s.setVoting vtoken target ((s.getVoting vtoken target).shift direction amount)).total v p
          i := total_congr rfl v p i
  have hinfo : (if v = vtoken then shiftInfo direction amount
      ((s.getVoting vtoken target).votes.get p) (s.referendumInfoFor vtoken p)
      else s.referendumInfoFor v p) = some (.ongoing status') := hstatus'
  rw [hsame]
  by_cases hv : v = vtoken
  · subst v
    rw [if_pos rfl] at hinfo
    obtain ⟨status, hstatus⟩ := shiftInfo_ongoing hinfo
    have htotal := total_setVoting s vtoken target
      ((s.getVoting vtoken target).shift direction amount) p i
    have hle := weight_le_total s vtoken target p i
    have hpart := hs vtoken p status hstatus i
    rw [hstatus] at hinfo
    cases hvoting : s.getVoting vtoken target with
    | delegating d =>
      rw [hvoting] at hinfo htotal
      have hnone : (Voting.delegating d : Voting AccountId).votes.get p = none := rfl
      rw [hnone, shiftInfo_none] at hinfo
      cases hinfo
      simp only [Voting.shift, Voting.weight] at htotal ⊢
      omega
    | casting c =>
      rw [hvoting] at hinfo htotal hle
      simp only [Voting.votes, Voting.shift, Voting.weight] at hinfo htotal hle ⊢
      cases hget : c.votes.get p with
      | none =>
        rw [hget, shiftInfo_none] at hinfo
        cases hinfo
        simp only [hget, Option.elim_none] at htotal
        omega
      | some record =>
        rw [hget, shiftInfo_some] at hinfo
        cases hinfo
        simp only [hget, Option.elim_some, AccountVote.counted] at htotal hle
        cases hstandard : record.vote.asStandard with
        | none =>
          simp only [hstandard, Option.elim_none] at htotal ⊢
          omega
        | some aye =>
          simp only [hstandard, Option.elim_some, Delegations.weight_shift] at htotal hle ⊢
          rw [Tally.shift_part]
          split
          · rename_i hi
            have hmove := hfits c p record aye status hvoting hget hstandard hstatus i hi
            obtain ⟨w, hw⟩ : ∃ w, status.tally.part i = w + c.delegations.weight aye i :=
              ⟨status.tally.part i - c.delegations.weight aye i, by omega⟩
            rw [hw] at hmove ⊢
            rw [Direction.move_add hmove]
            omega
          · rename_i hi
            have hzero : direction.move (c.delegations.weight aye i) (amount.weight aye i) = 0 := by
              rw [Delegations.weight_of_notMem hi, Delegations.weight_of_notMem hi]
              cases direction <;> rfl
            have hzero' := Delegations.weight_of_notMem (d := c.delegations) hi
            omega
  · rw [if_neg hv] at hinfo
    rw [total_setVoting_ne s target _ hv]
    exact hs v p status' hinfo i

theorem Quiet.setVoting (h : Quiet s s') (vtoken : CurrencyId) (who : AccountId)
    (voting : Voting AccountId) :
    Quiet (s.setVoting vtoken who voting) (s'.setVoting vtoken who voting) where
  votingFor := by simp only [State.setVoting, h.votingFor]
  ledger := h.ledger
  localBlock := h.localBlock
  relayBlock := h.relayBlock
  voteLockingPeriod := h.voteLockingPeriod
  infos := h.infos

theorem Recasts.tallied {direction : Direction} {target : AccountId}
    (h : Recasts s direction target vtoken amount s') (hs : s.Tallied)
    (hfits : ShiftFits s direction target vtoken amount) :
    (s'.setVoting vtoken target ((s.getVoting vtoken target).shift direction amount)).Tallied :=
  (h.quiet.setVoting vtoken target _).tallied (shifted_tallied hs hfits)

theorem Casting.get_of_nil {c : Casting} (h : c.votes.entries = []) (p : ℕ) :
    c.votes.get p = none := by
  rw [SortedMap.get, h]
  rfl

theorem tryDelegate_tallied {target : AccountId} {conviction : Conviction} {balance : ℕ}
    (hs : s.Tallied) (hfits : ∀ n, s.computeTokenBalance vtoken balance = .ok n →
      ShiftFits s .increase target vtoken (conviction.votes n))
    (h : s.tryDelegate who target vtoken conviction balance = .ok s') : s'.Tallied := by
  obtain ⟨c, n, s₁, hne, hc, hvotes, hn, hrecasts, hlock⟩ := tryDelegate_ok h
  refine hlock.tallied (setVoting_tallied (hrecasts.tallied hs (hfits n hn)) fun p _ _ i => ?_)
  have hwho : s₁.getVoting vtoken who = .casting c := (hrecasts.quiet.getVoting vtoken who).trans hc
  rw [getVoting_setVoting, if_neg fun h => hne h.2, hwho]
  simp only [Voting.weight, Casting.get_of_nil hvotes, Option.elim_none]

theorem tryUndelegate_tallied (hs : s.Tallied)
    (hfits : ∀ d n, s.getVoting vtoken who = .delegating d →
      s.computeTokenBalance vtoken d.balance = .ok n →
        ShiftFits s .reduce d.target vtoken (d.conviction.votes n))
    (h : s.tryUndelegate who vtoken = .ok s') : s'.Tallied := by
  obtain ⟨d, n, s₁, period, hd, hn, hrecasts, -, rfl⟩ := tryUndelegate_ok h
  refine setVoting_tallied (hrecasts.tallied hs (hfits d n hd hn)) fun p _ _ i => ?_
  have hwho : s₁.getVoting vtoken who = .delegating d :=
    (hrecasts.quiet.getVoting vtoken who).trans hd
  rw [getVoting_setVoting]
  split
  · rename_i hvx
    rw [← hvx.2, hd]
    rfl
  · rw [hwho]
    rfl

/-! Calls. -/

theorem commonVote_tallied {vote : AccountVote} (hr : Recorded s) (hs : s.Tallied)
    (hfits : ∀ tokenVote, s.computeTokenVote vtoken vote = .ok tokenVote →
      VoteFits s who vtoken poll tokenVote)
    (h : s.commonVote who vtoken poll vote = .ok s') : s'.Tallied := by
  obtain ⟨tokenVote, s₁, submitted, s₂, old, total, -, htoken, hopen, hvote, hdo⟩ := commonVote_ok h
  refine (doVote_quiet hdo).tallied ?_
  have hfits := hfits tokenVote htoken
  rcases openReferendum_ok hopen with ⟨hnone, -, rfl⟩ | ⟨status, hstatus, -, rfl⟩
  · -- a referendum without votes has a tally of nothing
    have hs₁ : (s.setInfo vtoken poll
        (some (.ongoing ⟨s.currentBlock vtoken, .zero⟩))).Tallied := by
      intro v p status' hstatus' i
      have htotal : (s.setInfo vtoken poll
          (some (.ongoing ⟨s.currentBlock vtoken, .zero⟩))).total v p i = s.total v p i :=
        total_congr rfl v p i
      rw [htotal]
      rw [info_setInfo] at hstatus'
      split at hstatus'
      · rename_i hvp
        obtain ⟨rfl, rfl⟩ := hvp
        cases hstatus'
        have hzero : s.total v p i = 0 := by
          rw [State.total, ← Table.sum_zero (s.votingFor v)]
          refine Table.sum_congr fun e he => ?_
          have hget : s.getVoting v e.1 = e.2 := by
            rw [State.getVoting, Table.mem_entries.mp he, Option.getD_some]
          have hunvoted := hr.unknown v p hnone e.1
          rw [hget] at hunvoted
          cases hvoting : e.2 with
          | casting c =>
            rw [hvoting] at hunvoted
            simp only [Voting.votes] at hunvoted
            simp only [Voting.weight, hunvoted, Option.elim_none]
          | delegating d => rfl
        rw [hzero]
        cases i <;> rfl
      · exact hs v p status' hstatus' i
    refine tryVote_tallied hs₁ ?_ hvote
    intro c t hc ht
    refine hfits c t hc ?_
    rw [State.tallyWithout, info_setInfo_self] at ht
    rw [State.tallyWithout, hnone]
    exact ht
  · exact tryVote_tallied hs hfits hvote

theorem notifyVote_tallied {q : ℕ} {success : Bool} (hr : Recorded s) (hs : s.Tallied)
    (hfits : success = false → ∀ e, s.pendingVotingInfo.get q = some e → ∀ old ∈ e.oldVotes,
      UndoFits s e.who e.vtoken old)
    (h : s.notifyVote q success = .ok s') : s'.Tallied := by
  unfold State.notifyVote at h
  split at h
  · rename_i e he
    simp only [bind_eq_ok, pure_eq_ok] at h
    obtain ⟨s₁, hresult, rfl⟩ := h
    have hs₁ : s₁.Tallied :=
      handleVoteResult_tallied (hr.polls q e he) hs (fun hf => hfits hf e he) hresult
    exact hs₁
  · rw [pure_eq_ok] at h
    subst s'
    exact hs

theorem Aside.tallied (h : Aside s s') (hs : s.Tallied) : s'.Tallied := by
  intro v p status hstatus i
  rw [total_congr h.votingFor]
  rcases h.infos v p with heq | ⟨-, moment, hended | hended⟩
  · exact hs v p status (heq ▸ hstatus) i
  · rw [hstatus] at hended
    cases hended
  · rw [hstatus] at hended
    cases hended

/-- When a call keeps every tally the sum of the votes. -/
def TallyStands (s : State cfg) : Call cfg → Prop
  | .vote origin vtoken poll vote => ∀ who tokenVote, origin = .signed who →
      s.computeTokenVote vtoken vote = .ok tokenVote → VoteFits s who vtoken poll tokenVote
  | .delegateVote _ vtoken poll vote => ∀ tokenVote,
      s.computeTokenVote vtoken vote = .ok tokenVote →
        VoteFits s cfg.palletAccount vtoken poll tokenVote
  | .notifyVote _ queryId success => success = false → ∀ e,
      s.pendingVotingInfo.get queryId = some e → ∀ old ∈ e.oldVotes, UndoFits s e.who e.vtoken old
  | .delegate _ vtoken target conviction balance => ∀ n,
      s.computeTokenBalance vtoken balance = .ok n →
        ShiftFits s .increase target vtoken (conviction.votes n)
  | .undelegate origin vtoken => ∀ who d n, origin = .signed who →
      s.getVoting vtoken who = .delegating d → s.computeTokenBalance vtoken d.balance = .ok n →
        ShiftFits s .reduce d.target vtoken (d.conviction.votes n)
  | .setReferendumStatus _ vtoken poll info => ∀ status status',
      s.referendumInfoFor vtoken poll = some (.ongoing status) → info = .ongoing status' →
        status'.tally = status.tally
  | _ => True

theorem tallied_step {call : Call cfg} (hr : Recorded s) (hs : s.Tallied)
    (hok : TallyStands s call) (h : step s call = .ok s') : s'.Tallied := by
  have haside (hcall : call.Aside) : s'.Tallied := (step_aside hcall h).tallied hs
  cases call with
  | vote origin vtoken poll vote =>
    simp only [step, bind_eq_ok] at h
    obtain ⟨who, hwho, h⟩ := h
    exact commonVote_tallied hr hs (fun tokenVote => hok who tokenVote (ensureSigned_ok hwho)) h
  | delegateVote origin vtoken poll vote =>
    simp only [step, bind_eq_ok] at h
    obtain ⟨-, -, h⟩ := h
    exact commonVote_tallied hr hs hok h
  | unlock origin vtoken maybePoll =>
    simp only [step, bind_eq_ok] at h
    obtain ⟨who, -, h⟩ := h
    obtain ⟨s₁, s₂, hends, hremove, hupdate⟩ := unlock_ok h
    exact updateLock_tallied (tryRemoveVote_tallied (hends.aside.tallied hs) hremove) hupdate
  | notifyVote origin queryId success =>
    simp only [step, bind_eq_ok] at h
    obtain ⟨-, -, h⟩ := h
    exact notifyVote_tallied hr hs hok h
  | delegate origin vtoken target conviction balance =>
    simp only [step, bind_eq_ok] at h
    obtain ⟨who, -, -, -, h⟩ := h
    exact tryDelegate_tallied hs hok h
  | undelegate origin vtoken =>
    simp only [step, bind_eq_ok] at h
    obtain ⟨who, hwho, -, -, h⟩ := h
    exact tryUndelegate_tallied hs (fun d n => hok who d n (ensureSigned_ok hwho)) h
  | setReferendumStatus origin vtoken poll info =>
    simp only [step, bind_eq_ok] at h
    obtain ⟨-, -, h⟩ := h
    obtain ⟨status, hstatus, -, rfl⟩ := setReferendumStatus_ok h
    cases info with
    | ongoing status' =>
      refine setInfo_tallied hs hstatus ?_
      rw [pollTally, hok status status' hstatus rfl]
    | completed moment =>
      intro v p status' hstatus' i
      rw [info_setInfo] at hstatus'
      split at hstatus'
      · cases hstatus'
      · exact hs v p status' hstatus' i
    | killed moment =>
      intro v p status' hstatus' i
      rw [info_setInfo] at hstatus'
      split at hstatus'
      · cases hstatus'
      · exact hs v p status' hstatus' i
  | _ => exact haside trivial

/-! A delegation that ends as it began. -/

/-- No balance is cut off when the delegations to the account increase. -/
structure RoomFor (s : State cfg) (target : AccountId) (vtoken : CurrencyId)
    (amount : Delegations) : Prop where
  votes : (s.getVoting vtoken target).delegations.votes + amount.votes ≤ u128Max
  capital : (s.getVoting vtoken target).delegations.capital + amount.capital ≤ u128Max
  tallies : ∀ poll record aye status, (s.getVoting vtoken target).votes.get poll = some record →
    record.vote.asStandard = some aye →
    s.referendumInfoFor vtoken poll = some (.ongoing status) → status.tally.Room aye amount

theorem Tally.reduce_increase {tally : Tally} {aye : Bool} {d : Delegations}
    (h : tally.Room aye d) : (tally.increase aye d).reduce aye d = tally := by
  obtain ⟨ayes, nays, support⟩ := tally
  cases aye with
  | true =>
    have hayes := h .ayes (by decide)
    have hsupport := h .support (by decide)
    simp only [Tally.part, Delegations.weight] at hayes hsupport
    simp only [increase, reduce, if_true, U128.saturatingAdd, min_eq_left hayes,
      min_eq_left hsupport, Nat.add_sub_cancel]
  | false =>
    have hnays := h .nays (by decide)
    simp only [Tally.part, Delegations.weight] at hnays
    simp only [increase, reduce, Bool.false_eq_true, if_false, U128.saturatingAdd,
      min_eq_left hnays, Nat.add_sub_cancel]

theorem shiftInfo_return {record : Option VoteRecord}
    {info : Option ReferendumInfo} (h : ∀ r aye status, record = some r →
      r.vote.asStandard = some aye → info = some (.ongoing status) → status.tally.Room aye amount) :
    shiftInfo .reduce amount record (shiftInfo .increase amount record info) = info := by
  cases record with
  | none => rfl
  | some r =>
    cases info with
    | none => exact shiftInfo_eq_none.mpr (shiftInfo_eq_none.mpr rfl)
    | some info =>
      cases info with
      | ongoing status =>
        rw [shiftInfo_some, shiftInfo_some]
        cases hstandard : r.vote.asStandard with
        | none => rfl
        | some aye =>
          have hroom := h r aye status rfl hstandard rfl
          have htally : (status.tally.shift .increase aye amount).shift .reduce aye amount =
            status.tally := Tally.reduce_increase hroom
          simp only [Option.elim_some, htally]
      | completed moment =>
        obtain ⟨vote, balance⟩ := r
        cases vote <;> rfl
      | killed moment =>
        obtain ⟨vote, balance⟩ := r
        cases vote <;> rfl

theorem shiftInfo_untimed (direction : Direction) (amount : Delegations)
    (record : Option VoteRecord) (info : Option ReferendumInfo) :
    (shiftInfo direction amount record info).map ReferendumInfo.untimed =
      shiftInfo direction amount record (info.map ReferendumInfo.untimed) := by
  cases record with
  | none => rfl
  | some r =>
    obtain ⟨vote, balance⟩ := r
    cases info with
    | none => cases vote <;> rfl
    | some info => cases vote <;> cases info <;> rfl

theorem run_world {changes : List (Call cfg)}
    (h : ∀ call ∈ changes, ∃ change, call = .world change) (s : State cfg) :
    ∃ ledger outside localBlock relayBlock, run step s changes = { s with
      ledger := ledger
      outside := outside
      localBlock := localBlock
      relayBlock := relayBlock } := by
  induction changes generalizing s with
  | nil => exact ⟨_, _, _, _, rfl⟩
  | cons call changes ih =>
    obtain ⟨⟨change, rfl⟩, hrest⟩ := List.forall_mem_cons.mp h
    obtain ⟨ledger, outside, localBlock, relayBlock, heq⟩ := ih hrest (exec step s (.world change))
    exact ⟨ledger, outside, localBlock, relayBlock, heq⟩

omit [DecidableEq AccountId] in
theorem Voting.shift_return {voting : Voting AccountId}
    (hvotes : voting.delegations.votes + amount.votes ≤ u128Max)
    (hcapital : voting.delegations.capital + amount.capital ≤ u128Max) :
    (voting.shift .increase amount).shift .reduce amount = voting := by
  have hreturn (d : Delegations) (hv : d.votes + amount.votes ≤ u128Max)
      (hc : d.capital + amount.capital ≤ u128Max) :
      (d.shift .increase amount).shift .reduce amount = d := by
    simp only [Delegations.shift, Delegations.saturatingAdd, Delegations.saturatingSub,
      U128.saturatingAdd, min_eq_left hv, min_eq_left hc, Nat.add_sub_cancel]
  cases voting with
  | casting c => simp only [shift, hreturn c.delegations hvotes hcapital]
  | delegating d => simp only [shift, hreturn d.delegations hvotes hcapital]

/-- A delegation that ends at the rate it began at leaves the tallies and the account it was
delegated to as they were. -/
theorem delegation_returns {s₁ s₂ s₃ : State cfg} {target : AccountId} {conviction : Conviction}
    {balance n : ℕ} {changes : List (Call cfg)}
    (hdelegate : s.tryDelegate who target vtoken conviction balance = .ok s₁)
    (hchanges : ∀ call ∈ changes, ∃ change, call = .world change) (hs₂ : s₂ = run step s₁ changes)
    (hundelegate : s₂.tryUndelegate who vtoken = .ok s₃)
    (hn : s.computeTokenBalance vtoken balance = .ok n)
    (hrate : s₂.computeTokenBalance vtoken balance = .ok n)
    (hroom : RoomFor s target vtoken (conviction.votes n)) :
    (∀ v p, (s₃.referendumInfoFor v p).map ReferendumInfo.untimed =
      (s.referendumInfoFor v p).map ReferendumInfo.untimed) ∧
    s₃.getVoting vtoken target = s.getVoting vtoken target := by
  obtain ⟨c, n₁, t₁, hne, hc, hvotes, hn₁, hrecasts₁, hlock⟩ := tryDelegate_ok hdelegate
  rw [hn] at hn₁
  cases hn₁
  obtain ⟨d, n₂, t₂, period, hd, hn₂, hrecasts₂, -, rfl⟩ := tryUndelegate_ok hundelegate
  obtain ⟨ledger, outside, localBlock, relayBlock, hrun⟩ := run_world hchanges s₁
  rw [hrun] at hs₂
  -- the accounts and the referenda before the delegation ends
  have hvoting (v : CurrencyId) (x : AccountId) : s₂.getVoting v x = s₁.getVoting v x := by
    rw [hs₂]
    rfl
  have hvoting₁ (v : CurrencyId) (x : AccountId) : s₁.getVoting v x =
      if v = vtoken ∧ x = who then
        .delegating ⟨balance, target, conviction, c.delegations, c.prior⟩
      else if v = vtoken ∧ x = target then
        (s.getVoting vtoken target).shift .increase (conviction.votes n)
      else s.getVoting v x := by
    obtain ⟨ledger', locks, heq, -⟩ := hlock
    rw [heq]
    refine (getVoting_setVoting ..).trans (if_congr Iff.rfl rfl ?_)
    refine (getVoting_setVoting ..).trans (if_congr Iff.rfl rfl ?_)
    exact hrecasts₁.quiet.getVoting v x
  have hinfos₁ (v : CurrencyId) (p : ℕ) : (s₂.referendumInfoFor v p).map ReferendumInfo.untimed =
      ((s.shifted .increase target vtoken (conviction.votes n)).referendumInfoFor v p).map
        ReferendumInfo.untimed := by
    obtain ⟨ledger', locks, heq, -⟩ := hlock
    rw [hs₂, heq]
    exact hrecasts₁.quiet.infos v p
  rw [hvoting, hvoting₁, if_pos ⟨rfl, rfl⟩] at hd
  cases hd
  rw [hrate] at hn₂
  cases hn₂
  have htarget : s₂.getVoting vtoken target =
      (s.getVoting vtoken target).shift .increase (conviction.votes n) := by
    rw [hvoting, hvoting₁, if_neg fun h => hne h.2.symm, if_pos ⟨rfl, rfl⟩]
  have hrecords : (s₂.getVoting vtoken target).votes = (s.getVoting vtoken target).votes := by
    rw [htarget]
    cases s.getVoting vtoken target <;> rfl
  constructor
  · intro v p
    refine (hrecasts₂.quiet.infos v p).trans ?_
    have hinfo := hinfos₁ v p
    simp only [State.shifted] at hinfo ⊢
    by_cases hv : v = vtoken
    · subst v
      rw [if_pos rfl] at hinfo ⊢
      rw [shiftInfo_untimed, hinfo, ← shiftInfo_untimed, hrecords, shiftInfo_return]
      intro r aye status hr hstandard hstatus
      exact hroom.tallies p r aye status hr hstandard hstatus
    · rw [if_neg hv] at hinfo ⊢
      exact hinfo
  · rw [getVoting_setVoting, if_neg fun h => hne h.2.symm, getVoting_setVoting_self, htarget]
    exact Voting.shift_return hroom.votes hroom.capital

section Runs

variable (cfg) (delegators : CurrencyId → List ℕ) (undecidingTimeout : CurrencyId → Option ℕ)
  (voteCapRatio : CurrencyId → Perbill) (ledger : cfg.currencies.Ledger) (outside : cfg.Outside)
  (xcm : cfg.Xcm)

/-- Every tally is the sum of the votes in every state of a run whose calls move tallies and
delegations alike; and a delegation that ends at the rate it began at changes nothing. -/
theorem tallies_are_sums (calls : List (Call cfg))
    (hcalls : Meets step TallyStands
      (genesis cfg delegators undecidingTimeout voteCapRatio ledger outside xcm) calls) :
    Always step State.Tallied
      (genesis cfg delegators undecidingTimeout voteCapRatio ledger outside xcm) calls ∧
    ∀ (s s₁ s₂ s₃ : State cfg) (who target : AccountId) (vtoken : CurrencyId)
      (conviction : Conviction) (balance n : ℕ) (changes : List (Call cfg)),
      step s (.delegate (.signed who) vtoken target conviction balance) = .ok s₁ →
      (∀ call ∈ changes, ∃ change, call = .world change) → s₂ = run step s₁ changes →
      step s₂ (.undelegate (.signed who) vtoken) = .ok s₃ →
      s.computeTokenBalance vtoken balance = .ok n →
      s₂.computeTokenBalance vtoken balance = .ok n →
      RoomFor s target vtoken (conviction.votes n) →
      (∀ v p, (s₃.referendumInfoFor v p).map ReferendumInfo.untimed =
        (s.referendumInfoFor v p).map ReferendumInfo.untimed) ∧
      s₃.getVoting vtoken target = s.getVoting vtoken target := by
  constructor
  · have hstep (s : State cfg) (call : Call cfg) (s' : State cfg) (hs : Recorded s ∧ s.Tallied)
        (hok : TallyStands s call) (h : step s call = .ok s') : Recorded s' ∧ s'.Tallied :=
      ⟨recorded_step hs.1 h, tallied_step hs.1 hs.2 hok h⟩
    have hgenesis : (genesis cfg delegators undecidingTimeout voteCapRatio ledger outside
        xcm).Tallied := fun _ _ _ h => nomatch h
    have halways := always_of_meets hstep calls
      ⟨genesis_recorded cfg delegators undecidingTimeout voteCapRatio ledger outside xcm, hgenesis⟩
      hcalls
    exact halways.imp fun _ h => h.2
  · intro s s₁ s₂ s₃ who target vtoken conviction balance n changes hdelegate hchanges hs₂
      hundelegate hn hrate hroom
    simp only [step, bind_eq_ok] at hdelegate hundelegate
    obtain ⟨who₁, hwho₁, -, -, hdelegate⟩ := hdelegate
    obtain ⟨who₂, hwho₂, -, -, hundelegate⟩ := hundelegate
    cases ensureSigned_ok hwho₁
    cases ensureSigned_ok hwho₂
    exact delegation_returns hdelegate hchanges hs₂ hundelegate hn hrate hroom

end Runs

namespace Sample

def failedVote : List (Call config) :=
  [.vote (.signed 2) vdot 0 (aye .locked1x 1000), .notifyVote .response 0 false]

theorem failedVote_stands : Meets step TallyStands start failedVote := by
  refine ⟨fun _ _ who tokenVote hwho htoken => ?_, fun _ _ _ e he => ?_, trivial⟩
  · intro c t hc ht t' approve hadd hstandard i hi
    cases hwho
    cases htoken
    cases hc
    cases ht
    cases hadd
    cases hstandard
    revert i
    decide
  · cases he
    intro old hold
    cases List.mem_singleton.mp hold
    exact ⟨_, _, _, rfl, rfl, rfl, rfl⟩

def voted : State config :=
  run step start [.vote (.signed 2) vdot 0 (aye .locked1x 1000), .notifyVote .response 0 true,
    .setVoteLockingPeriod .control vdot 10]

end Sample

/-- A vote that fails, and a delegation to account 2 that ends at once. -/
theorem tallies_are_sums_sample :
    Always step State.Tallied Sample.start Sample.failedVote ∧
      (run step Sample.voted [.delegate (.signed 1) vdot 2 .locked1x 100,
        .undelegate (.signed 1) vdot]).getVoting vdot 2 = Sample.voted.getVoting vdot 2 := by
  have h := @tallies_are_sums _ _ Sample.config Sample.delegators Sample.timeouts Sample.ratios
    Sample.wealth (⟨1000000, 1000000⟩ : Sample.Supplies) (0 : ℕ) Sample.failedVote
    Sample.failedVote_stands
  refine ⟨h.1, (h.2 Sample.voted _ _ _ 1 2 vdot .locked1x 100 100 [] (ok_exec rfl)
    (fun _ h => absurd h List.not_mem_nil) rfl (ok_exec rfl) rfl rfl ⟨?_, ?_, ?_⟩).2⟩
  · decide
  · decide
  · intro poll record approve status hrecord hstandard hinfo
    have hget : (Sample.voted.getVoting vdot 2).votes.get poll =
      if 0 = poll then some ⟨Sample.aye .locked1x 1000, 1000⟩ else none := rfl
    rw [hget] at hrecord
    split at hrecord
    · subst poll
      cases hrecord
      cases hstandard
      cases hinfo
      intro i hi
      revert i
      decide
    · cases hrecord

namespace Sample

/-- Account 2 votes with a thousand and account 1 delegates a hundred to it. -/
def delegated : List (Call config) :=
  [.vote (.signed 2) vdot 0 (aye .locked1x 1000), .notifyVote .response 0 true,
    .delegate (.signed 1) vdot 2 .locked1x 100, .notifyVote .response 1 true,
    .setVoteLockingPeriod .control vdot 10]

end Sample

/-- The delegation ends when a vToken is worth twice as much: the tally has lost a hundred of the
votes of account 2. -/
theorem tally_drifts :
    let s := run step Sample.start
      (Sample.delegated ++ [Sample.rate 2000000, .undelegate (.signed 1) vdot])
    (s.referendumInfoFor vdot 0).bind (fun info => pollTally (some info)) =
        some ⟨900, 0, 900⟩ ∧ s.total vdot 0 .ayes = 1000 ∧ s.total vdot 0 .support = 1000 ∧
      ¬Always step State.Tallied Sample.start
        (Sample.delegated ++ [Sample.rate 2000000, .undelegate (.signed 1) vdot]) := by
  refine ⟨rfl, rfl, rfl, fun h => ?_⟩
  have htallied := h.run vdot 0 ⟨0, ⟨900, 0, 900⟩⟩ rfl .ayes
  have htotal : (run step Sample.start (Sample.delegated ++
    [Sample.rate 2000000, .undelegate (.signed 1) vdot])).total vdot 0 .ayes = 1000 := rfl
  rw [htotal] at htallied
  simp [Tally.part] at htallied

end Bifrost.VtokenVoting
