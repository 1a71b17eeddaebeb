import Bifrost.VtokenVoting.Calls

/-!
# How a vote is shared out

`compute_delegator_total_vote` turns a vote into one with the smallest conviction the vote cap
leaves room for, and `distribute_votes_to_derivatives` fills the derivative accounts one after
the other. Each of them loses less than the largest multiplier to its division.
-/

namespace Bifrost.VtokenVoting

open Result
set_option autoImplicit false

variable {AccountId : Type} [DecidableEq AccountId] {cfg : Config AccountId}

def AccountVote.strength (vote : AccountVote) : ℕ :=
  vote.asStandardVote.elim 0 fun standard => (standard.conviction.votes vote.balance).votes

def allocated (votes : VoteItemList) : ℕ := (votes.map fun e => e.2.strength).sum

/-- The votes of all derivative accounts, with the highest conviction. -/
def capacity (data : List (ℕ × ℕ)) : ℕ :=
  (data.map fun e => (Conviction.locked6x.votes e.2).votes).sum

/-- The derivative accounts of a poll: those that have voted, then the other delegators. -/
def State.derivatives (s : State cfg) (vtoken : CurrencyId) (poll : ℕ) (token : CurrencyId) :
    List (ℕ × ℕ) :=
  let voted := (s.delegatorVotes vtoken poll).map Prod.fst
  (voted ++ (s.delegators vtoken).filter fun i => i ∉ voted).map fun i =>
    (i, ((cfg.getStakeInfo s.outside token i).getD (0, 0)).2)

/-! What is promised. -/

/-- The votes are on one side, from accounts of the list, each of them used as often as it is
listed at most and for no more than it has available; they are no more than requested, and short
of it by less than `slack`. -/
structure Fills (side : Option Bool) (requested slack : ℕ) (data : List (ℕ × ℕ))
    (votes : VoteItemList) : Prop where
  once : (votes.map Prod.fst).Sublist (data.map Prod.fst)
  within : ∀ e ∈ votes, ∃ available, (e.1, available) ∈ data ∧ e.2.balance ≤ available
  onSide : ∀ e ∈ votes, e.2.asStandard = side
  le : allocated votes ≤ requested
  short : requested < allocated votes + slack

/-- What a vote cannot be distributed for: it is split, it asks for more than there is, or its
balance is too small for a vote. -/
def Undistributable (totalVote : AccountVote) (data : List (ℕ × ℕ)) : Prop :=
  totalVote.asStandard = none ∨ capacity data < totalVote.strength ∨
    (totalVote.strength = 0 ∧ totalVote.balance ≠ 0)

def Distributes (totalVote : AccountVote) (data : List (ℕ × ℕ)) : Prop :=
  match distributeVotesToDerivatives totalVote data with
  | .ok votes => Fills totalVote.asStandard totalVote.strength 6 data votes
  | .error _ => Undistributable totalVote data

/-- The total vote is on the side of the vote, with its votes less a remainder. -/
structure Totals (s : State cfg) (vtoken : CurrencyId) (vote totalVote : AccountVote) : Prop where
  onSide : totalVote.asStandard = vote.asStandard
  balance_le : totalVote.balance ≤ u128Max
  le : totalVote.strength ≤ vote.strength
  short : ∀ cap, s.voteCap vtoken = .ok cap → cap < u128Max → vote.strength < totalVote.strength + 6

/-- There is no total vote for a split vote, or where there is no cap or one that is too small for
the highest conviction. -/
def Computes (s : State cfg) (vtoken : CurrencyId) (vote : AccountVote) : Prop :=
  match s.computeDelegatorTotalVote vtoken vote with
  | .ok totalVote => Totals s vtoken vote totalVote
  | .error _ => vote.asStandard = none ∨ (∀ cap, s.voteCap vtoken ≠ .ok cap) ∨
      ∃ cap, s.voteCap vtoken = .ok cap ∧ cap < vote.strength / 6

/-- The derivative accounts of the poll are filled; without recorded votes and delegators that
are listed twice, each of them votes once. -/
def Allocates (s : State cfg) (vtoken : CurrencyId) (poll : ℕ) (totalVote : AccountVote) : Prop :=
  match s.allocateDelegatorVotes vtoken poll totalVote with
  | .ok votes => ∃ token, vtoken.toToken = some token ∧
      Fills totalVote.asStandard totalVote.strength 6 (s.derivatives vtoken poll token) votes ∧
      (((s.delegatorVotes vtoken poll).map Prod.fst).Nodup → (s.delegators vtoken).Nodup →
        (votes.map Prod.fst).Nodup)
  | .error _ => vtoken.toToken = none ∨ ∃ token, vtoken.toToken = some token ∧
      Undistributable totalVote (s.derivatives vtoken poll token)

/-! Convictions. -/

section Convictions

variable {x : Conviction} {n : ℕ}

theorem toNat_pos (hx : x ≠ .none) : 0 < x.toNat := by
  cases x with
  | none => exact absurd rfl hx
  | _ => decide

theorem toNat_le (x : Conviction) : x.toNat ≤ 6 := by cases x <;> decide

theorem votes_eq (hx : x ≠ .none) (capital : ℕ) :
    (x.votes capital).votes = U128.saturatingMul capital x.toNat := by
  cases x with
  | none => exact absurd rfl hx
  | _ => rfl

theorem voteToCapital_eq (hx : x ≠ .none) (vote : ℕ) : voteToCapital x vote = vote / x.toNat := by
  cases x with
  | none => exact absurd rfl hx
  | _ => rfl

theorem votes_capital (hx : x ≠ .none) (hn : n ≤ u128Max) :
    (x.votes (voteToCapital x n)).votes ≤ n ∧ n < (x.votes (voteToCapital x n)).votes + 6 := by
  have hpos := toNat_pos hx
  have hle := toNat_le x
  have hdiv := Nat.div_add_mod n x.toNat
  have hmod := Nat.mod_lt n hpos
  rw [votes_eq hx, voteToCapital_eq hx, U128.saturatingMul, Nat.mul_comm]
  omega

theorem votes_capital_none (hn : n * 10 ≤ u128Max) :
    voteToCapital .none n = n * 10 ∧ (Conviction.none.votes (voteToCapital .none n)).votes = n := by
  have hcapital : voteToCapital .none n = n * 10 := by
    show (U128.checkedMul n 10).getD u128Max = n * 10
    rw [U128.checkedMul, if_pos hn]
    rfl
  refine ⟨hcapital, ?_⟩
  rw [hcapital]
  exact Nat.mul_div_cancel n (by decide)

theorem votes_le (x : Conviction) {capital : ℕ} (h : capital ≤ u128Max) :
    (x.votes capital).votes ≤ u128Max := by
  by_cases hx : x = .none
  · subst hx
    exact (Nat.div_le_self capital 10).trans h
  · rw [votes_eq hx]
    exact Nat.min_le_right _ _

theorem strength_le {vote : AccountVote} (h : vote.balance ≤ u128Max) : vote.strength ≤ u128Max := by
  cases vote with
  | standard standard balance => exact votes_le standard.conviction h
  | _ => exact Nat.zero_le _

theorem capital_of_covers {available : ℕ} (havailable : available ≤ u128Max)
    (hn : n ≤ u128Max) (h : n ≤ (x.votes available).votes) :
    voteToCapital x n ≤ available ∧ (x.votes (voteToCapital x n)).votes ≤ n ∧
      n < (x.votes (voteToCapital x n)).votes + 6 := by
  by_cases hx : x = .none
  · subst hx
    have htenth : n ≤ available / 10 := h
    obtain ⟨hcapital, hvotes⟩ := votes_capital_none (n := n) (by omega)
    rw [hvotes, hcapital]
    omega
  · refine ⟨?_, votes_capital hx hn⟩
    rw [votes_eq hx, U128.saturatingMul] at h
    rw [voteToCapital_eq hx]
    apply Nat.div_le_of_le_mul
    rw [Nat.mul_comm]
    omega

end Convictions

/-! The distribution. -/

section Distribution

variable {aye : Bool} {balance remaining slack : ℕ} {data : List (ℕ × ℕ)} {votes : VoteItemList}

theorem fills_nil (side : Option Bool) (hslack : remaining < slack) (data : List (ℕ × ℕ)) :
    Fills side remaining slack data [] where
  once := List.nil_sublist _
  within := nofun
  onSide := nofun
  le := Nat.zero_le _
  short := by simpa [allocated] using hslack

theorem Fills.skip {side : Option Bool} (h : Fills side remaining slack data votes) (e : ℕ × ℕ) :
    Fills side remaining slack (e :: data) votes where
  once := h.once.cons e.1
  within := by
    intro v hv
    obtain ⟨available, hmem, hle⟩ := h.within v hv
    exact ⟨available, List.mem_cons_of_mem e hmem, hle⟩
  onSide := h.onSide
  le := h.le
  short := h.short

theorem Fills.add {i available : ℕ} {vote : AccountVote}
    (hside : vote.asStandard = some aye) (hbalance : vote.balance ≤ available)
    (hstrength : vote.strength ≤ remaining)
    (h : Fills (some aye) (remaining - vote.strength) slack data votes) :
    Fills (some aye) remaining slack ((i, available) :: data) ((i, vote) :: votes) where
  once := h.once.cons_cons i
  within := by
    intro e he
    rcases List.mem_cons.mp he with rfl | hrest
    · exact ⟨available, List.mem_cons_self, hbalance⟩
    · obtain ⟨most, hmem, hle⟩ := h.within e hrest
      exact ⟨most, List.mem_cons_of_mem _ hmem, hle⟩
  onSide := by
    intro e he
    rcases List.mem_cons.mp he with rfl | hrest
    · exact hside
    · exact h.onSide e hrest
  le := by
    have hle := h.le
    simp only [allocated, List.map_cons, List.sum_cons] at hle ⊢
    omega
  short := by
    have hshort := h.short
    simp only [allocated, List.map_cons, List.sum_cons] at hshort ⊢
    omega

theorem distribute_cases (hbalance : balance ≠ 0) (hdata : ∀ e ∈ data, e.2 ≤ u128Max)
    (hpos : 0 < remaining) (hremaining : remaining ≤ u128Max) :
    (∃ rest, distribute aye balance remaining votes data = .ok (votes ++ rest) ∧
      Fills (some aye) remaining 6 data rest) ∨
    (∃ e, distribute aye balance remaining votes data = .error e) ∧ capacity data < remaining := by
  induction data generalizing remaining votes with
  | nil =>
    refine Or.inr ⟨⟨.pallet .outOfRange, ?_⟩, hpos⟩
    simp [distribute, ensure, hbalance]
  | cons e data ih =>
    obtain ⟨i, available⟩ := e
    have havailable : available ≤ u128Max := hdata (i, available) List.mem_cons_self
    have hrest : ∀ e ∈ data, e.2 ≤ u128Max := fun e he => hdata e (List.mem_cons_of_mem _ he)
    have hcapacity : capacity ((i, available) :: data) =
        (Conviction.locked6x.votes available).votes + capacity data := by
      simp [capacity]
    rw [hcapacity]
    simp only [distribute]
    rw [if_neg (by omega)]
    by_cases hnone : (Conviction.locked6x.votes available).votes = 0
    · rw [if_pos hnone, hnone, Nat.zero_add]
      rcases @ih _ votes hrest hpos hremaining with ⟨rest, hok, hfills⟩ | herror
      · exact Or.inl ⟨rest, hok, hfills.skip (i, available)⟩
      · exact Or.inr herror
    rw [if_neg hnone]
    by_cases hcovers : remaining ≤ (Conviction.locked6x.votes available).votes
    · -- the account covers what remains, with the smallest conviction that does
      rw [if_pos hcovers]
      cases hfind : Conviction.all.find? fun x => remaining ≤ (x.votes available).votes with
      | none =>
        have hall := List.find?_eq_none.mp hfind .locked6x (by decide)
        exact absurd hcovers (by simpa using hall)
      | some x =>
        have hx : remaining ≤ (x.votes available).votes := by
          simpa using List.find?_some hfind
        obtain ⟨hcapital, hle, hshort⟩ := capital_of_covers havailable hremaining hx
        refine Or.inl ⟨_, rfl, Fills.add rfl hcapital hle ?_⟩
        apply fills_nil
        show remaining - (x.votes (voteToCapital x remaining)).votes < 6
        omega
    · -- it gives all it has
      rw [if_neg hcovers]
      rcases @ih (remaining - (Conviction.locked6x.votes available).votes)
        (votes ++ [(i, .standard ⟨aye, .locked6x⟩ available)]) hrest (by omega) (by omega) with
        ⟨rest, hok, hfills⟩ | ⟨herror, hless⟩
      · refine Or.inl ⟨(i, .standard ⟨aye, .locked6x⟩ available) :: rest, ?_, ?_⟩
        · rw [hok, List.append_assoc]
          rfl
        · apply Fills.add rfl (Nat.le_refl available)
          · show (Conviction.locked6x.votes available).votes ≤ remaining
            omega
          · exact hfills
      · exact Or.inr ⟨herror, by omega⟩

theorem distribute_zero (votes : VoteItemList) (data : List (ℕ × ℕ)) :
    distribute aye balance 0 votes data =
      if balance = 0 then .ok votes else .error (.pallet .outOfRange) := by
  cases data with
  | nil =>
    simp only [distribute, ensure]
    split
    · rfl
    · rfl
  | cons e data =>
    simp only [distribute, ensure, if_true]
    split
    · rfl
    · rfl

theorem distributes (totalVote : AccountVote) (htotal : totalVote.balance ≤ u128Max)
    (hdata : ∀ e ∈ data, e.2 ≤ u128Max) : Distributes totalVote data := by
  unfold Distributes
  cases totalVote with
  | split ayes nays => exact Or.inl rfl
  | splitAbstain ayes nays abstains => exact Or.inl rfl
  | standard vote balance =>
    show match distribute vote.aye balance (vote.conviction.votes balance).votes [] data with
      | .ok votes => Fills (some vote.aye) (vote.conviction.votes balance).votes 6 data votes
      | .error _ => Undistributable (.standard vote balance) data
    rcases Nat.eq_zero_or_pos (vote.conviction.votes balance).votes with hzero | hpos
    · rw [hzero, distribute_zero]
      by_cases hbalance : balance = 0
      · rw [if_pos hbalance]
        exact fills_nil _ (by decide) data
      · rw [if_neg hbalance]
        exact Or.inr (Or.inr ⟨hzero, hbalance⟩)
    · have hbalance : balance ≠ 0 := by
        rintro rfl
        have hnothing : (vote.conviction.votes 0).votes = 0 := by
          cases vote.conviction <;> rfl
        omega
      rcases @distribute_cases vote.aye balance _ data [] hbalance hdata hpos
        (votes_le vote.conviction htotal) with ⟨rest, hok, hfills⟩ | ⟨⟨e, herror⟩, hless⟩
      · rw [hok]
        exact hfills
      · rw [herror]
        exact Or.inr (Or.inl hless)

end Distribution

/-! The total vote. -/

section Total

variable {s : State cfg} {vtoken : CurrencyId} {poll : ℕ}

theorem computeDelegatorTotalVote_eq (standard : Vote) (balance : ℕ) {cap : ℕ}
    (hcap : s.voteCap vtoken = .ok cap) :
    s.computeDelegatorTotalVote vtoken (.standard standard balance) =
      (Conviction.all.find? fun x =>
        voteToCapital x (AccountVote.standard standard balance).strength ≤ cap).elim
        (.error (.pallet .insufficientFunds)) fun x => .ok (.standard ⟨standard.aye, x⟩
          (voteToCapital x (AccountVote.standard standard balance).strength)) := by
  have hstep : s.computeDelegatorTotalVote vtoken (.standard standard balance) = (do
      let x ← okOr (Conviction.all.find? fun x =>
        voteToCapital x (AccountVote.standard standard balance).strength ≤ cap)
        (.pallet .insufficientFunds)
      pure (.standard ⟨standard.aye, x⟩
        (voteToCapital x (AccountVote.standard standard balance).strength))) := by
    simp only [State.computeDelegatorTotalVote, hcap]
    rfl
  rw [hstep]
  cases Conviction.all.find? fun x =>
      voteToCapital x (AccountVote.standard standard balance).strength ≤ cap with
  | none => rfl
  | some x => rfl

theorem votes_total {x : Conviction} {n cap : ℕ} (hn : n ≤ u128Max)
    (hfits : voteToCapital x n ≤ cap) :
    voteToCapital x n ≤ u128Max ∧ (x.votes (voteToCapital x n)).votes ≤ n ∧
      (cap < u128Max → n < (x.votes (voteToCapital x n)).votes + 6) := by
  by_cases hx : x = .none
  · subst hx
    by_cases hroom : n * 10 ≤ u128Max
    · obtain ⟨hcapital, hvotes⟩ := votes_capital_none hroom
      rw [hvotes, hcapital]
      omega
    · have hcapital : voteToCapital .none n = u128Max := by
        show (U128.checkedMul n 10).getD u128Max = u128Max
        rw [U128.checkedMul, if_neg hroom]
        rfl
      rw [hcapital] at hfits ⊢
      show u128Max ≤ u128Max ∧ u128Max / 10 ≤ n ∧ _
      omega
  · obtain ⟨hle, hshort⟩ := votes_capital hx hn
    refine ⟨?_, hle, fun _ => hshort⟩
    rw [voteToCapital_eq hx]
    exact (Nat.div_le_self n _).trans hn

theorem computes {vote : AccountVote} (hvote : vote.balance ≤ u128Max) :
    Computes s vtoken vote := by
  unfold Computes
  have hstrength := strength_le hvote
  cases vote with
  | split ayes nays => exact Or.inl rfl
  | splitAbstain ayes nays abstains => exact Or.inl rfl
  | standard standard balance =>
    cases hcap : s.voteCap vtoken with
    | error e =>
      have hfails : s.computeDelegatorTotalVote vtoken (.standard standard balance) = .error e := by
        simp only [State.computeDelegatorTotalVote, hcap]
        rfl
      rw [hfails]
      exact Or.inr (Or.inl fun cap => nofun)
    | ok cap =>
      rw [computeDelegatorTotalVote_eq standard balance hcap]
      generalize hn : (AccountVote.standard standard balance).strength = n at hstrength
      cases hfind : Conviction.all.find? fun x => voteToCapital x n ≤ cap with
      | none =>
        have hall := List.find?_eq_none.mp hfind .locked6x (by decide)
        have hmost : ¬ voteToCapital .locked6x n ≤ cap := by simpa using hall
        exact Or.inr (Or.inr ⟨cap, rfl, Nat.lt_of_not_le hmost⟩)
      | some x =>
        have hfits : voteToCapital x n ≤ cap := by simpa using List.find?_some hfind
        obtain ⟨hbalance, hle, hshort⟩ := votes_total hstrength hfits
        refine ⟨rfl, hbalance, ?_, ?_⟩
        · rw [hn]
          exact hle
        · intro cap' hcap' hsmall
          rw [hcap] at hcap'
          cases hcap'
          rw [hn]
          exact hshort hsmall

/-! The allocation. -/

theorem derivatives_nodup {token : CurrencyId}
    (hvoted : ((s.delegatorVotes vtoken poll).map Prod.fst).Nodup)
    (hdelegators : (s.delegators vtoken).Nodup) :
    ((s.derivatives vtoken poll token).map Prod.fst).Nodup := by
  have hfst : (s.derivatives vtoken poll token).map Prod.fst =
      (s.delegatorVotes vtoken poll).map Prod.fst ++ (s.delegators vtoken).filter fun i =>
        i ∉ (s.delegatorVotes vtoken poll).map Prod.fst := by
    simp only [State.derivatives, List.map_map]
    exact List.map_id _
  rw [hfst]
  apply hvoted.append (hdelegators.filter _)
  intro i hi hrest
  exact absurd hi (by simpa using (List.mem_filter.mp hrest).2)

theorem allocates {totalVote : AccountVote} (htotal : totalVote.balance ≤ u128Max)
    (hstake : ∀ token i, ((cfg.getStakeInfo s.outside token i).getD (0, 0)).2 ≤ u128Max) :
    Allocates s vtoken poll totalVote := by
  have hstep : s.allocateDelegatorVotes vtoken poll totalVote =
      (okOr vtoken.toToken (.pallet .noData) >>= fun token =>
        distributeVotesToDerivatives totalVote (s.derivatives vtoken poll token)) := rfl
  unfold Allocates
  rw [hstep]
  cases htoken : vtoken.toToken with
  | none => exact Or.inl rfl
  | some token =>
    show match distributeVotesToDerivatives totalVote (s.derivatives vtoken poll token) with
      | .ok votes => _
      | .error _ => _
    have hdata : ∀ e ∈ s.derivatives vtoken poll token, e.2 ≤ u128Max := by
      intro e he
      obtain ⟨i, -, rfl⟩ := List.mem_map.mp he
      exact hstake token i
    have hdistributes := distributes totalVote htotal hdata
    unfold Distributes at hdistributes
    cases hvotes : distributeVotesToDerivatives totalVote (s.derivatives vtoken poll token) with
    | ok votes =>
      rw [hvotes] at hdistributes
      refine ⟨token, rfl, hdistributes, ?_⟩
      intro hvoted hdelegators
      exact (derivatives_nodup hvoted hdelegators).sublist hdistributes.once
    | error e =>
      rw [hvotes] at hdistributes
      exact Or.inr ⟨token, rfl, hdistributes⟩

end Total

/-- A distribution is fair and fails for want of votes only, but for split votes and balances
without a vote; the total vote before it keeps the side and all but a remainder of the votes, up
to the vote cap; and the two of them lose less than twice the largest multiplier. -/
theorem derivative_votes_fair (s : State cfg) (vtoken : CurrencyId) (poll : ℕ)
    (hstake : ∀ token i, ((cfg.getStakeInfo s.outside token i).getD (0, 0)).2 ≤ u128Max) :
    (∀ totalVote data, totalVote.balance ≤ u128Max → (∀ e ∈ data, e.2 ≤ u128Max) →
      Distributes totalVote data) ∧
    (∀ vote, vote.balance ≤ u128Max → Computes s vtoken vote) ∧
    (∀ totalVote, totalVote.balance ≤ u128Max → Allocates s vtoken poll totalVote) ∧
    ∀ vote totalVote votes cap, vote.balance ≤ u128Max → s.voteCap vtoken = .ok cap →
      cap < u128Max → s.computeDelegatorTotalVote vtoken vote = .ok totalVote →
      s.allocateDelegatorVotes vtoken poll totalVote = .ok votes →
      ∃ token, vtoken.toToken = some token ∧
        Fills vote.asStandard vote.strength 11 (s.derivatives vtoken poll token) votes := by
  refine ⟨fun totalVote data htotal hdata => distributes totalVote htotal hdata,
    fun vote hvote => computes hvote, fun totalVote htotal => allocates htotal hstake, ?_⟩
  intro vote totalVote votes cap hvote hcap hsmall hcompute hallocate
  have htotals : Computes s vtoken vote := computes hvote
  unfold Computes at htotals
  rw [hcompute] at htotals
  have hallocates : Allocates s vtoken poll totalVote := allocates htotals.balance_le hstake
  unfold Allocates at hallocates
  rw [hallocate] at hallocates
  obtain ⟨token, htoken, hfills, -⟩ := hallocates
  have htotal := htotals.short cap hcap hsmall
  have hle := htotals.le
  have hfilled := hfills.le
  have hshort := hfills.short
  refine ⟨token, htoken, hfills.once, hfills.within, ?_, by omega, by omega⟩
  rw [← htotals.onSide]
  exact hfills.onSide

namespace Sample

/-- Three derivative accounts with a stake of 5 each, and a cap of half of 20 tokens. -/
def thin : Config ℕ := { config with getStakeInfo := fun _ _ _ => some (5, 5) }

def capped : State thin :=
  genesis thin (fun _ => [5, 6, 7]) timeouts (fun _ => ⟨500000000, by decide⟩) wealth
    (⟨20, 20⟩ : Supplies) (0 : ℕ)

end Sample

/-- Of 59 votes, 54 are left by the total vote and 50 by the distribution. -/
theorem derivative_votes_fair_capped :
    ∃ token, vdot.toToken = some token ∧ Fills (some true) 59 11
      (Sample.capped.derivatives vdot 1 token)
      [(5, Sample.aye .locked6x 5), (6, Sample.aye .locked5x 4)] :=
  (derivative_votes_fair Sample.capped vdot 1 fun _ _ => (by decide : 5 ≤ u128Max)).2.2.2
    (Sample.aye .locked1x 59) (Sample.aye .locked6x 9) _ 10 (by decide) rfl (by decide) rfl rfl

/-- A vote that abstains has no total vote; 66 votes are above the cap, with derivative accounts
for 90; and of 59 votes 50 are allocated. -/
theorem derivative_votes_not_exact :
    Sample.capped.computeDelegatorTotalVote vdot (.splitAbstain 0 0 10) =
        .error (.pallet .notStandardVote) ∧
      (Sample.aye .locked1x 66).strength = 66 ∧
      Sample.capped.computeDelegatorTotalVote vdot (Sample.aye .locked1x 66) =
        .error (.pallet .insufficientFunds) ∧
      (∃ token, vdot.toToken = some token ∧
        capacity (Sample.capped.derivatives vdot 1 token) = 90) ∧
      (Sample.aye .locked1x 59).strength = 59 ∧
      Sample.capped.computeDelegatorTotalVote vdot (Sample.aye .locked1x 59) =
        .ok (Sample.aye .locked6x 9) ∧
      ∃ votes, Sample.capped.allocateDelegatorVotes vdot 1 (Sample.aye .locked6x 9) = .ok votes ∧
        allocated votes = 50 :=
  ⟨rfl, by decide, rfl, ⟨_, rfl, by decide⟩, by decide, rfl, _, rfl, by decide⟩

end Bifrost.VtokenVoting
