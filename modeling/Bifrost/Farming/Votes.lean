import Bifrost.Farming.Moves

/-!
# The tallies of a boost round

During a round the tallies are sums over the votes cast in it. A vote is added to the total once
for every entry of its list and taken back once, so the sum survives lists of one entry, and any
list of an account without balance. A vote cast in the block in which a round is then started
counts as a vote of that round, whose tallies do not have it.
-/

namespace Bifrost.Farming

open Result Machine
set_option autoImplicit false

/-! What one vote gives. -/

def votesFor (voteList : List (ℕ × Percent)) (amount pid : ℕ) : ℕ :=
  (voteList.map fun vote => if vote.1 = pid then vote.2.mul amount else 0).sum

@[simp] theorem votesFor_nil (amount pid : ℕ) : votesFor [] amount pid = 0 := rfl

theorem votesFor_cons (vote : ℕ × Percent) (voteList : List (ℕ × Percent)) (amount pid : ℕ) :
    votesFor (vote :: voteList) amount pid =
      (if vote.1 = pid then vote.2.mul amount else 0) + votesFor voteList amount pid := by
  simp [votesFor]

theorem percent_mul_zero (p : Percent) : p.mul 0 = 0 := by
  simp [Percent.mul, PerThing.mulNearest]

theorem votesFor_zero (voteList : List (ℕ × Percent)) (pid : ℕ) : votesFor voteList 0 pid = 0 := by
  induction voteList with
  | nil => rfl
  | cons vote voteList ih => simp [votesFor_cons, ih, percent_mul_zero]

/-- What a user adds to the total, and to one pool, when the vote is one of the round. -/
def UserBoostInfo.total (startRound : ℕ) (user : UserBoostInfo) : ℕ :=
  if startRound ≤ user.lastVote then user.voteAmount else 0

def UserBoostInfo.contribution (startRound pid : ℕ) (user : UserBoostInfo) : ℕ :=
  if startRound ≤ user.lastVote then votesFor user.voteList user.voteAmount pid else 0

variable {AccountId : Type} [DecidableEq AccountId] {cfg : Config AccountId} {s s' : State cfg}

/-- The tallies agree with the votes. -/
structure Boost.Tallied (boost : Boost AccountId) : Prop where
  total : boost.poolInfo.totalVotes =
    Table.sum (fun _ user => user.total boost.poolInfo.startRound) boost.users
  pools : ∀ pid, (boost.votingPools.get pid).getD 0 =
    Table.sum (fun _ user => user.contribution boost.poolInfo.startRound pid) boost.users

def Boost.InRound (boost : Boost AccountId) : Prop := boost.poolInfo.endRound ≠ 0

instance (boost : Boost AccountId) : Decidable boost.InRound :=
  inferInstanceAs (Decidable (boost.poolInfo.endRound ≠ 0))

structure Replaced (boost boost' : Boost AccountId) (who : AccountId) : Prop where
  total : boost'.poolInfo.totalVotes +
      ((boost.users.get who).elim 0 (UserBoostInfo.total boost.poolInfo.startRound)) =
    boost.poolInfo.totalVotes +
      ((boost'.users.get who).elim 0 (UserBoostInfo.total boost.poolInfo.startRound))
  pools : ∀ pid, (boost'.votingPools.get pid).getD 0 +
      ((boost.users.get who).elim 0 (UserBoostInfo.contribution boost.poolInfo.startRound pid)) =
    (boost.votingPools.get pid).getD 0 +
      ((boost'.users.get who).elim 0 (UserBoostInfo.contribution boost.poolInfo.startRound pid))

/-- Votes of a round have lists of one entry, or no weight; no vote with weight is older than a
round that starts in its block. -/
def KeepsTallies (s : State cfg) : Call cfg → Prop
  | .vote who voteList =>
    s.boost.InRound → voteList.length = 1 ∨ s.bbBalance who = some 0
  | .startBoostRound _ => ∀ who user, s.boost.users.get who = some user →
    user.lastVote = s.blockNumber → user.voteAmount = 0
  | _ => True

/-! The loops over a vote list. -/

theorem subtractVotes_ok {voteList : List (ℕ × Percent)} {pools pools' : Table ℕ ℕ} {amount : ℕ}
    (h : subtractVotes pools amount voteList = .ok pools') (pid : ℕ) :
    (pools'.get pid).getD 0 + votesFor voteList amount pid = (pools.get pid).getD 0 := by
  unfold subtractVotes at h
  induction voteList generalizing pools with
  | nil =>
    simp only [List.foldlM_nil, pure_eq_ok] at h
    simp [h]
  | cons vote voteList ih =>
    simp only [List.foldlM_cons, bind_eq_ok, okOr_eq_ok, pure_eq_ok,
      U128.checkedSub_eq_some] at h
    obtain ⟨_, ⟨total, htotal, rest, ⟨hle, rfl⟩, rfl⟩, h⟩ := h
    have hrec := ih h
    rw [Table.get_write] at hrec
    rw [votesFor_cons]
    by_cases hpid : pid = vote.1
    · subst pid
      rw [if_pos rfl] at hrec ⊢
      rw [htotal]
      simp only [Option.getD_some] at hrec ⊢
      omega
    · rw [if_neg hpid] at hrec
      rw [if_neg (Ne.symm hpid)]
      omega

theorem countVote_ok {whitelist : Finset ℕ} {amount : ℕ} {count count' : VoteCount}
    {vote : ℕ × Percent} (h : countVote whitelist amount count vote = .ok count') :
    count'.totalVotes = count.totalVotes + amount ∧
    ∀ pid, (count'.votingPools.get pid).getD 0 = (count.votingPools.get pid).getD 0 +
      if vote.1 = pid then vote.2.mul amount else 0 := by
  simp only [countVote, bind_eq_ok, ensure_eq_ok, okOr_eq_ok, pure_eq_ok,
    U128.checkedAdd_eq_some] at h
  obtain ⟨-, -, -, -, total, ⟨htotal, -⟩, totalVotes, ⟨hvotes, -⟩, rfl⟩ := h
  refine ⟨hvotes.symm, fun pid => ?_⟩
  rw [Table.get_write]
  by_cases hpid : pid = vote.1
  · subst pid
    simp [htotal]
  · simp [hpid, Ne.symm hpid]

theorem countVotes_ok {whitelist : Finset ℕ} {amount : ℕ} {voteList : List (ℕ × Percent)}
    {count count' : VoteCount}
    (h : voteList.foldlM (countVote whitelist amount) count = .ok count') :
    count'.totalVotes = count.totalVotes + voteList.length * amount ∧
    ∀ pid, (count'.votingPools.get pid).getD 0 = (count.votingPools.get pid).getD 0 +
      votesFor voteList amount pid := by
  induction voteList generalizing count with
  | nil =>
    simp only [List.foldlM_nil, pure_eq_ok] at h
    simp [h]
  | cons vote voteList ih =>
    simp only [List.foldlM_cons, bind_eq_ok] at h
    obtain ⟨count₁, hvote, h⟩ := h
    obtain ⟨htotal, hpools⟩ := countVote_ok hvote
    obtain ⟨htotal', hpools'⟩ := ih h
    constructor
    · rw [htotal', htotal, List.length_cons, Nat.succ_mul]
      omega
    · intro pid
      rw [hpools', hpools, votesFor_cons]
      omega

theorem takeBackVote_ok {boost : Boost AccountId} {who : AccountId} {pools : Table ℕ ℕ}
    {total : ℕ} (h : takeBackVote boost who = .ok (pools, total)) :
    total + ((boost.users.get who).elim 0 (UserBoostInfo.total boost.poolInfo.startRound)) =
      boost.poolInfo.totalVotes ∧
    ∀ pid, (pools.get pid).getD 0 +
        ((boost.users.get who).elim 0
          (UserBoostInfo.contribution boost.poolInfo.startRound pid)) =
      (boost.votingPools.get pid).getD 0 := by
  unfold takeBackVote at h
  cases huser : boost.users.get who with
  | none =>
    simp only [huser, pure_eq_ok, Prod.mk.injEq] at h
    obtain ⟨rfl, rfl⟩ := h
    exact ⟨rfl, fun _ => rfl⟩
  | some user =>
    simp only [huser] at h
    simp only [Option.elim_some, UserBoostInfo.total, UserBoostInfo.contribution]
    split at h
    · rename_i hround
      simp only [bind_eq_ok, okOr_eq_ok, pure_eq_ok, U128.checkedSub_eq_some,
        Prod.mk.injEq] at h
      obtain ⟨pools', hpools, total', ⟨hle, rfl⟩, rfl, rfl⟩ := h
      rw [if_pos hround]
      refine ⟨by omega, fun pid => ?_⟩
      rw [if_pos hround]
      exact subtractVotes_ok hpools pid
    · rename_i hround
      simp only [pure_eq_ok, Prod.mk.injEq] at h
      obtain ⟨rfl, rfl⟩ := h
      rw [if_neg hround]
      refine ⟨rfl, fun pid => ?_⟩
      rw [if_neg hround]
      rfl

theorem voteInner_ok {who : AccountId} {voteList : List (ℕ × Percent)}
    (h : voteInner s who voteList = .ok s') :
    ∃ amount, s.bbBalance who = some amount ∧ s'.blockNumber = s.blockNumber ∧
      s'.boost.poolInfo.startRound = s.boost.poolInfo.startRound ∧
      s'.boost.poolInfo.endRound = s.boost.poolInfo.endRound ∧
      s'.boost.users = s.boost.users.write who (some ⟨amount, voteList, s.blockNumber⟩) ∧
      s'.boost.poolInfo.totalVotes + ((s.boost.users.get who).elim 0
          (UserBoostInfo.total s.boost.poolInfo.startRound)) =
        s.boost.poolInfo.totalVotes + voteList.length * amount ∧
      ∀ pid, (s'.boost.votingPools.get pid).getD 0 + ((s.boost.users.get who).elim 0
          (UserBoostInfo.contribution s.boost.poolInfo.startRound pid)) =
        (s.boost.votingPools.get pid).getD 0 + votesFor voteList amount pid := by
  simp only [voteInner, bind_eq_ok, okOr_eq_ok, ensure_eq_ok, pure_eq_ok] at h
  obtain ⟨⟨pools, total⟩, hback, amount, hamount, count, hcount, -, -, rfl⟩ := h
  obtain ⟨hbackTotal, hbackPools⟩ := takeBackVote_ok hback
  obtain ⟨hcountTotal, hcountPools⟩ := countVotes_ok hcount
  refine ⟨amount, hamount, rfl, rfl, rfl, rfl, ?_, fun pid => ?_⟩
  · have hcountTotal' : count.totalVotes = total + voteList.length * amount := hcountTotal
    change count.totalVotes + _ = _
    omega
  · have hpid := hbackPools pid
    have hpid' : (count.votingPools.get pid).getD 0 =
      (pools.get pid).getD 0 + votesFor voteList amount pid := hcountPools pid
    change (count.votingPools.get pid).getD 0 + _ = _
    omega

/-! The invariant. -/

/-- Votes lie in the past, and so does the start of the round. -/
structure VotesInv (s : State cfg) : Prop where
  past : ∀ who user, s.boost.users.get who = some user → user.lastVote ≤ s.blockNumber
  started : s.boost.InRound → s.boost.poolInfo.startRound ≤ s.blockNumber
  tallied : s.boost.InRound → s.boost.Tallied

theorem VotesInv.of_context (hs : VotesInv s)
    (h : s'.boost = s.boost ∧ s'.blockNumber = s.blockNumber) : VotesInv s' := by
  obtain ⟨hboost, hblock⟩ := h
  constructor
  · rw [hboost, hblock]
    exact hs.past
  · rw [hboost, hblock]
    exact hs.started
  · rw [hboost]
    exact hs.tallied

theorem vote_replaced {who : AccountId} {voteList : List (ℕ × Percent)} (hs : VotesInv s)
    (hround : s.boost.InRound) (hok : KeepsTallies s (.vote who voteList))
    (h : voteInner s who voteList = .ok s') : Replaced s.boost s'.boost who := by
  obtain ⟨amount, hamount, -, -, -, husers, htotal, hpools⟩ := voteInner_ok h
  have hstart := hs.started hround
  constructor
  · rw [htotal, husers, Table.get_write_self]
    simp only [Option.elim_some, UserBoostInfo.total]
    rw [if_pos hstart]
    rcases hok hround with hone | hzero
    · rw [hone, Nat.one_mul]
    · rw [hamount] at hzero
      cases hzero
      rfl
  · intro pid
    rw [hpools, husers, Table.get_write_self]
    simp only [Option.elim_some, UserBoostInfo.contribution]
    rw [if_pos hstart]

theorem sum_users_write (f : UserBoostInfo → ℕ) (users : Table AccountId UserBoostInfo)
    (who : AccountId) (user : UserBoostInfo) :
    Table.sum (fun _ u => f u) (users.write who (some user)) + (users.get who).elim 0 f =
      Table.sum (fun _ u => f u) users + f user := by
  have hsum := Table.sum_write (fun _ u => f u) users who (some user)
  rw [Table.weight_some] at hsum
  have hweight : Table.weight (fun _ u => f u) who (users.get who) = (users.get who).elim 0 f := by
    cases users.get who <;> rfl
  omega

theorem vote_inv {who : AccountId} {voteList : List (ℕ × Percent)} (hs : VotesInv s)
    (hok : KeepsTallies s (.vote who voteList)) (h : voteInner s who voteList = .ok s') :
    VotesInv s' := by
  obtain ⟨amount, -, hblock, hstart, hend, husers, -, -⟩ := voteInner_ok h
  constructor
  · intro w user hw
    rw [husers, Table.get_write] at hw
    rw [hblock]
    split at hw
    · cases hw
      exact Nat.le_refl _
    · exact hs.past w user hw
  · intro hround
    rw [hstart, hblock]
    apply hs.started
    rw [Boost.InRound, ← hend]
    exact hround
  · intro hround'
    have hround : s.boost.InRound := by
      rw [Boost.InRound, ← hend]
      exact hround'
    have hreplaced := vote_replaced hs hround hok h
    have htallied := hs.tallied hround
    constructor
    · have hsum := sum_users_write (UserBoostInfo.total s.boost.poolInfo.startRound)
        s.boost.users who ⟨amount, voteList, s.blockNumber⟩
      have htotal := hreplaced.total
      have hbefore := htallied.total
      rw [husers, Table.get_write_self, Option.elim_some] at htotal
      rw [hstart, husers]
      omega
    · intro pid
      have hsum := sum_users_write (UserBoostInfo.contribution s.boost.poolInfo.startRound pid)
        s.boost.users who ⟨amount, voteList, s.blockNumber⟩
      have hpool := hreplaced.pools pid
      have hbefore := htallied.pools pid
      rw [husers, Table.get_write_self, Option.elim_some] at hpool
      rw [hstart, husers]
      omega

theorem tallied_start {boost : Boost AccountId} (hpools : boost.votingPools = ∅)
    (htotal : boost.poolInfo.totalVotes = 0)
    (hvotes : ∀ who user, boost.users.get who = some user →
      boost.poolInfo.startRound ≤ user.lastVote → user.voteAmount = 0) : boost.Tallied := by
  constructor
  · rw [htotal, ← Table.sum_zero boost.users]
    apply Table.sum_congr
    rintro ⟨who, user⟩ he
    simp only [UserBoostInfo.total]
    split
    · rename_i hround
      exact (hvotes who user (Table.mem_entries.mp he) hround).symm
    · rfl
  · intro pid
    rw [hpools, Table.get_empty, Option.getD_none, ← Table.sum_zero boost.users]
    apply Table.sum_congr
    rintro ⟨who, user⟩ he
    simp only [UserBoostInfo.contribution]
    split
    · rename_i hround
      rw [hvotes who user (Table.mem_entries.mp he) hround, votesFor_zero]
    · rfl

theorem startBoostRound_inv {roundLength : ℕ} (hs : VotesInv s)
    (hok : KeepsTallies s (.startBoostRound roundLength))
    (h : startBoostRoundInner s roundLength = .ok s') : VotesInv s' := by
  obtain ⟨ledger, boost, rfl, husers, hpools, htotal, hstart⟩ := startBoostRoundInner_ok h
  constructor
  · intro who user hwho
    exact hs.past who user (husers ▸ hwho)
  · intro _
    exact hstart.le
  · intro _
    refine tallied_start hpools htotal ?_
    intro who user hwho hround
    rw [husers] at hwho
    rw [hstart] at hround
    exact hok who user hwho (Nat.le_antisymm (hs.past who user hwho) hround)

theorem nextRound_inv (hs : VotesInv s) (hpast : ∀ who user, s.boost.users.get who = some user →
    user.lastVote < s.blockNumber) : VotesInv (nextRound s) := by
  unfold nextRound
  split
  · rcases autoStartBoostRound_rest (endBoostRoundInner s) with
      hstay | ⟨ledger, boost, hauto, husers, hpools, htotal, hstart⟩
    · rw [hstay]
      exact ⟨hs.past, fun hround => absurd rfl hround, fun hround => absurd rfl hround⟩
    · rw [hauto]
      have hvotes : ∀ who user, boost.users.get who = some user →
          user.lastVote < s.blockNumber := by
        intro who user hwho
        rw [husers] at hwho
        exact hpast who user hwho
      constructor
      · intro who user hwho
        exact (hvotes who user hwho).le
      · intro _
        exact hstart.le
      · intro _
        refine tallied_start hpools htotal ?_
        intro who user hwho hround
        have hlt := hvotes who user hwho
        rw [hstart] at hround
        exact absurd hround (Nat.not_le.mpr hlt)
  · exact hs

theorem onInitialize_inv (hs : VotesInv s) : VotesInv (onInitialize s) := by
  apply nextRound_inv
  · refine ⟨?_, ?_, hs.tallied⟩
    · intro who user hwho
      exact Nat.le_succ_of_le (hs.past who user hwho)
    · intro hround
      exact Nat.le_succ_of_le (hs.started hround)
  · intro who user hwho
    exact Nat.lt_succ_of_le (hs.past who user hwho)

theorem addWhitelist_votes (whitelist : List ℕ) (pools : Table ℕ ℕ) (pid : ℕ) :
    ((whitelist.foldl (fun pools pid => pools.write pid (some ((pools.get pid).getD 0)))
      pools).get pid).getD 0 = (pools.get pid).getD 0 := by
  induction whitelist generalizing pools with
  | nil => rfl
  | cons j whitelist ih =>
    rw [List.foldl_cons, ih, Table.get_write]
    by_cases hj : pid = j
    · subst pid
      simp
    · simp [hj]

theorem step_votesInv {c : Call cfg} (hs : VotesInv s) (hok : KeepsTallies s c)
    (h : step s c = .ok s') : VotesInv s' := by
  by_cases hc : c.Boosts
  · cases c <;> simp only [Call.Boosts] at hc
    case addBoostPoolWhitelist whitelist =>
      cases h
      refine ⟨hs.past, hs.started, fun hround => ⟨(hs.tallied hround).total, fun pid => ?_⟩⟩
      exact (addWhitelist_votes whitelist s.boost.votingPools pid).trans
        ((hs.tallied hround).pools pid)
    case setNextRoundWhitelist =>
      cases h
      exact ⟨hs.past, hs.started, fun hround => ⟨(hs.tallied hround).total,
        (hs.tallied hround).pools⟩⟩
    case vote who voteList => exact vote_inv hs hok h
    case startBoostRound roundLength => exact startBoostRound_inv hs hok h
    case endBoostRound =>
      cases h
      exact ⟨hs.past, fun hround => absurd rfl hround, fun hround => absurd rfl hround⟩
    case onInitialize =>
      cases h
      exact onInitialize_inv hs
  · exact hs.of_context (step_boost hc h)

theorem genesis_votesInv (ledger : cfg.currencies.Ledger) (bbBalance : AccountId → Option ℕ)
    (n : ℕ) : VotesInv (genesis cfg ledger bbBalance n) := by
  refine ⟨?_, fun hround => absurd rfl hround, fun hround => absurd rfl hround⟩
  intro who user hwho
  have hnone : (genesis cfg ledger bbBalance n).boost.users.get who = none := Table.get_empty who
  rw [hnone] at hwho
  contradiction

/-- In every state of a run whose votes and round starts meet `KeepsTallies`, the tallies of a
running round are the sums over the votes of the round, and the next such vote of an account
takes the place of its last one. -/
theorem tallies_agree (ledger : cfg.currencies.Ledger) (bbBalance : AccountId → Option ℕ) (n : ℕ)
    (calls : List (Call cfg)) (h : Meets step KeepsTallies (genesis cfg ledger bbBalance n) calls)
    (hround : (run step (genesis cfg ledger bbBalance n) calls).boost.InRound) :
    (run step (genesis cfg ledger bbBalance n) calls).boost.Tallied ∧
    ∀ who voteList s', KeepsTallies (run step (genesis cfg ledger bbBalance n) calls)
        (.vote who voteList) →
      step (run step (genesis cfg ledger bbBalance n) calls) (.vote who voteList) = .ok s' →
      Replaced (run step (genesis cfg ledger bbBalance n) calls).boost s'.boost who := by
  have hinv : VotesInv (run step (genesis cfg ledger bbBalance n) calls) :=
    run_invariant (I := VotesInv) (fun _ _ _ hs hok hstep => step_votesInv hs hok hstep) calls
      (genesis_votesInv ledger bbBalance n) h
  refine ⟨hinv.tallied hround, fun who voteList s' hok hvote => ?_⟩
  exact vote_replaced hinv hround hok hvote

namespace Sample

def voters : State config := genesis config ⟨fun _ _ => 0, fun _ => 0⟩ (fun who => some who) 1

def half : Percent := .fromPercent 50
def whole : Percent := .fromPercent 100

def round : List (Call config) := [.addBoostPoolWhitelist [5, 6], .startBoostRound 10]

def votes : List (Call config) :=
  [.vote 7 [(5, half)], .vote 10 [(5, whole)], .onInitialize, .vote 7 [(6, whole)]]

def split : List (Call config) := [.vote 7 [(5, half), (6, half)]]

/-- The first vote of account 7 is cast before the round. -/
def early : List (Call config) :=
  [.addBoostPoolWhitelist [5], .vote 7 [(5, whole)], .startBoostRound 10, .vote 10 [(5, whole)],
    .vote 7 [(5, whole)]]

theorem round_meets : Meets step KeepsTallies voters round := by
  refine ⟨fun _ _ => trivial, fun _ _ who user hwho => ?_, trivial⟩
  have hnone : (exec step voters (.addBoostPoolWhitelist [5, 6])).boost.users.get who = none :=
    Table.get_empty who
  rw [hnone] at hwho
  contradiction

theorem votes_meet (s : State config) : Meets step KeepsTallies s votes :=
  ⟨fun _ _ _ => Or.inl rfl, fun _ _ _ => Or.inl rfl, fun _ _ => trivial,
    fun _ _ _ => Or.inl rfl, trivial⟩

end Sample

theorem tallies_agree_sample :
    (run step Sample.voters (Sample.round ++ Sample.votes)).boost.Tallied :=
  (@tallies_agree ℕ _ Sample.config ⟨fun _ _ => 0, fun _ => 0⟩ (fun who => some who) 1
    (Sample.round ++ Sample.votes)
    (meets_append Sample.round_meets (Sample.votes_meet _)) (by decide +kernel)).1

/-- The total has 14 for a vote of 7, and 10 for votes of 7 and 10. -/
theorem tallies_diverge :
    (run step Sample.voters (Sample.round ++ Sample.split)).boost.InRound ∧
    ¬ (run step Sample.voters (Sample.round ++ Sample.split)).boost.Tallied ∧
    (run step Sample.voters Sample.early).boost.InRound ∧
    ¬ (run step Sample.voters Sample.early).boost.Tallied := by
  refine ⟨by decide +kernel, fun h => ?_, by decide +kernel, fun h => ?_⟩
  · exact absurd h.total (by decide +kernel)
  · exact absurd h.total (by decide +kernel)

end Bifrost.Farming
