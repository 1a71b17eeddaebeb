import Bifrost.Farming.Rewards

/-!
# The boost rounds

`boost.rs`. Accounts vote with their bb-bnc balance for whitelisted pools; when a round begins
the votes of the last one are turned into rewards and the tallies are cleared.
`refresh_vebnc_farming` has no caller and is left out.
-/

namespace Bifrost.Farming

open Result
set_option autoImplicit false

variable {AccountId : Type} [DecidableEq AccountId] {cfg : Config AccountId}

/-- A loop of a hook: what was done before the first failure stays done. -/
def untilFailure {σ α : Type} (f : σ → α → σ × Option Fault) : σ → List α → σ × Option Fault
  | s, [] => (s, none)
  | s, a :: as =>
    match f s a with
    | (s', none) => untilFailure f s' as
    | (s', some e) => (s', some e)

def State.setBoost (s : State cfg) (boost : Boost AccountId) : State cfg :=
  { s with boost := boost }

def boostProportions (s : State cfg) (info : BoostPoolInfo) : List (ℕ × ℕ × CurrencyId) :=
  (cfg.poolOrder.arrange s.boost.votingPools.keys).flatMap fun pid =>
    match s.boost.votingPools.get pid, s.poolInfos pid with
    | some value, some pool =>
      pool.basicRewards.keys.map fun c => (pid, Percent.rational value info.totalVotes, c)
    | _, _ => []

/-- The reward of a block is `none` where the round has no length. -/
def sendBoostReward (roundLength : ℕ) (s : State cfg) (entry : ℕ × ℕ × CurrencyId) :
    State cfg × Option Fault :=
  let (pid, proportion, c) := entry
  let transferBalance :=
    cfg.currencies.freeBalance s.ledger c cfg.farmingBoost * proportion / Percent.accuracy
  let reward := U128.checkedDiv transferBalance roundLength
  let s := s.setBoost { s.boost with
    basicRewards := Function.update s.boost.basicRewards pid
      (Function.update (s.boost.basicRewards pid) c reward) }
  match cfg.currencies.transfer s.ledger c cfg.farmingBoost (cfg.rewardIssuer pid)
      transferBalance with
  | .ok ledger => ({ s with ledger := ledger }, none)
  | .error e => (s, some (.token e))

def sendBoostRewards (s : State cfg) (info : BoostPoolInfo) : State cfg × Option Fault :=
  untilFailure (sendBoostReward info.roundLength) s (boostProportions s info)

def startBoostRoundInner (s : State cfg) (roundLength : ℕ) : Except Fault (State cfg) := do
  ensure (roundLength ≠ 0) (.pallet .roundLengthNotSet)
  ensure (s.boost.poolInfo.endRound = 0) (.pallet .roundNotOver)
  ensure (s.boost.nextRoundWhitelist = ∅ → s.boost.whitelist ≠ ∅) (.pallet .whitelistEmpty)
  let s := s.setBoost { s.boost with
    whitelist := if s.boost.nextRoundWhitelist = ∅ then s.boost.whitelist
      else s.boost.nextRoundWhitelist
    nextRoundWhitelist := ∅ }
  let info : BoostPoolInfo :=
    { startRound := s.blockNumber
      endRound := min (s.blockNumber + roundLength) (2 ^ 32 - 1)
      totalVotes := 0
      roundLength := roundLength }
  match sendBoostRewards s info with
  | (_, some e) => .error e
  | (s, none) => pure (s.setBoost { s.boost with poolInfo := info, votingPools := ∅ })

def endBoostRoundInner (s : State cfg) : State cfg :=
  s.setBoost { s.boost with
    basicRewards := fun _ _ => none
    poolInfo := { s.boost.poolInfo with startRound := 0, endRound := 0 } }

/-- Only used in the hook. The whitelist is cleared before the iterator over it is read, so that
a whitelist for the next round leaves none; a failure to send is an event. -/
def autoStartBoostRound (s : State cfg) : State cfg :=
  if s.boost.nextRoundWhitelist = ∅ ∧ s.boost.whitelist = ∅ then s
  else
    let s := s.setBoost { s.boost with
      whitelist := if s.boost.nextRoundWhitelist = ∅ then s.boost.whitelist else ∅
      nextRoundWhitelist := ∅ }
    let info := s.boost.poolInfo
    let s := (sendBoostRewards s info).1
    s.setBoost { s.boost with
      poolInfo := { info with
        startRound := s.blockNumber
        endRound := min (s.blockNumber + info.roundLength) (2 ^ 32 - 1)
        totalVotes := 0 }
      votingPools := ∅ }

def subtractVotes (votingPools : Table ℕ ℕ) (amount : ℕ) (voteList : List (ℕ × Percent)) :
    Except Fault (Table ℕ ℕ) :=
  voteList.foldlM (fun pools (pid, proportion) => do
    let total ← okOr (pools.get pid) (.pallet .nobodyVoting)
    let total ← okOr (U128.checkedSub total (proportion.mul amount)) .overflow
    pure (pools.write pid (some total))) votingPools

/-- The loop over a vote list: the percentage so far, the tallies and the total. -/
structure VoteCount where
  percentCheck : Percent
  votingPools : Table ℕ ℕ
  totalVotes : ℕ

def countVote (whitelist : Finset ℕ) (amount : ℕ) (count : VoteCount) (vote : ℕ × Percent) :
    Except Fault VoteCount := do
  let (pid, proportion) := vote
  ensure (pid ∈ whitelist) (.pallet .notInWhitelist)
  let increase := proportion.mul amount
  let percentCheck ← okOr (count.percentCheck.checkedAdd proportion) (.pallet .percentOverflow)
  let total ← okOr (U128.checkedAdd ((count.votingPools.get pid).getD 0) increase) .overflow
  let totalVotes ← okOr (U128.checkedAdd count.totalVotes amount) .overflow
  pure ⟨percentCheck, count.votingPools.write pid (some total), totalVotes⟩

/-- "If the user's last voting block height is greater than or equal to the block height at the
beginning of this round, subtract." -/
def takeBackVote (boost : Boost AccountId) (who : AccountId) :
    Except Fault (Table ℕ ℕ × ℕ) :=
  match boost.users.get who with
  | none => pure (boost.votingPools, boost.poolInfo.totalVotes)
  | some user =>
    if boost.poolInfo.startRound ≤ user.lastVote then do
      let votingPools ← subtractVotes boost.votingPools user.voteAmount user.voteList
      let totalVotes ←
        okOr (U128.checkedSub boost.poolInfo.totalVotes user.voteAmount) .overflow
      pure (votingPools, totalVotes)
    else pure (boost.votingPools, boost.poolInfo.totalVotes)

def voteInner (s : State cfg) (who : AccountId) (voteList : List (ℕ × Percent)) :
    Except Fault (State cfg) := do
  let (votingPools, totalVotes) ← takeBackVote s.boost who
  let newVoteAmount ← okOr (s.bbBalance who) .bbBnc
  let count ← voteList.foldlM (countVote s.boost.whitelist newVoteAmount)
    ⟨.zero, votingPools, totalVotes⟩
  ensure (voteList.length ≤ cfg.whitelistMaximumLimit) (.pallet .whitelistLimitExceeded)
  let user : UserBoostInfo :=
    { voteAmount := newVoteAmount
      voteList := voteList
      lastVote := s.blockNumber }
  pure (s.setBoost { s.boost with
    poolInfo := { s.boost.poolInfo with totalVotes := count.totalVotes }
    votingPools := count.votingPools
    users := s.boost.users.write who (some user) })

end Bifrost.Farming
