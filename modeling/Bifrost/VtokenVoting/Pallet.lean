import Bifrost.Lib.Table
import Bifrost.Primitives.LockableCurrencies
import Bifrost.VtokenVoting.Types

/-!
# The vtoken-voting pallet: storage and inner functions

`lib.rs` below its calls, with the two agents of `agents/`. The relay-chain agent sends the votes
away and leaves an entry for the response, the agent of Bifrost votes at once. Events are left
out; `sent` holds what the router has accepted.
-/

namespace Bifrost.VtokenVoting

open Result
set_option autoImplicit false

inductive LockIdentifier where
  | convictionVotingId
  | other
deriving DecidableEq

instance : Fintype LockIdentifier where
  elems := {.convictionVotingId, .other}
  complete := fun i => by cases i <;> decide

inductive Error where
  | xcmFailure | vtokenNotSupport | derivativeIndexOccupied | pendingVote | noData | notOngoing
  | notCompleted | notExpired | notVoter | noPermission | noPermissionYet | alreadyDelegating
  | insufficientFunds | maxVotesReached | tooMany | notStandardVote | outOfRange
  | invalidCallDispatch | nonsense | alreadyVoting | notDelegating | accessPollFailure
  | tooManyVotes | needPollIndex | alreadyCompleted | alreadyKilled
  | submittedBlockNumberMustBeBiggerThanStartBlockNumber
deriving DecidableEq, Repr

inductive Fault where
  | pallet (e : Error)
  | arithmetic (e : ArithmeticError)
  | token (e : TokenError)
  | badOrigin
deriving DecidableEq, Repr

inductive XcmOperationType where
  | vote | removeVote
deriving DecidableEq

/-- The votes of derivative accounts. -/
abbrev VoteItemList := List (ℕ × AccountVote)

inductive RemoteCall where
  | vote (votes : SortedMap ℕ VoteItemList)
  | removeVote (pollClass poll derivativeIndex : ℕ)

structure XcmMessage where
  queryId : ℕ
  call : RemoteCall
  weight : ℕ
  fee : ℕ

/-- A referendum of `pallet_referenda`, with the block it ended at. -/
inductive NativeReferendum where
  | approved (block : ℕ) | rejected (block : ℕ) | cancelled (block : ℕ) | timedOut (block : ℕ)
  | killed (block : ℕ) | ongoing

def vksm : CurrencyId := .vToken .KSM
def vdot : CurrencyId := .vToken2 0
def vbnc : CurrencyId := .vToken .BNC

/-- The runtime's choices and the traits the pallet calls, which act on `Outside`. -/
structure Config (AccountId : Type) [DecidableEq AccountId] where
  currencies : LockableCurrencies AccountId LockIdentifier
  totalBalance : currencies.Ledger → CurrencyId → AccountId → ℕ
  relayVCurrency : CurrencyId
  /-- The feature `polkadot`, which the agent of Bifrost needs. -/
  polkadot : Bool
  maxVotes : ℕ
  maxVotesPerDelegate : ℕ
  queryTimeout : ℕ
  referendumCheckInterval : ℕ
  palletAccount : AccountId
  Xcm : Type
  newNotifyQuery : Xcm → CurrencyId → ℕ → ℕ × Xcm
  Outside : Type
  sendXcm : Outside → XcmMessage → Option Outside
  /-- The votes dispatched by the sovereign account, all or none. -/
  dispatchVotes : Outside → SortedMap ℕ VoteItemList → Option Outside
  dispatchRemoveVote : Outside → ℕ → ℕ → ℕ → Option Outside
  getOperationWeightAndFee : Outside → CurrencyId → XcmOperationType → Option (ℕ × ℕ)
  getStakeInfo : Outside → CurrencyId → ℕ → Option (ℕ × ℕ)
  checkDerivativeIndexExists : Outside → CurrencyId → ℕ → Bool
  getVtokenSupply : Outside → CurrencyId → Option ℕ
  getTokenSupply : Outside → CurrencyId → Option ℕ
  nativeReferendum : Outside → ℕ → Option NativeReferendum

/-- What a vote has replaced on one poll: the vote of the account, with a balance, and the
referendum. -/
structure OldVote where
  poll : ℕ
  vote : Option (AccountVote × ℕ)
  info : Option ReferendumInfo
deriving DecidableEq

structure PendingVote (AccountId : Type) where
  vtoken : CurrencyId
  who : AccountId
  oldVotes : List OldVote

variable {AccountId : Type} [DecidableEq AccountId]

structure State (cfg : Config AccountId) where
  referendumInfoFor : CurrencyId → ℕ → Option ReferendumInfo
  votingFor : CurrencyId → Table AccountId (Voting AccountId)
  classLocksFor : AccountId → List (CurrencyId × ℕ)
  pendingReferendumInfo : ℕ → Option (CurrencyId × List ℕ)
  pendingVotingInfo : Table ℕ (PendingVote AccountId)
  pendingRemoveDelegatorVote : ℕ → Option (CurrencyId × ℕ × ℕ)
  voteLockingPeriod : CurrencyId → Option ℕ
  undecidingTimeout : CurrencyId → Option ℕ
  delegators : CurrencyId → List ℕ
  voteCapRatio : CurrencyId → Perbill
  delegatorVotes : CurrencyId → ℕ → VoteItemList
  pendingDelegatorVotes : CurrencyId → ℕ → VoteItemList
  referendumTimeout : CurrencyId → ℕ → List ℕ
  referendumVoteStatus : CurrencyId → ℕ → ReferendumVoteStatus
  ledger : cfg.currencies.Ledger
  outside : cfg.Outside
  xcm : cfg.Xcm
  sent : List XcmMessage
  localBlock : ℕ
  relayBlock : ℕ

variable {cfg : Config AccountId}

namespace State

/-! Storage. -/

def getVoting (s : State cfg) (vtoken : CurrencyId) (who : AccountId) : Voting AccountId :=
  ((s.votingFor vtoken).get who).getD .default

def setVoting (s : State cfg) (vtoken : CurrencyId) (who : AccountId)
    (voting : Voting AccountId) : State cfg :=
  let votings := (s.votingFor vtoken).write who (some voting)
  { s with votingFor := Function.update s.votingFor vtoken votings }

def setInfo (s : State cfg) (vtoken : CurrencyId) (poll : ℕ) (info : Option ReferendumInfo) :
    State cfg :=
  let infos := Function.update (s.referendumInfoFor vtoken) poll info
  { s with referendumInfoFor := Function.update s.referendumInfoFor vtoken infos }

def setDelegatorVotes (s : State cfg) (vtoken : CurrencyId) (poll : ℕ) (votes : VoteItemList) :
    State cfg :=
  let lists := Function.update (s.delegatorVotes vtoken) poll votes
  { s with delegatorVotes := Function.update s.delegatorVotes vtoken lists }

def setPendingDelegatorVotes (s : State cfg) (vtoken : CurrencyId) (poll : ℕ)
    (votes : VoteItemList) : State cfg :=
  let lists := Function.update (s.pendingDelegatorVotes vtoken) poll votes
  { s with pendingDelegatorVotes := Function.update s.pendingDelegatorVotes vtoken lists }

def setReferendumTimeout (s : State cfg) (vtoken : CurrencyId) (block : ℕ) (polls : List ℕ) :
    State cfg :=
  let lists := Function.update (s.referendumTimeout vtoken) block polls
  { s with referendumTimeout := Function.update s.referendumTimeout vtoken lists }

def setVoteStatus (s : State cfg) (vtoken : CurrencyId) (poll : ℕ)
    (status : ReferendumVoteStatus) : State cfg :=
  let statuses := Function.update (s.referendumVoteStatus vtoken) poll status
  { s with referendumVoteStatus := Function.update s.referendumVoteStatus vtoken statuses }

/-- The lock of the pallet on an account. -/
def convictionLock (s : State cfg) (vtoken : CurrencyId) (who : AccountId) : ℕ :=
  cfg.currencies.lock s.ledger .convictionVotingId vtoken who

end State

/-! Agents. -/

inductive Agent where
  | relaychain | bifrost
deriving DecidableEq, Repr

def getVotingAgent (cfg : Config AccountId) (vtoken : CurrencyId) : Except Fault Agent :=
  if vtoken = vksm ∨ vtoken = vdot then pure .relaychain
  else if vtoken = vbnc ∧ cfg.polkadot then pure .bifrost
  else .error (.pallet .vtokenNotSupport)

def ensureVtoken (cfg : Config AccountId) (vtoken : CurrencyId) : Except Fault PUnit :=
  ensure (vtoken = cfg.relayVCurrency ∨ vtoken = vbnc) (.pallet .vtokenNotSupport)

namespace State

def blockNumber (s : State cfg) : Agent → ℕ
  | .relaychain => s.relayBlock
  | .bifrost => s.localBlock

def getAgentBlockNumber (s : State cfg) (vtoken : CurrencyId) : Except Fault ℕ := do
  let agent ← getVotingAgent cfg vtoken
  pure (s.blockNumber agent)

/-! Referenda. -/

def ensureReferendumOngoing (s : State cfg) (vtoken : CurrencyId) (poll : ℕ) :
    Except Fault ReferendumStatus :=
  match s.referendumInfoFor vtoken poll with
  | some (.ongoing status) => pure status
  | _ => .error (.pallet .notOngoing)

def ensureNoPendingVote (s : State cfg) (vtoken : CurrencyId) (poll : ℕ) : Except Fault PUnit :=
  ensure (∀ e ∈ s.pendingVotingInfo.entries,
    ¬(e.2.vtoken = vtoken ∧ ∃ old ∈ e.2.oldVotes, old.poll = poll)) (.pallet .pendingVote)

def overReferendumInfoFor (s : State cfg) (vtoken : CurrencyId) (poll current : ℕ) : State cfg :=
  match s.referendumInfoFor vtoken poll with
  | some (.ongoing _) => s.setInfo vtoken poll (some (.completed current))
  | _ => s

def nativeReferendumVoteStatus (s : State cfg) (poll : ℕ) : ReferendumVoteStatus × Option ℕ :=
  match cfg.nativeReferendum s.outside poll with
  | some (.approved block) => (.approved, some block)
  | some (.rejected block) => (.rejected, some block)
  | some (.cancelled block) | some (.timedOut block) | some (.killed block) => (.none, some block)
  | some .ongoing | none => (.ongoing, none)

def removeReferendumTimeoutItem (s : State cfg) (vtoken : CurrencyId) (block poll : ℕ) :
    State cfg :=
  s.setReferendumTimeout vtoken block ((s.referendumTimeout vtoken block).erase poll)

def autoSyncNativeReferendumState (s : State cfg) (poll : ℕ) (timeOutBlock : Option ℕ) :
    State cfg :=
  if (s.referendumVoteStatus vbnc poll).isOver then s
  else
    let (status, block) := s.nativeReferendumVoteStatus poll
    if status.isOver then
      let s := s.overReferendumInfoFor vbnc poll (block.getD s.localBlock)
      let s := s.setVoteStatus vbnc poll status
      timeOutBlock.elim s fun due => s.removeReferendumTimeoutItem vbnc due poll
    else s

/-! Exchange rates. -/

/-- What `compute_token_vote` and `compute_token_balance` read: the supplies of the vToken and
of its token. -/
def supplies (s : State cfg) (vtoken : CurrencyId) : Except Fault (ℕ × ℕ) := do
  let token ← okOr vtoken.toToken (.pallet .noData)
  let vtokenSupply ← okOr (cfg.getVtokenSupply s.outside vtoken) (.pallet .noData)
  let tokenSupply ← okOr (cfg.getTokenSupply s.outside token) (.pallet .noData)
  pure (vtokenSupply, tokenSupply)

def computeTokenVote (s : State cfg) (vtoken : CurrencyId) (vote : AccountVote) :
    Except Fault AccountVote := do
  let (vtokenSupply, tokenSupply) ← s.supplies vtoken
  let vote ← okOr (vote.checkedMul tokenSupply) (.arithmetic .overflow)
  okOr (vote.checkedDiv vtokenSupply) (.arithmetic .divisionByZero)

def computeTokenBalance (s : State cfg) (vtoken : CurrencyId) (vtokenBalance : ℕ) :
    Except Fault ℕ := do
  let (vtokenSupply, tokenSupply) ← s.supplies vtoken
  let value ← okOr (U128.checkedMul vtokenBalance tokenSupply) (.pallet .noData)
  okOr (U128.checkedDiv value vtokenSupply) (.pallet .noData)

/-! Locks. -/

/-- The entry of the vToken in `ClassLocksFor`; a full list stays as it is. -/
def setClassLock (s : State cfg) (who : AccountId) (vtoken : CurrencyId) (amount : ℕ) : State cfg :=
  let locks := s.classLocksFor who
  let locks :=
    if vtoken ∈ locks.map Prod.fst then
      locks.map fun e => if e.1 = vtoken then (vtoken, amount) else e
    else if locks.length < cfg.maxVotes then locks ++ [(vtoken, amount)]
    else locks
  { s with classLocksFor := Function.update s.classLocksFor who locks }

def dropClassLock (s : State cfg) (who : AccountId) (vtoken : CurrencyId) : State cfg :=
  let locks := (s.classLocksFor who).filter fun e => e.1 ≠ vtoken
  { s with classLocksFor := Function.update s.classLocksFor who locks }

/-- A lock of nothing is removed. -/
def lay (s : State cfg) (who : AccountId) (vtoken : CurrencyId) (amount : ℕ) :
    Except Fault (State cfg) := do
  let ledger ← mapErr
    (if amount = 0 then cfg.currencies.removeLock s.ledger .convictionVotingId vtoken who
    else cfg.currencies.setLock s.ledger .convictionVotingId vtoken who amount) .token
  pure { s with ledger := ledger }

def setLock (s : State cfg) (who : AccountId) (vtoken : CurrencyId) (amount : ℕ) :
    Except Fault (State cfg) :=
  (s.setClassLock who vtoken amount).lay who vtoken amount

def updateLock (s : State cfg) (who : AccountId) (vtoken : CurrencyId) :
    Except Fault (State cfg) := do
  let current ← s.getAgentBlockNumber vtoken
  let voting := (s.getVoting vtoken who).rejig current
  let s := s.setVoting vtoken who voting
  let needed := voting.lockedBalance
  if needed = 0 then (s.dropClassLock who vtoken).lay who vtoken needed
  else (s.setClassLock who vtoken needed).lay who vtoken needed

/-! Votes. -/

/-- What `try_vote` does with the vote it replaces: the tally without it, and the vote with its
balance in tokens. -/
def takeBack (s : State cfg) (vtoken : CurrencyId) (poll : ℕ) (c : Casting) (tally : Tally) :
    Except Fault (Tally × Option (AccountVote × ℕ)) :=
  match c.votes.get poll with
  | some record => do
    let tally ← okOr (tally.discount record.vote c.delegations) (.arithmetic .underflow)
    let oldTokenBalance ← s.computeTokenBalance vtoken record.vtokenBalance
    pure (tally, some (record.vote, oldTokenBalance))
  | none => do
    ensure (c.votes.length < cfg.maxVotes) (.pallet .maxVotesReached)
    pure (tally, none)

/-- The old vote and the total vote of the poll are returned. -/
def tryVote (s : State cfg) (who : AccountId) (vtoken : CurrencyId) (poll : ℕ) (vote : AccountVote)
    (vtokenBalance : ℕ) : Except Fault (State cfg × Option (AccountVote × ℕ) × AccountVote) := do
  ensure (vtokenBalance ≤ cfg.totalBalance s.ledger vtoken who) (.pallet .insufficientFunds)
  let status ← s.ensureReferendumOngoing vtoken poll
  match s.getVoting vtoken who with
  | .casting c => do
    let (tally, oldVote) ← s.takeBack vtoken poll c status.tally
    let tally ← okOr (tally.count vote c.delegations) (.arithmetic .overflow)
    let voting : Voting AccountId :=
      .casting { c with votes := c.votes.insert poll ⟨vote, vtokenBalance⟩ }
    let s := s.setInfo vtoken poll (some (.ongoing { status with tally := tally }))
    let s ← (s.setVoting vtoken who voting).setLock who vtoken voting.lockedVtokenBalance
    pure (s, oldVote, tally.accountVote .locked1x)
  | .delegating _ => .error (.pallet .alreadyDelegating)

/-- Whether the outcome of the poll is against the vote, and the status that is stored. -/
def ensureEarlyUnlock (s : State cfg) (vtoken : CurrencyId) (poll : ℕ) (vote : AccountVote) :
    Bool × State cfg :=
  let (status, s) :=
    if vtoken = vbnc then
      let status := (s.nativeReferendumVoteStatus poll).1
      (status, if status.isOver then s.setVoteStatus vbnc poll status else s)
    else (s.referendumVoteStatus vtoken poll, s)
  match vote.isAyeDominant, status with
  | true, .rejected | false, .approved | _, .none => (true, s)
  | _, _ => (false, s)

/-- The prior lock once a vote on a poll that ended is removed. -/
def priorAfter (s : State cfg) (vtoken : CurrencyId) (record : VoteRecord) (prior : PriorLock)
    (ended : ℕ) (scope : UnvoteScope) : Except Fault PriorLock :=
  match record.vote.lockedIf false with
  | some (lockPeriods, _) => do
    let period ← okOr (s.voteLockingPeriod vtoken) (.pallet .noData)
    let unlockAt := U32.saturatingAdd ended (U32.saturatingMul period lockPeriods)
    let now ← s.getAgentBlockNumber vtoken
    if now < unlockAt then do
      ensure (scope = .any) (.pallet .noPermissionYet)
      pure (prior.accumulate unlockAt record.vtokenBalance)
    else pure prior
  | none => pure prior

def removeCast (s : State cfg) (who : AccountId) (vtoken : CurrencyId) (poll : ℕ) (c : Casting)
    (record : VoteRecord) (scope : UnvoteScope) : Except Fault (State cfg) :=
  let votes := c.votes.erase poll
  match s.referendumInfoFor vtoken poll with
  | some (.ongoing status) => do
    ensure (scope = .any) (.pallet .noPermission)
    let tally ← okOr (status.tally.discount record.vote c.delegations) (.arithmetic .underflow)
    pure ((s.setInfo vtoken poll (some (.ongoing { status with tally := tally }))).setVoting
      vtoken who (.casting { c with votes := votes }))
  | some (.completed ended) => do
    let (canUnlockEarly, s) := s.ensureEarlyUnlock vtoken poll record.vote
    if canUnlockEarly then pure (s.setVoting vtoken who (.casting { c with votes := votes }))
    else do
      let prior ← s.priorAfter vtoken record c.prior ended scope
      pure (s.setVoting vtoken who (.casting { c with votes := votes, prior := prior }))
  | _ => pure (s.setVoting vtoken who (.casting { c with votes := votes }))

def tryRemoveVote (s : State cfg) (who : AccountId) (vtoken : CurrencyId)
    (maybePoll : Option ℕ) (scope : UnvoteScope) : Except Fault (State cfg) :=
  match s.getVoting vtoken who, maybePoll with
  | .casting c, none => do
    ensure (c.votes.entries = []) (.pallet .needPollIndex)
    pure s
  | .casting c, some poll => do
    let record ← okOr (c.votes.get poll) (.pallet .notVoter)
    s.removeCast who vtoken poll c record scope
  | .delegating _, _ => pure s

/-! Responses. -/

def rollbackVote (who : AccountId) (vtoken : CurrencyId) (s : State cfg) (old : OldVote) :
    Except Fault (State cfg) := do
  let s ← s.tryRemoveVote who vtoken (some old.poll) .any
  match old.vote with
  | some (vote, vtokenBalance) => do
    let (s, _) ← s.tryVote who vtoken old.poll vote vtokenBalance
    pure (s.setInfo vtoken old.poll old.info)
  | none => pure (s.setInfo vtoken old.poll old.info)

/-- The referendum starts anew when a vote on it has arrived. -/
def restart (vtoken : CurrencyId) (s : State cfg) (poll : ℕ) : Except Fault (State cfg) :=
  match s.referendumInfoFor vtoken poll with
  | some (.ongoing status) => do
    let current ← s.getAgentBlockNumber vtoken
    let timeout ← okOr (s.undecidingTimeout vtoken) (.pallet .noData)
    let due := U32.saturatingAdd current timeout
    let polls := s.referendumTimeout vtoken due
    ensure (polls.length < 256) (.pallet .tooMany)
    pure ((s.setReferendumTimeout vtoken due (polls ++ [poll])).setInfo vtoken poll
      (some (.ongoing { status with submitted := current })))
  | _ => pure s

def confirmVote (vtoken : CurrencyId) (s : State cfg) (old : OldVote) : Except Fault (State cfg) :=
  let votes := s.pendingDelegatorVotes vtoken old.poll
  do
    ensure (votes.length ≤ 100) (.pallet .tooMany)
    ((s.setDelegatorVotes vtoken old.poll votes).setPendingDelegatorVotes vtoken old.poll
      []).restart vtoken old.poll

def clearPendingDelegatorVotes (s : State cfg) (vtoken : CurrencyId) : State cfg :=
  { s with pendingDelegatorVotes := Function.update s.pendingDelegatorVotes vtoken fun _ => [] }

def handleVoteResult (s : State cfg) (success : Bool) (who : AccountId) (vtoken : CurrencyId)
    (oldVotes : List OldVote) : Except Fault (State cfg) :=
  if success then oldVotes.foldlM (confirmVote vtoken) s
  else do
    let s ← oldVotes.foldlM (rollbackVote who vtoken) (s.clearPendingDelegatorVotes vtoken)
    s.updateLock who vtoken

def handleRemoveDelegatorVoteSuccess (s : State cfg) (vtoken : CurrencyId) (poll : ℕ) : State cfg :=
  s.setDelegatorVotes vtoken poll []

end State

/-! Delegator votes. -/

def voteToCapital (conviction : Conviction) (vote : ℕ) : ℕ :=
  match conviction with
  | .none => (U128.checkedMul vote 10).getD u128Max
  | x => vote / x.toNat

namespace State

def voteCap (s : State cfg) (vtoken : CurrencyId) : Except Fault ℕ := do
  let token ← okOr vtoken.toToken (.pallet .noData)
  let tokenSupply ← okOr (cfg.getTokenSupply s.outside token) (.pallet .noData)
  pure ((s.voteCapRatio vtoken).mul tokenSupply)

def computeDelegatorTotalVote (s : State cfg) (vtoken : CurrencyId) (vote : AccountVote) :
    Except Fault AccountVote := do
  let standard ← okOr vote.asStandardVote (.pallet .notStandardVote)
  let convictionVotes := (standard.conviction.votes vote.balance).votes
  let cap ← s.voteCap vtoken
  let conviction ← okOr (Conviction.all.find? fun x => voteToCapital x convictionVotes ≤ cap)
    (.pallet .insufficientFunds)
  pure (.standard ⟨standard.aye, conviction⟩ (voteToCapital conviction convictionVotes))

end State

/-- The loop of `distribute_votes_to_derivatives`: an account that covers what remains takes the
smallest conviction, the others give all they have. -/
def distribute (aye : Bool) (balance : ℕ) : ℕ → VoteItemList → List (ℕ × ℕ) →
    Except Fault VoteItemList
  | _, votes, [] => do
    ensure (balance = 0) (.pallet .outOfRange)
    pure votes
  | remaining, votes, (derivativeIndex, available) :: data =>
    let most := (Conviction.locked6x.votes available).votes
    if remaining = 0 then do
      ensure (balance = 0) (.pallet .outOfRange)
      pure votes
    else if most = 0 then distribute aye balance remaining votes data
    else if remaining ≤ most then
      match Conviction.all.find? fun x => remaining ≤ (x.votes available).votes with
      | some x => pure (votes ++
          [(derivativeIndex, .standard ⟨aye, x⟩ (voteToCapital x remaining))])
      | none => distribute aye balance remaining votes data
    else
      distribute aye balance (remaining - most)
        (votes ++ [(derivativeIndex, .standard ⟨aye, .locked6x⟩ available)]) data

def distributeVotesToDerivatives (totalVote : AccountVote) (data : List (ℕ × ℕ)) :
    Except Fault VoteItemList :=
  match totalVote with
  | .standard vote balance =>
    distribute vote.aye balance (vote.conviction.votes balance).votes [] data
  | _ => .error (.pallet .noData)

/-- One poll a message is about: its total vote, and what the change has replaced. -/
structure VoteCtx where
  poll : ℕ
  totalVote : AccountVote
  oldVote : Option (AccountVote × ℕ)
  oldReferendumInfo : Option ReferendumInfo

def VoteCtx.toOldVote (ctx : VoteCtx) : OldVote := ⟨ctx.poll, ctx.oldVote, ctx.oldReferendumInfo⟩

namespace State

def allocateDelegatorVotes (s : State cfg) (vtoken : CurrencyId) (poll : ℕ)
    (totalVote : AccountVote) : Except Fault VoteItemList := do
  let token ← okOr vtoken.toToken (.pallet .noData)
  let voted := (s.delegatorVotes vtoken poll).map Prod.fst
  let indices := voted ++ (s.delegators vtoken).filter fun i => i ∉ voted
  distributeVotesToDerivatives totalVote
    (indices.map fun i => (i, ((cfg.getStakeInfo s.outside token i).getD (0, 0)).2))

/-- The loop of `do_vote`: the new votes of one poll wait with those that are there. -/
def recordVotes (vtoken : CurrencyId) (acc : State cfg × SortedMap ℕ VoteItemList)
    (ctx : VoteCtx) : Except Fault (State cfg × SortedMap ℕ VoteItemList) := do
  let (s, all) := acc
  let totalVote ← s.computeDelegatorTotalVote vtoken ctx.totalVote
  let votes ← s.allocateDelegatorVotes vtoken ctx.poll totalVote
  let pending := s.pendingDelegatorVotes vtoken ctx.poll ++ votes
  ensure (pending.length ≤ 100) (.pallet .tooMany)
  pure (s.setPendingDelegatorVotes vtoken ctx.poll pending, all.insert ctx.poll votes)

/-- `vote_call_encode`: there must be a vote. -/
def voteCallEncode (votes : SortedMap ℕ VoteItemList) : Except Fault RemoteCall := do
  ensure (∃ e ∈ votes.entries, e.2 ≠ []) (.pallet .noData)
  pure (.vote votes)

/-- `send_xcm_with_notify`, with what `f` stores under the query id. -/
def sendXcmWithNotify (s : State cfg) (vtoken : CurrencyId) (call : RemoteCall)
    (weightAndFee : ℕ × ℕ) (f : State cfg → ℕ → Except Fault (State cfg)) :
    Except Fault (State cfg) := do
  let timeout := U32.saturatingAdd s.localBlock cfg.queryTimeout
  let (queryId, xcm) := cfg.newNotifyQuery s.xcm vtoken timeout
  let s ← f { s with xcm := xcm } queryId
  let message : XcmMessage := ⟨queryId, call, weightAndFee.1, weightAndFee.2⟩
  let outside ← okOr (cfg.sendXcm s.outside message) (.pallet .xcmFailure)
  pure { s with outside := outside, sent := s.sent ++ [message] }

def awaitVote (who : AccountId) (vtoken : CurrencyId) (submitted : Bool) (polls : List ℕ)
    (oldVotes : List OldVote) (s : State cfg) (queryId : ℕ) : Except Fault (State cfg) := do
  ensure (submitted = true ∨ s.pendingReferendumInfo queryId = none) (.pallet .pendingVote)
  ensure (s.pendingVotingInfo.get queryId = none) (.pallet .pendingVote)
  let info := if submitted then s.pendingReferendumInfo
    else Function.update s.pendingReferendumInfo queryId (some (vtoken, polls))
  pure { s with
    pendingReferendumInfo := info
    pendingVotingInfo := s.pendingVotingInfo.write queryId (some ⟨vtoken, who, oldVotes⟩) }

def sendXcmVoteMessage (s : State cfg) (who : AccountId) (vtoken : CurrencyId) (submitted : Bool)
    (votes : SortedMap ℕ VoteItemList) (oldVotes : List OldVote) : Except Fault (State cfg) := do
  let token ← okOr vtoken.toToken (.pallet .noData)
  let weightAndFee ← okOr (cfg.getOperationWeightAndFee s.outside token .vote) (.pallet .noData)
  ensure (votes.length ≤ cfg.maxVotes) (.pallet .tooMany)
  let call ← voteCallEncode votes
  s.sendXcmWithNotify vtoken call weightAndFee
    (awaitVote who vtoken submitted (votes.entries.map Prod.fst) oldVotes)

/-- The agent of Bifrost votes at once and fails with the votes. -/
def dispatchVote (s : State cfg) (who : AccountId) (vtoken : CurrencyId)
    (votes : SortedMap ℕ VoteItemList) (oldVotes : List OldVote) : Except Fault (State cfg) := do
  let _ ← voteCallEncode votes
  match cfg.dispatchVotes s.outside votes with
  | some outside =>
    State.handleVoteResult { s with outside := outside } true who vtoken oldVotes
  | none => do
    let _ ← s.handleVoteResult false who vtoken oldVotes
    .error (.pallet .invalidCallDispatch)

def delegateVote (s : State cfg) (agent : Agent) (who : AccountId) (vtoken : CurrencyId)
    (submitted : Bool) (votes : SortedMap ℕ VoteItemList) (oldVotes : List OldVote) :
    Except Fault (State cfg) :=
  match agent with
  | .relaychain => s.sendXcmVoteMessage who vtoken submitted votes oldVotes
  | .bifrost => s.dispatchVote who vtoken votes oldVotes

def doVote (s : State cfg) (who : AccountId) (vtoken : CurrencyId) (submitted : Bool)
    (voteCtx : List VoteCtx) : Except Fault (State cfg) := do
  ensure (voteCtx ≠ []) (.pallet .noData)
  let (s, votes) ← voteCtx.foldlM (recordVotes vtoken) (s, ∅)
  ensure (voteCtx.length ≤ cfg.maxVotes) (.pallet .tooMany)
  let agent ← getVotingAgent cfg vtoken
  s.delegateVote agent who vtoken submitted votes (voteCtx.map VoteCtx.toOldVote)

def delegateRemoveDelegatorVote (s : State cfg) (agent : Agent) (vtoken : CurrencyId)
    (poll pollClass derivativeIndex : ℕ) : Except Fault (State cfg) :=
  match agent with
  | .relaychain => do
    let token ← okOr vtoken.toToken (.pallet .noData)
    let weightAndFee ← okOr (cfg.getOperationWeightAndFee s.outside token .removeVote)
      (.pallet .noData)
    s.sendXcmWithNotify vtoken (.removeVote pollClass poll derivativeIndex) weightAndFee
      fun s queryId =>
        let pending := Function.update s.pendingRemoveDelegatorVote queryId
          (some (vtoken, poll, derivativeIndex))
        pure { s with pendingRemoveDelegatorVote := pending }
  | .bifrost => do
    let outside ← okOr (cfg.dispatchRemoveVote s.outside pollClass poll derivativeIndex)
      (.pallet .invalidCallDispatch)
    pure (State.handleRemoveDelegatorVoteSuccess { s with outside := outside } vtoken poll)

/-! Delegations. -/

/-- The loop over the votes of the account delegated to: a standard vote on an ongoing poll
takes the delegation into the tally. -/
def shiftPoll (direction : Direction) (vtoken : CurrencyId) (amount : Delegations)
    (acc : State cfg × List VoteCtx) (e : ℕ × VoteRecord) :
    Except Fault (State cfg × List VoteCtx) :=
  let (s, ctx) := acc
  match e.2.vote, s.referendumInfoFor vtoken e.1 with
  | .standard vote _, some (.ongoing status) => do
    let tally := status.tally.shift direction vote.aye amount
    let tokenBalance ← mapErr (s.computeTokenBalance vtoken e.2.vtokenBalance)
      fun _ => Fault.pallet .accessPollFailure
    pure (s.setInfo vtoken e.1 (some (.ongoing { status with tally := tally })),
      ctx ++ [⟨e.1, tally.accountVote .locked1x, some (e.2.vote, tokenBalance),
        some (.ongoing status)⟩])
  | _, _ => pure (s, ctx)

/-- `do_vote`, if there is anything to vote on. -/
def doVoteIfAny (s : State cfg) (who : AccountId) (vtoken : CurrencyId) (voteCtx : List VoteCtx) :
    Except Fault (State cfg) :=
  if voteCtx = [] then pure s else s.doVote who vtoken true voteCtx

/-- `increase_upstream_delegation` and `reduce_upstream_delegation`. -/
def shiftUpstreamDelegation (direction : Direction) (s : State cfg) (who : AccountId)
    (vtoken : CurrencyId) (amount : Delegations) : Except Fault (State cfg) :=
  match s.getVoting vtoken who with
  | .delegating d =>
    pure (s.setVoting vtoken who
      (.delegating { d with delegations := d.delegations.shift direction amount }))
  | .casting c => do
    ensure (c.votes.length ≤ cfg.maxVotesPerDelegate) (.pallet .tooManyVotes)
    let (s, voteCtx) ← c.votes.entries.foldlM (shiftPoll direction vtoken amount) (s, [])
    let s ← s.doVoteIfAny who vtoken voteCtx
    pure (s.setVoting vtoken who
      (.casting { c with delegations := c.delegations.shift direction amount }))

def increaseUpstreamDelegation (s : State cfg) (who : AccountId) (vtoken : CurrencyId)
    (amount : Delegations) : Except Fault (State cfg) :=
  s.shiftUpstreamDelegation .increase who vtoken amount

def reduceUpstreamDelegation (s : State cfg) (who : AccountId) (vtoken : CurrencyId)
    (amount : Delegations) : Except Fault (State cfg) :=
  s.shiftUpstreamDelegation .reduce who vtoken amount

def tryDelegate (s : State cfg) (who target : AccountId) (vtoken : CurrencyId)
    (conviction : Conviction) (vtokenBalance : ℕ) : Except Fault (State cfg) := do
  ensure (who ≠ target) (.pallet .nonsense)
  ensure (vtokenBalance ≤ cfg.totalBalance s.ledger vtoken who) (.pallet .insufficientFunds)
  let tokenBalance ← s.computeTokenBalance vtoken vtokenBalance
  match s.getVoting vtoken who with
  | .delegating _ => .error (.pallet .alreadyDelegating)
  | .casting c => do
    ensure (c.votes.entries = []) (.pallet .alreadyVoting)
    let voting : Voting AccountId :=
      (Voting.delegating ⟨vtokenBalance, target, conviction, .zero, .zero⟩).setCommon c.delegations
        c.prior
    let s ← s.increaseUpstreamDelegation target vtoken (conviction.votes tokenBalance)
    (s.setVoting vtoken who voting).setLock who vtoken vtokenBalance

def tryUndelegate (s : State cfg) (who : AccountId) (vtoken : CurrencyId) :
    Except Fault (State cfg) :=
  match s.getVoting vtoken who with
  | .delegating d => do
    let tokenBalance ← s.computeTokenBalance vtoken d.balance
    let s ← s.reduceUpstreamDelegation d.target vtoken (d.conviction.votes tokenBalance)
    let period ← okOr (s.voteLockingPeriod vtoken) (.pallet .noData)
    let unlockAt := U32.saturatingAdd s.localBlock
      (U32.saturatingMul period d.conviction.lockPeriods)
    let prior := d.prior.accumulate unlockAt d.balance
    pure (s.setVoting vtoken who (Voting.default.setCommon d.delegations prior))
  | .casting _ => .error (.pallet .notDelegating)

/-! Casting a vote. -/

/-- A referendum that is not known yet is created; one that is known must be ongoing. -/
def openReferendum (s : State cfg) (vtoken : CurrencyId) (poll current : ℕ) :
    Except Fault (State cfg × Bool) :=
  match s.referendumInfoFor vtoken poll with
  | none => pure (s.setInfo vtoken poll (some (.ongoing ⟨current, .zero⟩)), false)
  | some _ => do
    let _ ← s.ensureReferendumOngoing vtoken poll
    pure (s, true)

def commonVote (s : State cfg) (who : AccountId) (vtoken : CurrencyId) (poll : ℕ)
    (vtokenVote : AccountVote) : Except Fault (State cfg) := do
  ensureVtoken cfg vtoken
  ensure (s.undecidingTimeout vtoken ≠ none) (.pallet .noData)
  s.ensureNoPendingVote vtoken poll
  let tokenVote ← s.computeTokenVote vtoken vtokenVote
  let current ← s.getAgentBlockNumber vtoken
  let oldReferendumInfo := s.referendumInfoFor vtoken poll
  let (s, submitted) ← s.openReferendum vtoken poll current
  let (s, oldVote, totalVote) ← s.tryVote who vtoken poll tokenVote vtokenVote.balance
  s.doVote who vtoken submitted [⟨poll, totalVote, oldVote, oldReferendumInfo⟩]

end State

end Bifrost.VtokenVoting
