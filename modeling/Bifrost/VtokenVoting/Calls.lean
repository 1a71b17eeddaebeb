import Bifrost.Lib.Machine
import Bifrost.VtokenVoting.Pallet

/-!
# The calls of the vtoken-voting pallet

Every call with its origin, the hook that ends referenda, and what goes on around the pallet. A
call is a transaction: one that fails changes nothing.
-/

namespace Bifrost.VtokenVoting

open Result
set_option autoImplicit false

/-- Who makes a call: an account, governance, the track for delegated voting, or the executor of
a response. -/
inductive Origin (AccountId : Type) where
  | signed (who : AccountId)
  | control
  | delegatedVotingTrack
  | response
deriving DecidableEq

variable {AccountId : Type} [DecidableEq AccountId] {cfg : Config AccountId}

def ensureSigned : Origin AccountId → Except Fault AccountId
  | .signed who => pure who
  | _ => .error .badOrigin

def ensureControl (origin : Origin AccountId) : Except Fault PUnit :=
  ensure (origin = .control) .badOrigin

def ensureXcmResponseOrGovernance (origin : Origin AccountId) : Except Fault PUnit :=
  ensure (origin = .response ∨ origin = .control) .badOrigin

/-- What changes in other pallets and on other chains; the locks of the pallet are its own. -/
structure World (cfg : Config AccountId) where
  ledger : cfg.currencies.Ledger → cfg.currencies.Ledger
  outside : cfg.Outside → cfg.Outside
  localBlocks : ℕ
  relayBlocks : ℕ
  keeps_lock : ∀ L vtoken who,
    cfg.currencies.lock (ledger L) .convictionVotingId vtoken who =
      cfg.currencies.lock L .convictionVotingId vtoken who

/-- The block a referendum was submitted or ended at. -/
def ReferendumInfo.moment : ReferendumInfo → ℕ
  | .ongoing status => status.submitted
  | .completed moment | .killed moment => moment

namespace State

/-- The poll has ended and no vote on it is pending. -/
def readyToUnlock (s : State cfg) (vtoken : CurrencyId) (poll : ℕ) : Except Fault (State cfg) :=
  let s := if vtoken = vbnc then s.autoSyncNativeReferendumState poll none else s
  match s.referendumInfoFor vtoken poll with
  | some (.completed _) | some (.killed _) => do
    s.ensureNoPendingVote vtoken poll
    pure s
  | _ => .error (.pallet .noPermissionYet)

def unlock (s : State cfg) (who : AccountId) (vtoken : CurrencyId) (maybePoll : Option ℕ) :
    Except Fault (State cfg) := do
  ensureVtoken cfg vtoken
  let s ← maybePoll.elim (pure s) (s.readyToUnlock vtoken)
  let s ← s.tryRemoveVote who vtoken maybePoll .onlyExpired
  s.updateLock who vtoken

def ensureReferendumExpired (s : State cfg) (vtoken : CurrencyId) (poll : ℕ) :
    Except Fault PUnit := do
  let (_, vote) ← okOr (s.delegatorVotes vtoken poll).head? (.pallet .noData)
  match s.referendumInfoFor vtoken poll, vote.lockedIf true with
  | some (.completed moment), some (lockPeriods, _) => do
    let period ← okOr (s.voteLockingPeriod vtoken) (.pallet .noData)
    let current ← s.getAgentBlockNumber vtoken
    ensure (U32.saturatingAdd moment (U32.saturatingMul period lockPeriods) ≤ current)
      (.pallet .notExpired)
  | some (.completed moment), none => do
    let current ← s.getAgentBlockNumber vtoken
    ensure (moment ≤ current) (.pallet .notExpired)
  | _, _ => .error (.pallet .notExpired)

def removeDelegatorVote (s : State cfg) (vtoken : CurrencyId)
    (pollClass poll derivativeIndex : ℕ) : Except Fault (State cfg) := do
  ensureVtoken cfg vtoken
  ensure (0 < (s.delegatorVotes vtoken poll).length) (.pallet .noData)
  let s := if vtoken = vbnc then s.autoSyncNativeReferendumState poll none else s
  s.ensureReferendumExpired vtoken poll
  let agent ← getVotingAgent cfg vtoken
  s.delegateRemoveDelegatorVote agent vtoken poll pollClass derivativeIndex

def killReferendum (s : State cfg) (vtoken : CurrencyId) (poll : ℕ) : Except Fault (State cfg) := do
  ensureVtoken cfg vtoken
  match s.referendumInfoFor vtoken poll with
  | some (.completed _) => do
    let current ← s.getAgentBlockNumber vtoken
    pure (s.setInfo vtoken poll (some (.killed current)))
  | _ => .error (.pallet .notCompleted)

def addDelegator (s : State cfg) (vtoken : CurrencyId) (derivativeIndex : ℕ) :
    Except Fault (State cfg) := do
  ensureVtoken cfg vtoken
  let token ← okOr vtoken.toToken (.pallet .noData)
  ensure (cfg.checkDerivativeIndexExists s.outside token derivativeIndex) (.pallet .noData)
  ensure (derivativeIndex ∉ s.delegators vtoken) (.pallet .derivativeIndexOccupied)
  ensure ((s.delegators vtoken).length < 100) (.pallet .tooMany)
  let indices := s.delegators vtoken ++ [derivativeIndex]
  pure { s with delegators := Function.update s.delegators vtoken indices }

def setReferendumStatus (s : State cfg) (vtoken : CurrencyId) (poll : ℕ) (info : ReferendumInfo) :
    Except Fault (State cfg) := do
  ensureVtoken cfg vtoken
  match s.referendumInfoFor vtoken poll with
  | some (.ongoing status) => do
    ensure (status.submitted ≤ info.moment)
      (.pallet .submittedBlockNumberMustBeBiggerThanStartBlockNumber)
    pure (s.setInfo vtoken poll (some info))
  | some (.completed _) => .error (.pallet .alreadyCompleted)
  | some (.killed _) => .error (.pallet .alreadyKilled)
  | none => .error (.pallet .noData)

def dropPending (s : State cfg) (queryId : ℕ) : State cfg :=
  { s with
    pendingVotingInfo := s.pendingVotingInfo.write queryId none
    pendingReferendumInfo := Function.update s.pendingReferendumInfo queryId none }

/-- A query id that no vote waits under is no error. -/
def notifyVote (s : State cfg) (queryId : ℕ) (success : Bool) : Except Fault (State cfg) :=
  match s.pendingVotingInfo.get queryId with
  | some pending => do
    let s ← s.handleVoteResult success pending.who pending.vtoken pending.oldVotes
    pure (s.dropPending queryId)
  | none => pure (s.dropPending queryId)

def notifyRemoveDelegatorVote (s : State cfg) (queryId : ℕ) (success : Bool) : State cfg :=
  match s.pendingRemoveDelegatorVote queryId with
  | some (vtoken, poll, _) =>
    let s := if success then s.handleRemoveDelegatorVoteSuccess vtoken poll else s
    { s with pendingRemoveDelegatorVote :=
        Function.update s.pendingRemoveDelegatorVote queryId none }
  | none => s

def updateReferendumVoteStatus (s : State cfg) (vtoken : CurrencyId) (poll : ℕ)
    (newStatus : ReferendumVoteStatus) : Except Fault (State cfg) := do
  ensureVtoken cfg vtoken
  if newStatus.isOver then do
    let current ← s.getAgentBlockNumber vtoken
    pure ((s.overReferendumInfoFor vtoken poll current).setVoteStatus vtoken poll newStatus)
  else pure (s.setVoteStatus vtoken poll newStatus)

/-- One key of `ReferendumTimeoutV3`. -/
def handleTimeout (s : State cfg) (key : CurrencyId × ℕ) : State cfg :=
  let (vtoken, due) := key
  let polls := s.referendumTimeout vtoken due
  if vtoken = vbnc then
    polls.foldl (fun s poll => s.autoSyncNativeReferendumState poll (some due)) s
  else if vtoken = cfg.relayVCurrency ∧ due ≤ s.relayBlock then
    (polls.foldl (fun s poll => s.overReferendumInfoFor vtoken poll s.relayBlock)
      s).setReferendumTimeout vtoken due []
  else s

/-- The keys are those the remaining weight has sufficed for, in the order of the storage. -/
def onIdle (s : State cfg) (keys : List (CurrencyId × ℕ)) : State cfg :=
  if s.localBlock % cfg.referendumCheckInterval ≠ 0 then s else keys.foldl handleTimeout s

end State

inductive Call (cfg : Config AccountId) where
  | vote (origin : Origin AccountId) (vtoken : CurrencyId) (poll : ℕ) (vtokenVote : AccountVote)
  | unlock (origin : Origin AccountId) (vtoken : CurrencyId) (maybePoll : Option ℕ)
  | removeDelegatorVote (origin : Origin AccountId) (vtoken : CurrencyId)
      (pollClass poll derivativeIndex : ℕ)
  | killReferendum (origin : Origin AccountId) (vtoken : CurrencyId) (poll : ℕ)
  | addDelegator (origin : Origin AccountId) (vtoken : CurrencyId) (derivativeIndex : ℕ)
  | setReferendumStatus (origin : Origin AccountId) (vtoken : CurrencyId) (poll : ℕ)
      (info : ReferendumInfo)
  | setVoteLockingPeriod (origin : Origin AccountId) (vtoken : CurrencyId) (lockingPeriod : ℕ)
  | setUndecidingTimeout (origin : Origin AccountId) (vtoken : CurrencyId)
      (undecidingTimeout : ℕ)
  | notifyVote (origin : Origin AccountId) (queryId : ℕ) (success : Bool)
  | notifyRemoveDelegatorVote (origin : Origin AccountId) (queryId : ℕ) (success : Bool)
  | setVoteCapRatio (origin : Origin AccountId) (vtoken : CurrencyId) (voteCapRatio : Perbill)
  | updateReferendumVoteStatus (origin : Origin AccountId) (vtoken : CurrencyId) (poll : ℕ)
      (newStatus : ReferendumVoteStatus)
  | delegate (origin : Origin AccountId) (vtoken : CurrencyId) (target : AccountId)
      (conviction : Conviction) (vtokenBalance : ℕ)
  | undelegate (origin : Origin AccountId) (vtoken : CurrencyId)
  | delegateVote (origin : Origin AccountId) (vtoken : CurrencyId) (poll : ℕ)
      (vtokenVote : AccountVote)
  | onIdle (keys : List (CurrencyId × ℕ))
  | world (change : World cfg)
  | otherQuery (responder : CurrencyId) (timeout : ℕ)

def step (s : State cfg) : Call cfg → Except Fault (State cfg)
  | .vote origin vtoken poll vtokenVote => do
    let who ← ensureSigned origin
    s.commonVote who vtoken poll vtokenVote
  | .unlock origin vtoken maybePoll => do
    let who ← ensureSigned origin
    s.unlock who vtoken maybePoll
  | .removeDelegatorVote origin vtoken pollClass poll derivativeIndex => do
    let _ ← ensureSigned origin
    s.removeDelegatorVote vtoken pollClass poll derivativeIndex
  | .killReferendum origin vtoken poll => do
    ensureControl origin
    s.killReferendum vtoken poll
  | .addDelegator origin vtoken derivativeIndex => do
    ensureControl origin
    s.addDelegator vtoken derivativeIndex
  | .setReferendumStatus origin vtoken poll info => do
    ensureControl origin
    s.setReferendumStatus vtoken poll info
  | .setVoteLockingPeriod origin vtoken lockingPeriod => do
    ensureControl origin
    ensureVtoken cfg vtoken
    pure { s with
      voteLockingPeriod := Function.update s.voteLockingPeriod vtoken (some lockingPeriod) }
  | .setUndecidingTimeout origin vtoken undecidingTimeout => do
    ensureControl origin
    ensureVtoken cfg vtoken
    pure { s with
      undecidingTimeout := Function.update s.undecidingTimeout vtoken (some undecidingTimeout) }
  | .notifyVote origin queryId success => do
    ensureXcmResponseOrGovernance origin
    s.notifyVote queryId success
  | .notifyRemoveDelegatorVote origin queryId success => do
    ensureXcmResponseOrGovernance origin
    pure (s.notifyRemoveDelegatorVote queryId success)
  | .setVoteCapRatio origin vtoken voteCapRatio => do
    ensureControl origin
    ensureVtoken cfg vtoken
    pure { s with voteCapRatio := Function.update s.voteCapRatio vtoken voteCapRatio }
  | .updateReferendumVoteStatus origin vtoken poll newStatus => do
    ensureControl origin
    s.updateReferendumVoteStatus vtoken poll newStatus
  | .delegate origin vtoken target conviction vtokenBalance => do
    let who ← ensureSigned origin
    ensureVtoken cfg vtoken
    s.tryDelegate who target vtoken conviction vtokenBalance
  | .undelegate origin vtoken => do
    let who ← ensureSigned origin
    ensureVtoken cfg vtoken
    s.tryUndelegate who vtoken
  | .delegateVote origin vtoken poll vtokenVote => do
    ensure (origin = .delegatedVotingTrack) .badOrigin
    s.commonVote cfg.palletAccount vtoken poll vtokenVote
  | .onIdle keys => pure (s.onIdle keys)
  | .world change => pure { s with
      ledger := change.ledger s.ledger
      outside := change.outside s.outside
      localBlock := s.localBlock + change.localBlocks
      relayBlock := s.relayBlock + change.relayBlocks }
  | .otherQuery responder timeout =>
    pure { s with xcm := (cfg.newNotifyQuery s.xcm responder timeout).2 }

def genesis (cfg : Config AccountId) (delegators : CurrencyId → List ℕ)
    (undecidingTimeout : CurrencyId → Option ℕ) (voteCapRatio : CurrencyId → Perbill)
    (ledger : cfg.currencies.Ledger) (outside : cfg.Outside) (xcm : cfg.Xcm) : State cfg where
  referendumInfoFor := fun _ _ => none
  votingFor := fun _ => ∅
  classLocksFor := fun _ => []
  pendingReferendumInfo := fun _ => none
  pendingVotingInfo := ∅
  pendingRemoveDelegatorVote := fun _ => none
  voteLockingPeriod := fun _ => none
  undecidingTimeout := undecidingTimeout
  delegators := delegators
  voteCapRatio := voteCapRatio
  delegatorVotes := fun _ _ => []
  pendingDelegatorVotes := fun _ _ => []
  referendumTimeout := fun _ _ => []
  referendumVoteStatus := fun _ _ => .ongoing
  ledger := ledger
  outside := outside
  xcm := xcm
  sent := []
  localBlock := 0
  relayBlock := 0

namespace Sample

/-- The supplies of every vToken and of its token. -/
structure Supplies where
  vtoken : ℕ
  token : ℕ

/-- Bifrost on Polkadot, with plain accounts and other chains that do as they are told. -/
def config : Config ℕ where
  currencies := Tokens.lockable ℕ LockIdentifier
  totalBalance := fun L c x => L.issued.accounts c x
  relayVCurrency := vdot
  polkadot := true
  maxVotes := 256
  maxVotesPerDelegate := 100
  queryTimeout := 100
  referendumCheckInterval := 10
  palletAccount := 99
  Xcm := ℕ
  newNotifyQuery := fun n _ _ => (n, n + 1)
  Outside := Supplies
  sendXcm := fun o _ => some o
  dispatchVotes := fun o _ => some o
  dispatchRemoveVote := fun o _ _ _ => some o
  getOperationWeightAndFee := fun _ _ _ => some (1, 1)
  getStakeInfo := fun _ _ _ => some (1000000, 1000000)
  checkDerivativeIndexExists := fun _ _ _ => true
  getVtokenSupply := fun o _ => some o.vtoken
  getTokenSupply := fun o _ => some o.token
  nativeReferendum := fun _ _ => none

def wealth : Tokens.Lockable ℕ LockIdentifier :=
  ⟨⟨fun _ _ => 1000000, fun _ => 100000000⟩, fun _ _ _ => 0⟩

/-- One derivative account votes. -/
def delegators : CurrencyId → List ℕ := fun _ => [5]

def timeouts : CurrencyId → Option ℕ := fun _ => some 100

def ratios : CurrencyId → Perbill := fun _ => .one

abbrev start : State config :=
  genesis config delegators timeouts ratios wealth (⟨1000000, 1000000⟩ : Supplies) (0 : ℕ)

def aye (conviction : Conviction) (balance : ℕ) : AccountVote :=
  .standard ⟨true, conviction⟩ balance

/-- One vToken is worth `n` millionths of a token from now on. -/
def rate (n : ℕ) : Call config :=
  .world ⟨id, fun _ => (⟨1000000, n⟩ : Supplies), 0, 0, fun _ _ _ => rfl⟩

end Sample

end Bifrost.VtokenVoting
