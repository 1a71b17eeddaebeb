import Bifrost.Lib.SortedMap
import Bifrost.Primitives.PerThing
import Bifrost.Primitives.TimeUnit

/-!
# Votes and tallies

`vote.rs`, with what it takes from `pallet_conviction_voting`: a conviction multiplies the votes
of a capital and locks it for a number of periods. A tally has three parts, and every operation
on it moves each part by the weight of a vote or of the delegations attached to it.
-/

namespace Bifrost

set_option autoImplicit false

def U32.saturatingMul (a b : ℕ) : ℕ := min (a * b) u32Max

namespace VtokenVoting

/-! Convictions. -/

inductive Conviction where
  | none | locked1x | locked2x | locked3x | locked4x | locked5x | locked6x
deriving DecidableEq, Repr

/-- The votes of a capital, and the capital. -/
structure Delegations where
  votes : ℕ
  capital : ℕ
deriving DecidableEq, Repr

namespace Conviction

def toNat : Conviction → ℕ
  | none => 0
  | locked1x => 1
  | locked2x => 2
  | locked3x => 3
  | locked4x => 4
  | locked5x => 5
  | locked6x => 6

/-- `try_from` of 0 to 6. -/
def all : List Conviction := [none, locked1x, locked2x, locked3x, locked4x, locked5x, locked6x]

def lockPeriods : Conviction → ℕ
  | none => 0
  | locked1x => 1
  | locked2x => 2
  | locked3x => 4
  | locked4x => 8
  | locked5x => 16
  | locked6x => 32

/-- A tenth of the capital without conviction, a multiple with one. -/
def votes (conviction : Conviction) (capital : ℕ) : Delegations :=
  match conviction with
  | none => ⟨capital / 10, capital⟩
  | x => ⟨U128.saturatingMul capital x.toNat, capital⟩

end Conviction

inductive Direction where
  | increase | reduce
deriving DecidableEq, Repr

namespace Delegations

def zero : Delegations := ⟨0, 0⟩

def saturatingAdd (d e : Delegations) : Delegations :=
  ⟨U128.saturatingAdd d.votes e.votes, U128.saturatingAdd d.capital e.capital⟩

def saturatingSub (d e : Delegations) : Delegations := ⟨d.votes - e.votes, d.capital - e.capital⟩

def shift : Direction → Delegations → Delegations → Delegations
  | .increase => saturatingAdd
  | .reduce => saturatingSub

end Delegations

structure Vote where
  aye : Bool
  conviction : Conviction
deriving DecidableEq, Repr

/-- `OnlySplit` is never used. -/
inductive UnvoteScope where
  | any | onlyExpired
deriving DecidableEq, Repr

/-! Votes. -/

inductive AccountVote where
  | standard (vote : Vote) (balance : ℕ)
  | split (aye nay : ℕ)
  | splitAbstain (aye nay abstain : ℕ)
deriving DecidableEq, Repr

inductive ArithmeticError where
  | underflow | overflow | divisionByZero
deriving DecidableEq, Repr

namespace AccountVote

def asStandardVote : AccountVote → Option Vote
  | standard vote _ => some vote
  | _ => none

/-- The lock periods, whatever the outcome. -/
def lockedIf : AccountVote → Bool → Option (ℕ × ℕ)
  | standard ⟨_, .none⟩ _, _ => none
  | standard vote balance, _ => some (vote.conviction.lockPeriods, balance)
  | _, _ => none

def balance : AccountVote → ℕ
  | standard _ balance => balance
  | split aye nay => U128.saturatingAdd aye nay
  | splitAbstain aye nay abstain => U128.saturatingAdd (U128.saturatingAdd aye nay) abstain

def asStandard : AccountVote → Option Bool
  | standard vote _ => some vote.aye
  | _ => none

def isAyeDominant : AccountVote → Bool
  | standard vote _ => vote.aye
  | split aye nay => nay < aye
  | splitAbstain aye nay _ => nay < aye

/-- One checked operation on every balance of the vote. -/
def checked (op : ℕ → Option ℕ) (vote : AccountVote) : Option AccountVote :=
  match vote with
  | standard vote balance => (op balance).map (standard vote)
  | split aye nay => do
    let aye ← op aye
    let nay ← op nay
    pure (split aye nay)
  | splitAbstain aye nay abstain => do
    let aye ← op aye
    let nay ← op nay
    let abstain ← op abstain
    pure (splitAbstain aye nay abstain)

def checkedMul (vote : AccountVote) (n : ℕ) : Option AccountVote :=
  vote.checked fun balance => U128.checkedMul balance n

def checkedDiv (vote : AccountVote) (n : ℕ) : Option AccountVote :=
  vote.checked fun balance => U128.checkedDiv balance n

end AccountVote

/-! Tallies. -/

structure Tally where
  ayes : ℕ
  nays : ℕ
  support : ℕ
deriving DecidableEq, Repr

namespace Tally

def zero : Tally := ⟨0, 0, 0⟩

def accountVote (tally : Tally) (conviction : Conviction) : AccountVote :=
  if tally.nays ≤ tally.ayes then .standard ⟨true, conviction⟩ (tally.ayes - tally.nays)
  else .standard ⟨false, conviction⟩ (tally.nays - tally.ayes)

/-- `add` and `remove`, with the checked operation. -/
def apply (op : ℕ → ℕ → Option ℕ) (tally : Tally) : AccountVote → Option Tally
  | .standard vote balance => do
    let d := vote.conviction.votes balance
    if vote.aye then do
      let support ← op tally.support d.capital
      let ayes ← op tally.ayes d.votes
      pure { tally with support := support, ayes := ayes }
    else do
      let nays ← op tally.nays d.votes
      pure { tally with nays := nays }
  | .split aye nay => do
    let aye := Conviction.none.votes aye
    let nay := Conviction.none.votes nay
    let support ← op tally.support aye.capital
    let ayes ← op tally.ayes aye.votes
    let nays ← op tally.nays nay.votes
    pure ⟨ayes, nays, support⟩
  | .splitAbstain aye nay abstain => do
    let aye := Conviction.none.votes aye
    let nay := Conviction.none.votes nay
    let abstain := Conviction.none.votes abstain
    let support ← op tally.support aye.capital
    let support ← op support abstain.capital
    let ayes ← op tally.ayes aye.votes
    let nays ← op tally.nays nay.votes
    pure ⟨ayes, nays, support⟩

def add : Tally → AccountVote → Option Tally := apply U128.checkedAdd

def remove : Tally → AccountVote → Option Tally := apply U128.checkedSub

def increase (tally : Tally) (approve : Bool) (d : Delegations) : Tally :=
  if approve then { tally with
    support := U128.saturatingAdd tally.support d.capital
    ayes := U128.saturatingAdd tally.ayes d.votes }
  else { tally with nays := U128.saturatingAdd tally.nays d.votes }

def reduce (tally : Tally) (approve : Bool) (d : Delegations) : Tally :=
  if approve then { tally with
    support := tally.support - d.capital
    ayes := tally.ayes - d.votes }
  else { tally with nays := tally.nays - d.votes }

def shift : Direction → Tally → Bool → Delegations → Tally
  | .increase => increase
  | .reduce => reduce

/-- A vote is counted, and the delegations of the voter if it is a standard vote. -/
def count (tally : Tally) (vote : AccountVote) (delegations : Delegations) : Option Tally := do
  let tally ← tally.add vote
  pure (vote.asStandard.elim tally fun approve => tally.increase approve delegations)

/-- The opposite of `count`. -/
def discount (tally : Tally) (vote : AccountVote) (delegations : Delegations) : Option Tally := do
  let tally ← tally.remove vote
  pure (vote.asStandard.elim tally fun approve => tally.reduce approve delegations)

end Tally

/-! Referenda. -/

structure ReferendumStatus where
  submitted : ℕ
  tally : Tally
deriving DecidableEq, Repr

inductive ReferendumInfo where
  | ongoing (status : ReferendumStatus)
  | completed (moment : ℕ)
  | killed (moment : ℕ)
deriving DecidableEq, Repr

inductive ReferendumVoteStatus where
  | approved | rejected | none | ongoing
deriving DecidableEq, Repr

def ReferendumVoteStatus.isOver : ReferendumVoteStatus → Bool
  | ongoing => false
  | _ => true

/-! What an account does. -/

structure PriorLock where
  untilBlock : ℕ
  amount : ℕ
deriving DecidableEq, Repr

namespace PriorLock

def zero : PriorLock := ⟨0, 0⟩

def accumulate (prior : PriorLock) (untilBlock amount : ℕ) : PriorLock :=
  ⟨max prior.untilBlock untilBlock, max prior.amount amount⟩

def locked (prior : PriorLock) : ℕ := prior.amount

def rejig (prior : PriorLock) (now : ℕ) : PriorLock := if prior.untilBlock ≤ now then zero else prior

end PriorLock

structure Delegating (AccountId : Type) where
  balance : ℕ
  target : AccountId
  conviction : Conviction
  delegations : Delegations
  prior : PriorLock
deriving DecidableEq

/-- A recorded vote: in tokens, and the balance of vTokens that stands for it. -/
structure VoteRecord where
  vote : AccountVote
  vtokenBalance : ℕ
deriving DecidableEq, Repr

structure Casting where
  votes : SortedMap ℕ VoteRecord
  delegations : Delegations
  prior : PriorLock
deriving DecidableEq

inductive Voting (AccountId : Type) where
  | casting (casting : Casting)
  | delegating (delegating : Delegating AccountId)
deriving DecidableEq

/-- The largest of the vToken balances of the votes, and at least `n`. -/
def Casting.maxBalance (c : Casting) (n : ℕ) : ℕ :=
  (c.votes.entries.map fun e => e.2.vtokenBalance).foldl max n

namespace Voting

variable {AccountId : Type}

def default : Voting AccountId := casting ⟨∅, .zero, .zero⟩

def rejig (now : ℕ) : Voting AccountId → Voting AccountId
  | casting c => casting { c with prior := c.prior.rejig now }
  | delegating d => delegating { d with prior := d.prior.rejig now }

def lockedBalance : Voting AccountId → ℕ
  | casting c => c.maxBalance c.prior.locked
  | delegating d => max d.balance d.prior.locked

def lockedVtokenBalance : Voting AccountId → ℕ
  | casting c => c.maxBalance 0
  | delegating _ => 0

def setCommon (delegations : Delegations) (prior : PriorLock) : Voting AccountId → Voting AccountId
  | casting c => casting { c with delegations := delegations, prior := prior }
  | delegating d => delegating { d with delegations := delegations, prior := prior }

end Voting

end VtokenVoting

end Bifrost
