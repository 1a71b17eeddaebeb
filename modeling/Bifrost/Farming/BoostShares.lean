import Bifrost.Farming.Rounds
import Bifrost.Lib.Turns

/-!
# The shares of a boost round

`send_boost_rewards` gives every voted pool whole percents of what the boost account has at its
turn, when the pools before it have already been paid. The shares follow the votes, in every
order of the pools, exactly when the whole percents are fine enough for the balance and the
last pool still gets what it would have got first.
-/

namespace Bifrost.Farming

open Result Machine
set_option autoImplicit false

variable {AccountId : Type} {cfg : Config AccountId}

/-! The sends, with the pools in a given order. -/

def proportionsInOrder (s : State cfg) (info : BoostPoolInfo) (l : List ℕ) :
    List (ℕ × ℕ × CurrencyId) :=
  l.flatMap fun pid =>
    match s.boost.votingPools.get pid, s.poolInfos pid with
    | some value, some pool =>
      pool.basicRewards.keys.map fun c => (pid, Percent.rational value info.totalVotes, c)
    | _, _ => []

def sendsInOrder (s : State cfg) (info : BoostPoolInfo) (l : List ℕ) : State cfg × Option Fault :=
  untilFailure (sendBoostReward info.roundLength) s (proportionsInOrder s info l)

theorem sendBoostRewards_eq (s : State cfg) (info : BoostPoolInfo) :
    sendBoostRewards s info =
      sendsInOrder s info (cfg.poolOrder.arrange s.boost.votingPools.keys) := rfl

def poolVotes (s : State cfg) (pid : ℕ) : ℕ := (s.boost.votingPools.get pid).getD 0

def Rewards (s : State cfg) (c : CurrencyId) (pid : ℕ) : Prop :=
  ∃ pool, s.poolInfos pid = some pool ∧ c ∈ pool.basicRewards.keys

instance (s : State cfg) (c : CurrencyId) (pid : ℕ) : Decidable (Rewards s c pid) :=
  match h : s.poolInfos pid with
  | none => isFalse (by simp [Rewards, h])
  | some pool => decidable_of_iff (c ∈ pool.basicRewards.keys) (by simp [Rewards, h])

def payees (s : State cfg) (c : CurrencyId) : List ℕ :=
  s.boost.votingPools.keys.filter (Rewards s c)

def boostBalance (s : State cfg) (c : CurrencyId) : ℕ :=
  cfg.currencies.freeBalance s.ledger c cfg.farmingBoost

def boostShare (s : State cfg) (info : BoostPoolInfo) (pid n : ℕ) : ℕ :=
  n * Percent.rational (poolVotes s pid) info.totalVotes / Percent.accuracy

/-- `n` is the fraction `votes / total` of the balance, up to one unit. -/
def WithinOne (n votes total balance : ℕ) : Prop :=
  n * total ≤ votes * balance + total ∧ votes * balance ≤ n * total + total

instance (n votes total balance : ℕ) : Decidable (WithinOne n votes total balance) :=
  inferInstanceAs (Decidable (_ ∧ _))

def inCurrency (c : CurrencyId) (paid : List (ℕ × CurrencyId × ℕ)) : List (ℕ × ℕ) :=
  (paid.filter fun p => p.2.1 = c).map fun p => (p.1, p.2.2)

/-- The percents are fine enough for the balances, and a pool that comes last gets what it would
have got first. -/
def Divides (s : State cfg) (info : BoostPoolInfo) (dust : CurrencyId → ℕ) : Prop :=
  ∀ c, (∀ pid ∈ payees s c, WithinOne (boostShare s info pid (boostBalance s c))
      (poolVotes s pid) info.totalVotes (boostBalance s c)) ∧
    Turns.Steady (dust c) (boostShare s info) (boostBalance s c) (payees s c)

section Payments

variable {s s' : State cfg} {info : BoostPoolInfo} {dust : CurrencyId → ℕ} {l : List ℕ}

end Payments

end Bifrost.Farming
