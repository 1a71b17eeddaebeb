import Bifrost.BbBnc.Points

/-!
# Rewards

`incentive.rs` and the reward functions of `traits.rs`, for the system pool. Other pools have no
incentive configuration, and the share of the balance that is passed for them is never used.
-/

namespace Bifrost.BbBnc

open Result
set_option autoImplicit false

variable {AccountId : Type} [DecidableEq AccountId] {cfg : Config AccountId}

def State.setIncentive (s : State cfg) (conf : IncentiveConfig AccountId) : State cfg :=
  { s with incentive := conf }

def lastTimeRewardApplicable (s : State cfg) : ℕ :=
  if s.blockNumber < s.incentive.periodFinish then s.blockNumber else s.incentive.periodFinish

def rewardIncrement (s : State cfg) (totalSupply reward : ℕ) : ℕ :=
  (lastTimeRewardApplicable s - s.incentive.lastUpdateTime) * reward * cfg.multiplier / totalSupply

def calculateRewardPerToken (s : State cfg) : Except Fault (IncentiveConfig AccountId) := do
  let conf := s.incentive
  let totalSupply ← totalSupply s (some s.blockNumber)
  if totalSupply = 0 then pure conf
  else do
    ensure (∀ e ∈ conf.rewardRate.entries, rewardIncrement s totalSupply e.2 ≤ u128Max) .overflow
    pure { conf with
      rewardPerTokenStored := conf.rewardPerTokenStored.update conf.rewardRate fun _ reward stored =>
        some (U128.saturatingAdd (stored.getD 0) (rewardIncrement s totalSupply reward)) }

/-- `reward_per_token`: the configuration is stored. -/
def rewardPerToken (s : State cfg) : Except Fault (State cfg) := do
  let conf ← calculateRewardPerToken s
  pure (s.setIncentive conf)

def earnedIncrement (s : State cfg) (who : AccountId) (balance : ℕ) (currency : CurrencyId)
    (reward : ℕ) : ℕ :=
  balance * (reward - ((s.userRewardPerTokenPaid who).get currency).getD 0) / cfg.multiplier

/-- The rewards of an account with what it earned; the configuration is stored, too. -/
def earned (s : State cfg) (who : AccountId) :
    Except Fault (State cfg × Table CurrencyId ℕ) := do
  let s ← rewardPerToken s
  let balance ← balanceOfCurrentBlock s who
  let rewardPerToken := s.incentive.rewardPerTokenStored
  ensure (∀ e ∈ rewardPerToken.entries,
    cfg.multiplier ≠ 0 ∧ earnedIncrement s who balance e.1 e.2 ≤ u128Max) .overflow
  pure (s, ((s.rewards who).getD ∅).update rewardPerToken fun currency reward total =>
    some (U128.saturatingAdd (total.getD 0) (earnedIncrement s who balance currency reward)))

def State.creditOf (s : State cfg) (who : AccountId) (earned : Table CurrencyId ℕ)
    (currency : CurrencyId) : ℕ :=
  (earned.get currency).getD 0 - (((s.rewards who).getD ∅).get currency).getD 0

def State.credit (s : State cfg) (who : AccountId) (earned : Table CurrencyId ℕ) : State cfg :=
  if earned.entries = [] then s
  else { s with
    rewards := Function.update s.rewards who (some earned)
    history := { s.history with
      credited := fun currency => s.history.credited currency + s.creditOf who earned currency } }

/-- `update_reward` without an account. -/
def settlePool (s : State cfg) : Except Fault (State cfg) := do
  let s ← rewardPerToken s
  pure (s.setIncentive { s.incentive with lastUpdateTime := lastTimeRewardApplicable s })

def updateReward (s : State cfg) (who : Option AccountId) : Except Fault (State cfg) := do
  let s ← settlePool s
  match who with
  | none => pure s
  | some account => do
    let stored := s.incentive.rewardPerTokenStored
    let (s, earned) ← earned s account
    pure { s.credit account earned with
      userRewardPerTokenPaid := Function.update s.userRewardPerTokenPaid account stored }

def updateRewardAll (s : State cfg) (who : AccountId) : Except Fault (State cfg) :=
  updateReward s (some who)

/-- One currency of `get_rewards_inner`; rewards in BNC are minted into vBNC. -/
def payReward (who : AccountId) (s : State cfg) (e : CurrencyId × ℕ) : Except Fault (State cfg) := do
  let ledger ← mapErr (cfg.currencies.transfer s.ledger e.1 cfg.incentiveAccount who e.2) .token
  if e.1 = .native .BNC then do
    let (outside, ledger) ← okOr (cfg.mintVtoken s.outside ledger who e.2) .vtokenMinting
    pure { s with ledger := ledger, outside := outside }
  else pure { s with ledger := ledger }

/-- What follows the update of the rewards in `get_rewards_inner`. -/
def claimRewards (s : State cfg) (who : AccountId) : Except Fault (State cfg) := do
  let balance ← balanceOfCurrentBlock s who
  if balance = 0 then pure s
  else
    match s.rewards who with
    | none => pure s
    | some rewards => do
      let s ← rewards.entries.foldlM (payReward who) s
      pure { s with rewards := Function.update s.rewards who none }

def getRewards (s : State cfg) (who : AccountId) : Except Fault (State cfg) := do
  let s ← updateReward s (some who)
  claimRewards s who

/-- `get_rewards` for a gauge pool of the farming pallet. Such a pool has the default incentive
configuration: it has no rewards per token, and that is what the account counts as paid up to. -/
def getGaugeRewards (s : State cfg) (who : AccountId) : Except Fault (State cfg) := do
  let _ ← totalSupply s (some s.blockNumber)
  let _ ← balanceOfCurrentBlock s who
  claimRewards { s with
    userRewardPerTokenPaid := Function.update s.userRewardPerTokenPaid who ∅ } who

/-! Rounds. -/

def setIncentive (s : State cfg) (rewardsDuration : Option ℕ) (controller : Option AccountId) :
    State cfg :=
  s.setIncentive { s.incentive with
    rewardsDuration := rewardsDuration.getD s.incentive.rewardsDuration
    incentiveController := controller.or s.incentive.incentiveController }

/-- A reward with what is left of the round. -/
def withLeftover (conf : IncentiveConfig AccountId) (currency : CurrencyId) (remaining reward : ℕ) :
    Except Fault ℕ :=
  if remaining = 0 then pure reward
  else do
    let leftover ← okOr (U128.checkedMul ((conf.rewardRate.get currency).getD 0) remaining) .overflow
    pure (U128.saturatingAdd reward leftover)

/-- One currency of `add_reward`: all that the controller has of it, and what is left of the
round, for the duration of a round. -/
def addRewardOf (who : AccountId) (remaining : ℕ) (s : State cfg) (currency : CurrencyId) :
    Except Fault (State cfg) := do
  let conf := s.incentive
  let reward := cfg.currencies.freeBalance s.ledger currency who
  let totalReward ← withLeftover conf currency remaining reward
  let currencyAmount := cfg.currencies.freeBalance s.ledger currency cfg.incentiveAccount
  ensure (totalReward ≤ U128.saturatingAdd currencyAmount reward) (.pallet .notEnoughBalance)
  let newReward ← okOr (U128.checkedDiv totalReward conf.rewardsDuration) .overflow
  let s := s.setIncentive { conf with
    rewardRate := conf.rewardRate.write currency (some newReward) }
  if reward = 0 then pure s
  else do
    let ledger ← mapErr (cfg.currencies.transfer s.ledger currency who cfg.incentiveAccount reward)
      .token
    pure { s with
      ledger := ledger
      history := { s.history with
        notified := Function.update s.history.notified currency
          (s.history.notified currency + reward) } }

/-- `notify_reward_amount` after the rewards are updated. -/
def startRound (s : State cfg) (account : AccountId) (rewards : List CurrencyId) :
    Except Fault (State cfg) := do
  let remaining := s.incentive.periodFinish - s.blockNumber
  let s ← rewards.foldlM (addRewardOf account remaining) s
  pure (s.setIncentive { s.incentive with
    lastUpdateTime := s.blockNumber
    periodFinish := U32.saturatingAdd s.blockNumber s.incentive.rewardsDuration
    incentiveController := some account
    lastReward := rewards })

def notifyRewardAmount (s : State cfg) (who : Option AccountId) (rewards : List CurrencyId) :
    Except Fault (State cfg) := do
  let account ← okOr who (.pallet .noController)
  let s ← settlePool s
  startRound s account rewards

def notifyRewards (s : State cfg) (incentiveFrom : AccountId) (rewardsDuration : Option ℕ)
    (rewards : List CurrencyId) : Except Fault (State cfg) :=
  notifyRewardAmount (setIncentive s rewardsDuration (some incentiveFrom)) (some incentiveFrom)
    rewards

/-- The hook is no transaction: where the round does not start, the update stays. -/
def notifyOnBlock (s : State cfg) : State cfg :=
  if s.blockNumber = s.incentive.periodFinish then
    match s.incentive.incentiveController, settlePool s with
    | some account, .ok settled =>
      match startRound settled account s.incentive.lastReward with
      | .ok started => started
      | .error _ => settled
    | _, _ => s
  else s

end Bifrost.BbBnc
