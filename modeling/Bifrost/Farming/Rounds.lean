import Bifrost.Farming.Transitions

/-!
# The two ways a boost round starts

Both pay the pools by the votes of the finished round, change the whitelist and clear the
tallies. `start_boost_round_inner` clears the total before it pays, so every voted pool is
paid by a proportion of one, in turn. `auto_start_boost_round` pays by the finished total, but
clears the whitelist before it copies it.
-/

namespace Bifrost.Farming

open Result Machine
set_option autoImplicit false

variable {AccountId : Type} {cfg : Config AccountId}

/-! The payments of a round. -/

def recorded (roundLength : ℕ) (rewards : ℕ → CurrencyId → Option ℕ)
    (paid : List (ℕ × CurrencyId × ℕ)) : ℕ → CurrencyId → Option ℕ :=
  paid.foldl (fun rewards p => Function.update rewards p.1
    (Function.update (rewards p.1) p.2.1 (U128.checkedDiv p.2.2 roundLength))) rewards

section Payments

variable {L L' : cfg.currencies.Ledger} {entries : List (ℕ × ℕ × CurrencyId)}
  {paid : List (ℕ × CurrencyId × ℕ)}

end Payments

/-! The two starts. -/

section Starts

variable {s s' : State cfg} {roundLength : ℕ}

end Starts

namespace Sample

def voted (nextRound : List ℕ) : List (Call config) :=
  [.createFarmingPool [(dot, .one)] [(bnc, 10)] none 0 0 0 0 5,
    .createFarmingPool [(dot, .one)] [(bnc, 10)] none 0 0 0 0 5,
    .addBoostPoolWhitelist [0, 1], .startBoostRound 10, .vote 1 [(0, .fromPercent 100)],
    .vote 2 [(1, .fromPercent 100)], .chargeBoost 3 [(bnc, 1000)],
    .setNextRoundWhitelist nextRound, .endBoostRound]

end Sample

end Bifrost.Farming
