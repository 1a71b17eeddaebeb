import Bifrost.SystemStaking.Processing
import Bifrost.VtokenMinting.Agreement

/-!
# Every unbacked token is accounted for

In every run whose steps are clean the shadow amount of a token is what was created and not
destroyed, and what is waited for is part of it. A payout leaves the vTokens that back what is not
waited for.
-/

namespace Bifrost.SystemStaking

open Result Machine VtokenMinting Shares
set_option autoImplicit false

variable {AccountId : Type} [DecidableEq AccountId] {cfg : Config AccountId} {s s' : State cfg}
  {c : CurrencyId}

/-- The vTokens of the pallet account are worth the amount. -/
def Covers (s : State cfg) (token v : CurrencyId) (amount : ℕ) : Prop :=
  ∃ worth, VtokenMinting.State.getCurrencyAmountByVCurrencyAmount s token v
    (cfg.outside.currency.freeBalance s.tokens v cfg.palletAccount) = .ok worth ∧ amount ≤ worth

namespace Sample

def config : Config ℕ where
  outside := VtokenMinting.Sample.config
  palletAccount := 200
  benefitReceivingAccount := 201
  blocksPerRound := 2
  maxTokenLen := 500
  refusedMint := fun s _ _ => s
  refusedRedeem := fun s _ _ => s

def start : State config := genesis config (fun _ _ => 0)

/-- A hundred tokens are to be staked, from the second block on, in the block after a round
starts. -/
def setup (configs : List VTokenTokenConfig) : List (Origin × Call config) :=
  [(.control, .minting (.setVtokenMultimap vEth configs)),
    (.control, .tokenConfig hpEth (some 1) (some 100))]

def blocks (n : ℕ) : List (Origin × Call config) := List.replicate n (.control, .nextBlock)

def minted : List (Origin × Call config) := setup [⟨hpEth, true⟩] ++ blocks 3

end Sample

end Bifrost.SystemStaking
