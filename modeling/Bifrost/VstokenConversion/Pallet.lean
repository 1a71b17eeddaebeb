import Bifrost.Lib.Machine
import Bifrost.Lib.Result
import Bifrost.Primitives.Circulation
import Bifrost.Primitives.PerThing

/-!
# The vsToken conversion pallet

A vsBond is turned into vsToken at a percentage that depends on how many leases it has left, and
vsToken into a vsBond at the reciprocal of another one. The bonds go to and come from the account
of the pallet; a fee is kept back each time.
-/

namespace Bifrost.VstokenConversion

open Result
set_option autoImplicit false

structure ExchangeRate where
  vsbondConvertToVstoken : Percent
  vstokenConvertToVsbond : Percent
deriving DecidableEq

structure ExchangeFee where
  vstokenExchangeFee : ℕ
  vsbondExchangeFeeOfVstoken : ℕ

inductive Error where
  | notEnoughBalance
  | notSupportTokenType
  | calculationOverflow
deriving DecidableEq

inductive Fault where
  | pallet (e : Error)
  | token (e : TokenError)
  | badOrigin
deriving DecidableEq

structure Config (AccountId : Type) where
  currency : Circulation AccountId
  relayCurrencyId : CurrencyId
  treasuryAccount : AccountId
  vsbondAccount : AccountId

structure State {AccountId : Type} (cfg : Config AccountId) where
  relaychainLease : UInt32
  exchangeRate : ℤ → ExchangeRate
  exchangeFee : ExchangeFee
  ledger : cfg.currency.Ledger

inductive Origin (AccountId : Type) where
  | signed (who : AccountId)
  | control

def convertToVstoken : CurrencyId → Option CurrencyId
  | .token symbol => some (.vsToken symbol)
  | .token2 id => some (.vsToken2 id)
  | _ => none

/-- The last slot of the bonds that are converted. -/
def expireLease : CurrencyId → Option UInt32
  | .vsBond .KSM _ _ lease | .vsBond .BNC _ _ lease | .vsBond2 _ _ _ lease => some lease
  | _ => none

def I32.InRange (n : ℤ) : Prop := -2 ^ 31 ≤ n ∧ n < 2 ^ 31

instance (n : ℤ) : Decidable (I32.InRange n) := inferInstanceAs (Decidable (_ ∧ _))

/-- The leases that a bond has left, where they are fewer than ten. -/
def remainingDueLease (relayLease : UInt32) (vsBond : CurrencyId) : Except Fault ℤ := do
  let lease ← okOr (expireLease vsBond) (.pallet .notSupportTokenType)
  let remaining := (lease.toNat : ℤ) - relayLease.toNat
  ensure (I32.InRange remaining) (.pallet .calculationOverflow)
  ensure (I32.InRange (remaining + 1)) (.pallet .calculationOverflow)
  ensure (remaining + 1 ≤ 9) (.pallet .notSupportTokenType)
  pure (max (remaining + 1) (-2))

variable {AccountId : Type} {cfg : Config AccountId}

namespace State

variable (s : State cfg)

def vsbondConvertToVstoken (exchanger : AccountId) (vsBond : CurrencyId)
    (vsbondAmount minimumVstoken : ℕ) : Except Fault (State cfg) := do
  ensure (vsbondAmount ≤ cfg.currency.freeBalance s.ledger vsBond exchanger)
    (.pallet .notEnoughBalance)
  ensure (cfg.currency.minimumBalance cfg.relayCurrencyId ≤ minimumVstoken)
    (.pallet .notEnoughBalance)
  let remaining ← remainingDueLease s.relaychainLease vsBond
  let rate := s.exchangeRate remaining
  let fee := s.exchangeFee.vsbondExchangeFeeOfVstoken
  let vsbondBalance ← okOr (U128.checkedSub vsbondAmount fee) (.pallet .calculationOverflow)
  let vstokenBalance := rate.vsbondConvertToVstoken.mul vsbondBalance
  ensure (minimumVstoken ≤ vstokenBalance) (.pallet .notEnoughBalance)
  let ledger ← mapErr (cfg.currency.transfer s.ledger vsBond exchanger cfg.vsbondAccount
    vsbondAmount) .token
  let vsToken ← okOr (convertToVstoken cfg.relayCurrencyId) (.pallet .notSupportTokenType)
  let ledger ← mapErr (cfg.currency.deposit ledger vsToken exchanger vstokenBalance) .token
  let ledger ← mapErr (cfg.currency.deposit ledger vsBond cfg.treasuryAccount fee) .token
  pure { s with ledger }

def vstokenConvertToVsbond (exchanger : AccountId) (vsBond : CurrencyId)
    (vstokenAmount minimumVsbond : ℕ) : Except Fault (State cfg) := do
  let vsToken ← okOr (convertToVstoken cfg.relayCurrencyId) (.pallet .notSupportTokenType)
  ensure (vstokenAmount ≤ cfg.currency.freeBalance s.ledger vsToken exchanger)
    (.pallet .notEnoughBalance)
  ensure (cfg.currency.minimumBalance vsBond ≤ minimumVsbond) (.pallet .notEnoughBalance)
  let remaining ← remainingDueLease s.relaychainLease vsBond
  let rate := s.exchangeRate remaining
  ensure (rate.vstokenConvertToVsbond ≠ .zero) (.pallet .calculationOverflow)
  let fee := s.exchangeFee.vstokenExchangeFee
  let vstokenBalance ← okOr (U128.checkedSub vstokenAmount fee) (.pallet .calculationOverflow)
  let vsbondBalance ← okOr (rate.vstokenConvertToVsbond.saturatingReciprocalMul vstokenBalance)
    (.pallet .calculationOverflow)
  ensure (minimumVsbond ≤ vsbondBalance) (.pallet .notEnoughBalance)
  let ledger ← mapErr (cfg.currency.transfer s.ledger vsBond cfg.vsbondAccount exchanger
    vsbondBalance) .token
  let ledger ← mapErr (cfg.currency.withdraw ledger vsToken exchanger vstokenAmount) .token
  let ledger ← mapErr (cfg.currency.deposit ledger vsToken cfg.treasuryAccount fee) .token
  pure { s with ledger }

end State

inductive Call (AccountId : Type) where
  | vsbondConvertToVstoken (origin : Origin AccountId) (vsBond : CurrencyId)
      (vsbondAmount minimumVstoken : ℕ)
  | vstokenConvertToVsbond (origin : Origin AccountId) (vsBond : CurrencyId)
      (vstokenAmount minimumVsbond : ℕ)
  | setExchangeFee (origin : Origin AccountId) (exchangeFee : ExchangeFee)
  | setExchangeRate (origin : Origin AccountId) (lease : ℤ) (exchangeRate : ExchangeRate)
  | setRelaychainLease (origin : Origin AccountId) (lease : UInt32)

def ensureSigned : Origin AccountId → Except Fault AccountId
  | .signed who => pure who
  | .control => .error .badOrigin

def ensureControl : Origin AccountId → Except Fault PUnit
  | .signed _ => .error .badOrigin
  | .control => pure ⟨⟩

def step (s : State cfg) : Call AccountId → Except Fault (State cfg)
  | .vsbondConvertToVstoken origin vsBond vsbondAmount minimumVstoken => do
    let exchanger ← ensureSigned origin
    s.vsbondConvertToVstoken exchanger vsBond vsbondAmount minimumVstoken
  | .vstokenConvertToVsbond origin vsBond vstokenAmount minimumVsbond => do
    let exchanger ← ensureSigned origin
    s.vstokenConvertToVsbond exchanger vsBond vstokenAmount minimumVsbond
  | .setExchangeFee origin exchangeFee => do
    ensureControl origin
    pure { s with exchangeFee }
  | .setExchangeRate origin lease exchangeRate => do
    ensureControl origin
    pure { s with exchangeRate := Function.update s.exchangeRate lease exchangeRate }
  | .setRelaychainLease origin lease => do
    ensureControl origin
    pure { s with relaychainLease := lease }

end Bifrost.VstokenConversion
