import Bifrost.Lib.Machine
import Bifrost.Lib.Result
import Bifrost.Lib.Table
import Bifrost.Primitives.MultiCurrency
import Bifrost.Primitives.PerThing
import Bifrost.Primitives.TimeUnit

/-!
# The crowdloan pallet

A parachain has one fund under its id. When a fund failed and was continued with other slots, it
is kept under its own slots, and the fund under the id carries its contributions on. What the
funds raised comes back into one pool, out of which refunds and redemptions are paid.
-/

namespace Bifrost.Salp

open Result
set_option autoImplicit false

inductive FundStatus where
  | ongoing
  | retired
  | success
  | failed
  | refundWithdrew
  | redeemWithdrew
  | failedToContinue
  | fundEnd
deriving DecidableEq

structure FundInfo where
  raised : ℕ
  cap : ℕ
  firstSlot : UInt32
  lastSlot : UInt32
  trieIndex : UInt32
  status : FundStatus
deriving DecidableEq

inductive Error where
  | overflow
  | invalidParaId
  | invalidFundStatus
  | vsBondExpired
  | notEnoughFreeAssetsToRedeem
  | notEnoughBalanceInRefundPool
  | notEnoughBalanceInRedeemPool
  | notEnoughBalanceInFund
  | invalidFundNotExist
  | invalidRefund
  | notSupportTokenType
deriving DecidableEq

inductive Fault where
  | pallet (e : Error)
  | token (e : TokenError)
  | badOrigin
deriving DecidableEq

structure Config (AccountId : Type) where
  currency : MultiCurrency AccountId
  ensureCanWithdraw : currency.Ledger → CurrencyId → AccountId → ℕ → Except TokenError Unit
  relayChainToken : CurrencyId
  leasePeriod : ℕ
  vsBondValidPeriod : ℕ
  removeKeysLimit : ℕ
  /-- The sub-account of the pallet for a parachain. -/
  fundAccountId : UInt32 → AccountId
  treasuryAccount : AccountId
  buybackAccount : AccountId

/-- A contribution trie is listed in the order of its keys, without the contributions' status. -/
structure State {AccountId : Type} (cfg : Config AccountId) where
  funds : Table UInt32 FundInfo
  failedFundsToRefund : Table (UInt32 × UInt32 × UInt32) FundInfo
  redeemPool : ℕ
  contributions : UInt32 → List (AccountId × ℕ)
  ledger : cfg.currency.Ledger

inductive Origin (AccountId : Type) where
  | signed (who : AccountId)
  | governance

def convertToVstoken : CurrencyId → Option CurrencyId
  | .token symbol => some (.vsToken symbol)
  | .token2 id => some (.vsToken2 id)
  | _ => none

def convertToVsbond (index firstSlot lastSlot : UInt32) : CurrencyId → Option CurrencyId
  | .token symbol =>
    if CurrencyId.vsBond symbol index firstSlot lastSlot = .vsBond .KSM 2001 13 20 then
      some (.vsBond .BNC 2001 13 20)
    else some (.vsBond symbol index firstSlot lastSlot)
  | .token2 id => some (.vsBond2 id index firstSlot lastSlot)
  | _ => none

variable {AccountId : Type} (cfg : Config AccountId)

def blockEndOfLeasePeriodIndex (slot : UInt32) : ℕ :=
  min ((slot.toNat + 1) % 2 ^ 32 * cfg.leasePeriod) u32Max

def isExpired (block : ℕ) (lastSlot : UInt32) : Bool :=
  U32.saturatingAdd (blockEndOfLeasePeriodIndex cfg lastSlot) cfg.vsBondValidPeriod ≤ block

variable {cfg}

def ensureSigned : Origin AccountId → Except Fault AccountId
  | .signed who => pure who
  | .governance => .error .badOrigin

def ensureGovernance : Origin AccountId → Except Fault PUnit
  | .signed _ => .error .badOrigin
  | .governance => pure ⟨⟩

namespace State

variable (s : State cfg)

def fund (index : UInt32) : Except Fault FundInfo := okOr (s.funds.get index) (.pallet .invalidParaId)

def setFund (index : UInt32) (fund : Option FundInfo) : State cfg :=
  { s with funds := s.funds.write index fund }

def findFund (index firstSlot lastSlot : UInt32) : Except Fault FundInfo :=
  match s.failedFundsToRefund.get (index, firstSlot, lastSlot) with
  | some fund => pure fund
  | none => okOr (s.funds.get index) (.pallet .invalidFundNotExist)

/-- The vsToken and the vsBond of a fund leave the caller. -/
def burnShares (who : AccountId) (index : UInt32) (fund : FundInfo) (value : ℕ) :
    Except Fault cfg.currency.Ledger := do
  let vsToken ← okOr (convertToVstoken cfg.relayChainToken) (.pallet .notSupportTokenType)
  let vsBond ← okOr (convertToVsbond index fund.firstSlot fund.lastSlot cfg.relayChainToken)
    (.pallet .notSupportTokenType)
  let _ ← mapErr (cfg.ensureCanWithdraw s.ledger vsToken who value)
    fun _ => Fault.pallet .notEnoughFreeAssetsToRedeem
  let _ ← mapErr (cfg.ensureCanWithdraw s.ledger vsBond who value)
    fun _ => Fault.pallet .notEnoughFreeAssetsToRedeem
  let ledger ← mapErr (cfg.currency.withdraw s.ledger vsToken who value) .token
  mapErr (cfg.currency.withdraw ledger vsBond who value) .token

/-- The relay chain's tokens are paid from the account of the fund. -/
def payOut (ledger : cfg.currency.Ledger) (who : AccountId) (index : UInt32) (value : ℕ) :
    Except Fault (State cfg) := do
  let ledger ← mapErr (cfg.currency.transfer ledger cfg.relayChainToken (cfg.fundAccountId index)
    who value) .token
  pure { s with ledger }

def fundRetire (index : UInt32) : Except Fault (State cfg) := do
  let fund ← s.fund index
  ensure (fund.status = .success) (.pallet .invalidFundStatus)
  pure (s.setFund index (some { fund with status := .retired }))

def fundEnd (index : UInt32) : Except Fault (State cfg) := do
  let fund ← s.fund index
  ensure (fund.status = .refundWithdrew ∨ fund.status = .redeemWithdrew)
    (.pallet .invalidFundStatus)
  pure (s.setFund index (some { fund with status := .fundEnd }))

def edit (index : UInt32) (cap raised : ℕ) (firstSlot lastSlot : UInt32)
    (fundStatus : Option FundStatus) : Except Fault (State cfg) := do
  let fund ← s.fund index
  pure (s.setFund index
    (some ⟨raised, cap, firstSlot, lastSlot, fund.trieIndex, fundStatus.getD fund.status⟩))

def withdraw (index : UInt32) : Except Fault (State cfg) := do
  let fund ← s.fund index
  ensure (fund.status = .failed ∨ fund.status = .retired) (.pallet .invalidFundStatus)
  let total ← okOr (U128.checkedAdd s.redeemPool fund.raised) (.pallet .overflow)
  let status := if fund.status = .retired then FundStatus.redeemWithdrew else .refundWithdrew
  pure { s.setFund index (some { fund with status }) with redeemPool := total }

def refund (who : AccountId) (index firstSlot lastSlot : UInt32) (value : ℕ) :
    Except Fault (State cfg) := do
  let fund ← mapErr (s.findFund index firstSlot lastSlot) fun _ => .pallet .invalidFundNotExist
  ensure (fund.status = .failedToContinue ∨ fund.status = .refundWithdrew) (.pallet .invalidRefund)
  ensure (fund.firstSlot = firstSlot ∧ fund.lastSlot = lastSlot) (.pallet .invalidRefund)
  ensure (value ≤ fund.raised) (.pallet .notEnoughBalanceInFund)
  ensure (value ≤ s.redeemPool) (.pallet .notEnoughBalanceInRefundPool)
  let ledger ← s.burnShares who index fund value
  let s := { s with redeemPool := s.redeemPool - value }
  let fundNew ← s.fund index
  let s := s.setFund index (some { fundNew with raised := fundNew.raised - value })
  let failed := if fund.status = .failedToContinue then
      s.failedFundsToRefund.write (index, firstSlot, lastSlot)
        (some { fund with raised := fund.raised - value })
    else s.failedFundsToRefund
  { s with failedFundsToRefund := failed }.payOut ledger who index value

def redeem (who : AccountId) (now : ℕ) (index : UInt32) (value : ℕ) : Except Fault (State cfg) := do
  let fund ← s.fund index
  ensure (fund.status = .redeemWithdrew) (.pallet .invalidFundStatus)
  ensure (value ≤ fund.raised) (.pallet .notEnoughBalanceInRedeemPool)
  ensure (value ≤ s.redeemPool) (.pallet .notEnoughBalanceInRedeemPool)
  ensure (isExpired cfg now fund.lastSlot = false) (.pallet .vsBondExpired)
  let ledger ← s.burnShares who index fund value
  let s := { s with redeemPool := s.redeemPool - value }
  (s.setFund index (some { fund with raised := fund.raised - value })).payOut ledger who index value

def dissolveRefunded (index firstSlot lastSlot : UInt32) : Except Fault (State cfg) := do
  let fund ← okOr (s.failedFundsToRefund.get (index, firstSlot, lastSlot)) (.pallet .invalidRefund)
  ensure (fund.status = .failedToContinue) (.pallet .invalidFundStatus)
  let failed := s.failedFundsToRefund.write (index, firstSlot, lastSlot) none
  pure { s with failedFundsToRefund := failed }

def dissolve (index : UInt32) : Except Fault (State cfg) := do
  let fund ← s.fund index
  ensure (fund.status = .fundEnd) (.pallet .invalidFundStatus)
  let contributions := s.contributions fund.trieIndex
  let s := { s with
    contributions := fun i =>
      if i = fund.trieIndex then contributions.drop cfg.removeKeysLimit else s.contributions i }
  -- as many contributions are removed as the limit allows, and the fund goes with the last
  if contributions.length ≤ cfg.removeKeysLimit then do
    let account := cfg.fundAccountId index
    let balance := cfg.currency.freeBalance s.ledger cfg.relayChainToken account
    let ledger ← mapErr (cfg.currency.transfer s.ledger cfg.relayChainToken account
      cfg.treasuryAccount (Percent.mul ⟨25, by decide⟩ balance)) .token
    let ledger ← mapErr (cfg.currency.transfer ledger cfg.relayChainToken account
      cfg.buybackAccount (Percent.mul ⟨75, by decide⟩ balance)) .token
    pure { s.setFund index none with ledger }
  else pure s

end State

inductive Call (AccountId : Type) where
  | fundRetire (origin : Origin AccountId) (index : UInt32)
  | fundEnd (origin : Origin AccountId) (index : UInt32)
  | edit (origin : Origin AccountId) (index : UInt32) (cap raised : ℕ) (firstSlot lastSlot : UInt32)
      (fundStatus : Option FundStatus)
  | withdraw (origin : Origin AccountId) (index : UInt32)
  | refund (origin : Origin AccountId) (index firstSlot lastSlot : UInt32) (value : ℕ)
  | redeem (origin : Origin AccountId) (now : ℕ) (index : UInt32) (value : ℕ)
  | dissolveRefunded (origin : Origin AccountId) (index firstSlot lastSlot : UInt32)
  | dissolve (origin : Origin AccountId) (index : UInt32)

def step (s : State cfg) : Call AccountId → Except Fault (State cfg)
  | .fundRetire origin index => do
    ensureGovernance origin
    s.fundRetire index
  | .fundEnd origin index => do
    ensureGovernance origin
    s.fundEnd index
  | .edit origin index cap raised firstSlot lastSlot fundStatus => do
    ensureGovernance origin
    s.edit index cap raised firstSlot lastSlot fundStatus
  | .withdraw origin index => do
    ensureGovernance origin
    s.withdraw index
  | .refund origin index firstSlot lastSlot value => do
    let who ← ensureSigned origin
    s.refund who index firstSlot lastSlot value
  | .redeem origin now index value => do
    let who ← ensureSigned origin
    s.redeem who now index value
  | .dissolveRefunded origin index firstSlot lastSlot => do
    ensureGovernance origin
    s.dissolveRefunded index firstSlot lastSlot
  | .dissolve origin index => do
    ensureGovernance origin
    s.dissolve index

end Bifrost.Salp
