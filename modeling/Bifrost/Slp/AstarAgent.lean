import Bifrost.Slp.PolkadotAgent

/-!
# The agent for Astar

The ledger is that of the relay chains, without rebonding. Locking goes through `bond_extra` with
no validator, staking on a contract leaves the ledger alone.
-/

namespace Bifrost.Slp

open Result
set_option autoImplicit false

variable {AccountId : Type} [DecidableEq AccountId] {cfg : Config AccountId}

namespace AstarAgent

def bond (s : State cfg) (who : MultiLocation AccountId) (amount : ℕ)
    (validator : Option (MultiLocation AccountId)) (c : CurrencyId)
    (weightAndFee : Option (ℕ × ℕ)) : Except Fault (ℕ × State cfg) := do
  let contract ← okOr validator (.pallet .validatorNotProvided)
  let minsMaxs ← s.getMinimumsAndMaximums c
  ensure (minsMaxs.bondExtraMinimum ≤ amount) (.pallet .lowerThanMinimum)
  let validatorList ← okOr (s.settings.validators c) (.pallet .validatorSetNotExist)
  ensure (contract ∈ validatorList) (.pallet .validatorNotExist)
  ensure ((s.getLedger c who).isSome ∨ minsMaxs.delegatorBondedMinimum ≤ amount)
    (.pallet .lowerThanMinimum)
  let contractH160 ← multilocationToH160Account contract
  let s ← s.sendWithoutRecord .bond (.stake contractH160 amount) who c weightAndFee
  pure (0, s)

def bondExtra (s : State cfg) (who : MultiLocation AccountId) (amount : ℕ)
    (validator : Option (MultiLocation AccountId)) (c : CurrencyId)
    (weightAndFee : Option (ℕ × ℕ)) : Except Fault (ℕ × State cfg) :=
  match validator with
  | some _ => do
    let s ← s.sendWithoutRecord .payout (.unlock amount) who c weightAndFee
    pure (0, s)
  | none =>
    let s := if (s.getLedger c who).isNone then
        s.setLedger c who (some (.substrate ⟨who, 0, 0, []⟩))
      else s
    s.sendWithRecord .payout (.lock amount) who c weightAndFee fun s queryId timeout =>
      s.insertSubstrateEntry who .bond amount queryId timeout c

def unbond (s : State cfg) (who : MultiLocation AccountId) (amount : ℕ)
    (validator : Option (MultiLocation AccountId)) (c : CurrencyId)
    (weightAndFee : Option (ℕ × ℕ)) : Except Fault (ℕ × State cfg) := do
  let minsMaxs ← s.getMinimumsAndMaximums c
  ensure (minsMaxs.unbondMinimum ≤ amount) (.pallet .lowerThanMinimum)
  let contract ← okOr validator (.pallet .validatorNotProvided)
  let ledger ← s.bondedLedger c who
  let ledger ← ledger.asSubstrate
  ensure (ledger.unlocking.length < minsMaxs.unbondRecordMaximum) (.pallet .exceedUnlockingRecords)
  let contractH160 ← multilocationToH160Account contract
  s.sendWithRecord .unbond (.unstake contractH160 amount) who c weightAndFee
    fun s queryId timeout => s.insertSubstrateEntry who .unlock amount queryId timeout c

def payout (s : State cfg) (who validator : MultiLocation AccountId) (c : CurrencyId)
    (weightAndFee : Option (ℕ × ℕ)) : Except Fault (ℕ × State cfg) := do
  let call : RemoteCall AccountId ←
    if validator = default then pure .claimStakerRewards
    else .claimBonusReward <$> multilocationToH160Account validator
  let s ← s.sendWithoutRecord .payout call who c weightAndFee
  pure (0, s)

def liquidize (s : State cfg) (who : MultiLocation AccountId) (c : CurrencyId)
    (weightAndFee : Option (ℕ × ℕ)) : Except Fault (ℕ × State cfg) := do
  ensure (s.settings.delegatorsMultilocation2Index c who ≠ none) (.pallet .delegatorNotExist)
  s.sendWithRecord .liquidize .claimUnlocked who c weightAndFee fun s queryId timeout =>
    s.insertSubstrateEntry who .liquidize 0 queryId timeout c

def transferBack (s : State cfg) (source : MultiLocation AccountId) (amount : ℕ) (c : CurrencyId)
    (weightAndFee : Option (ℕ × ℕ)) : Except Fault (State cfg) := do
  ensure (amount ≠ 0) (.pallet .amountZero)
  ensure (s.settings.delegatorsMultilocation2Index c source ≠ none) (.pallet .delegatorNotExist)
  s.sendWithoutRecord .transferBack (.transfer cfg.minting.entranceAccount amount) source c
    weightAndFee

def updateLedger (ledger : SubstrateLedger AccountId)
    (entry : SubstrateLedgerUpdateEntry AccountId) : Except Fault (SubstrateLedger AccountId) :=
  match entry.updateOperation with
  | .bond => ledger.bond entry.amount
  | .unlock => ledger.unlock entry.amount entry.unlockTime
  | .rebond => .error (.pallet .unexpected)
  | .liquidize => ledger.liquidize entry.unlockTime

def updateLedgerQueryResponseStorage (s : State cfg) (queryId : ℕ)
    (entry : LedgerUpdateEntry AccountId) (c : CurrencyId) : Except Fault (State cfg) :=
  match entry with
  | .substrate entry => do
    let s ← s.mutateSubstrate c entry.delegatorId fun ledger => updateLedger ledger entry
    pure (s.setLedgerQuery queryId none)
  | _ => .error (.pallet .unexpected)

def checkDelegatorLedgerQueryResponse (s : State cfg) (queryId : ℕ)
    (entry : LedgerUpdateEntry AccountId) (c : CurrencyId) : Except Fault (State cfg) := do
  let s ← updateLedgerQueryResponseStorage s queryId entry c
  pure (s.depositEvent (.delegatorLedgerQueryResponseConfirmed queryId entry))

end AstarAgent

end Bifrost.Slp
