import Bifrost.Lib.GroupIndex
import Bifrost.Lib.Result
import Bifrost.Primitives.Arithmetic
import Bifrost.Primitives.TimeUnit

/-!
# The unlock ledgers of one currency

`TokenUnlockLedger` holds the unlock records, `UserUnlockLedger` and `TimeUnitUnlockLedger`
index them by redeemer and by time unit, `UnlockingTotal` adds them up. The pallet keeps
them under the currency; everything here is about one currency. The user ledgers and the
time unit ledgers are updated alike. The time unit ledgers also store the currency they are
kept under, which is left out here.
-/

namespace Bifrost.VtokenMinting

open Result
set_option autoImplicit false

inductive Error where
  | belowMinimumMint
  | belowMinimumRedeem
  | invalidRebondToken
  | notSupportTokenType
  | notEnoughBalanceToUnlock
  | ongoingTimeUnitNotSet
  | tokenUnlockLedgerNotFound
  | userUnlockLedgerNotFound
  | timeUnitUnlockLedgerNotFound
  | unlockDurationNotFound
  | calculationOverflow
  | tooManyRedeems
  | canNotRebond
  | tokenAlreadyMapped
  | redeemNotEnabled
  | notEnoughBalance
  | bbBNCCheckingError
  | incentiveCoefNotFound
  | tooManyLocks
  | noUnlockRecord
  | failToRemoveLock
  | balanceZero
  | incentiveLockBlocksNotSet
  | unexpected
deriving DecidableEq, Repr

/-- Where a redemption goes; a number stands for an `H160`. -/
inductive RedeemType (AccountId : Type) where
  | native
  | astar (receiver : AccountId)
  | moonbeam (receiver : ℕ)
  | hydradx (receiver : AccountId)
  | interlay (receiver : AccountId)
  | manta (receiver : AccountId)
  | hyperBridge (dest : ℕ) (receiver : ℕ)
deriving DecidableEq

inductive Operation where
  | set
  | add
  | sub
deriving DecidableEq, Repr

structure UnlockRecord (AccountId : Type) where
  redeemer : AccountId
  amount : ℕ
  timeUnit : TimeUnit
  redeemType : RedeemType AccountId
deriving DecidableEq

structure UnlockLedgers (AccountId : Type) where
  token : Table ℕ (UnlockRecord AccountId)
  user : Table AccountId (Group ℕ)
  timeUnit : Table TimeUnit (Group ℕ)
  unlockingTotal : ℕ

/-- `MaximumUnlockIdOfUser` and `MaximumUnlockIdOfTimeUnit`. -/
structure Limits where
  user : ℕ
  timeUnit : ℕ

variable {AccountId : Type}

instance : EmptyCollection (UnlockLedgers AccountId) := ⟨⟨∅, ∅, ∅, 0⟩⟩

/-- The common body of `update_unlocking_total` and `update_token_pool`. -/
def updateTotal (total : ℕ) (currencyAmount : ℕ) : Operation → Except Error ℕ
  | .set => pure currencyAmount
  | .add => okOr (U128.checkedAdd total currencyAmount) .calculationOverflow
  | .sub => okOr (U128.checkedSub total currencyAmount) .calculationOverflow

/-- `update_token_unlock_ledger`: the boolean says whether the record is removed. -/
def updateTokenUnlockLedger (token : Table ℕ (UnlockRecord AccountId)) (redeemer : AccountId)
    (currencyAmount unlockId : ℕ) (lockToTimeUnit : TimeUnit)
    (redeemType : Option (RedeemType AccountId)) :
    Operation → Except Error (Bool × Table ℕ (UnlockRecord AccountId))
  | .set | .add => do
    let redeemType ← okOr redeemType .timeUnitUnlockLedgerNotFound
    pure (false, token.write unlockId
      (some ⟨redeemer, currencyAmount, lockToTimeUnit, redeemType⟩))
  | .sub => do
    let r ← okOr (token.get unlockId) .timeUnitUnlockLedgerNotFound
    if r.amount ≤ currencyAmount then pure (true, token.write unlockId none)
    else pure (false, token.write unlockId (some { r with amount := r.amount - currencyAmount }))

/-- The common body of `update_user_unlock_ledger` and `update_time_unit_unlock_ledger`;
`limit` is the bound of the id list. -/
def updateGroup (limit : ℕ) (ledger : Option (Group ℕ)) (currencyAmount unlockId : ℕ)
    (isRemoveRecord : Bool) : Operation → Except Error (Option (Group ℕ))
  | .set | .add =>
    match ledger with
    | some g => do
      ensure (g.ids.length < limit) .tooManyRedeems
      let total ← okOr (U128.checkedAdd g.total currencyAmount) .calculationOverflow
      pure (some ⟨total, g.ids ++ [unlockId]⟩)
    | none => do
      ensure (1 ≤ limit) .tooManyRedeems
      pure (some ⟨currencyAmount, [unlockId]⟩)
  | .sub => do
    let g ← okOr ledger .timeUnitUnlockLedgerNotFound
    pure (g.reduce unlockId currencyAmount isRemoveRecord)

def updateTimeUnitUnlockLedger (limits : Limits) (ledgers : Table TimeUnit (Group ℕ))
    (timeUnit : TimeUnit) (currencyAmount unlockId : ℕ) (operation : Operation)
    (isRemoveRecord : Bool) : Except Error (Table TimeUnit (Group ℕ)) := do
  let g ← updateGroup limits.timeUnit (ledgers.get timeUnit) currencyAmount unlockId
    isRemoveRecord operation
  pure (ledgers.write timeUnit g)

section Update

variable [DecidableEq AccountId]

def updateUserUnlockLedger (limits : Limits) (ledgers : Table AccountId (Group ℕ))
    (account : AccountId) (currencyAmount unlockId : ℕ) (operation : Operation)
    (isRemoveRecord : Bool) : Except Error (Table AccountId (Group ℕ)) := do
  let g ← updateGroup limits.user (ledgers.get account) currencyAmount unlockId isRemoveRecord
    operation
  pure (ledgers.write account g)

def UnlockLedgers.update (L : UnlockLedgers AccountId) (limits : Limits) (account : AccountId)
    (currencyAmount unlockId : ℕ) (lockToTimeUnit : TimeUnit)
    (redeemType : Option (RedeemType AccountId)) (operation : Operation) :
    Except Error (Bool × UnlockLedgers AccountId) := do
  let (isRemoveRecord, token) ← updateTokenUnlockLedger L.token account currencyAmount unlockId
    lockToTimeUnit redeemType operation
  let user ← updateUserUnlockLedger limits L.user account currencyAmount unlockId operation
    isRemoveRecord
  let timeUnit ← updateTimeUnitUnlockLedger limits L.timeUnit lockToTimeUnit currencyAmount
    unlockId operation isRemoveRecord
  let total ← updateTotal L.unlockingTotal currencyAmount operation
  pure (isRemoveRecord, ⟨token, user, timeUnit, total⟩)

end Update

/-! What the updates do. -/

theorem updateGroup_add_ok {limit : ℕ} {ledger g : Option (Group ℕ)} {n id : ℕ} {b : Bool}
    (h : updateGroup limit ledger n id b .add = .ok g) : g = some (Group.insert ledger id n) := by
  cases ledger with
  | some g₀ =>
    simp only [updateGroup, bind_eq_ok, ensure_eq_ok, okOr_eq_ok, U128.checkedAdd_eq_some,
      pure_eq_ok] at h
    obtain ⟨-, -, total, ⟨rfl, -⟩, rfl⟩ := h
    rfl
  | none =>
    simp only [updateGroup, bind_eq_ok, ensure_eq_ok, pure_eq_ok] at h
    obtain ⟨-, -, rfl⟩ := h
    rfl

theorem updateGroup_sub_ok {limit : ℕ} {ledger g : Option (Group ℕ)} {n id : ℕ} {b : Bool}
    (h : updateGroup limit ledger n id b .sub = .ok g) :
    ∃ g₀, ledger = some g₀ ∧ g = g₀.reduce id n b := by
  simp only [updateGroup, bind_eq_ok, okOr_eq_ok, pure_eq_ok] at h
  obtain ⟨g₀, hg₀, rfl⟩ := h
  exact ⟨g₀, hg₀, rfl⟩

section UpdateLemmas

variable [DecidableEq AccountId] {L L' : UnlockLedgers AccountId} {limits : Limits}
  {account : AccountId} {n id : ℕ} {t : TimeUnit} {rt : Option (RedeemType AccountId)} {b : Bool}

theorem update_add_ok (h : L.update limits account n id t rt .add = .ok (b, L')) :
    ∃ redeemType, rt = some redeemType ∧ b = false ∧ L.unlockingTotal + n ≤ u128Max ∧
      L' = ⟨L.token.write id (some ⟨account, n, t, redeemType⟩),
        L.user.write account (some (Group.insert (L.user.get account) id n)),
        L.timeUnit.write t (some (Group.insert (L.timeUnit.get t) id n)),
        L.unlockingTotal + n⟩ := by
  simp only [UnlockLedgers.update, updateTokenUnlockLedger, updateUserUnlockLedger,
    updateTimeUnitUnlockLedger, updateTotal, bind_eq_ok, okOr_eq_ok, pure_eq_ok,
    U128.checkedAdd_eq_some] at h
  obtain ⟨⟨b', token⟩, ⟨redeemType, hrt, htoken⟩, user, ⟨g, hg, rfl⟩, unit, ⟨g', hg', rfl⟩, total,
    ⟨rfl, hmax⟩, h⟩ := h
  cases htoken
  cases h
  rw [updateGroup_add_ok hg, updateGroup_add_ok hg']
  exact ⟨redeemType, hrt, rfl, hmax, rfl⟩

theorem update_sub_ok (h : L.update limits account n id t rt .sub = .ok (b, L')) :
    ∃ r g g', L.token.get id = some r ∧ L.user.get account = some g ∧
      L.timeUnit.get t = some g' ∧ n ≤ L.unlockingTotal ∧ b = decide (r.amount ≤ n) ∧
      L' = ⟨L.token.write id
          (if r.amount ≤ n then none else some { r with amount := r.amount - n }),
        L.user.write account (g.reduce id n b), L.timeUnit.write t (g'.reduce id n b),
        L.unlockingTotal - n⟩ := by
  simp only [UnlockLedgers.update, updateTokenUnlockLedger, updateUserUnlockLedger,
    updateTimeUnitUnlockLedger, updateTotal, bind_eq_ok, okOr_eq_ok, pure_eq_ok,
    U128.checkedSub_eq_some] at h
  obtain ⟨⟨b', token⟩, ⟨r, hr, htoken⟩, user, ⟨g, hg, rfl⟩, unit, ⟨g', hg', rfl⟩, total,
    ⟨hle, rfl⟩, h⟩ := h
  obtain ⟨g₀, hg₀, rfl⟩ := updateGroup_sub_ok hg
  obtain ⟨g₁, hg₁, rfl⟩ := updateGroup_sub_ok hg'
  cases h
  refine ⟨r, g₀, g₁, hr, hg₀, hg₁, hle, ?_, ?_⟩
  · split at htoken
    · cases htoken
      simp [*]
    · cases htoken
      simp [*]
  · split at htoken
    · cases htoken
      simp [*]
    · cases htoken
      simp [*]

end UpdateLemmas

end Bifrost.VtokenMinting
