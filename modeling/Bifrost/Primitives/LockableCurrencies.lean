import Bifrost.Lib.Result
import Bifrost.Primitives.Currencies
import Mathlib.Data.Fintype.Basic

/-!
# Currencies with locks

The `MultiLockableCurrency` trait. A lock with an identifier is laid on the balance of an account
and replaces the one before it; it may be more than the balance. What is locked cannot be paid
out: a balance that covers a lock covers it after every movement of tokens (`Moves`).
-/

namespace Bifrost

set_option autoImplicit false

structure LockableCurrencies (AccountId LockId : Type) [DecidableEq AccountId]
    [DecidableEq LockId] extends Currencies AccountId where
  lock : Ledger → LockId → CurrencyId → AccountId → ℕ
  setLock : Ledger → LockId → CurrencyId → AccountId → ℕ → Except TokenError Ledger
  removeLock : Ledger → LockId → CurrencyId → AccountId → Except TokenError Ledger
  setLock_lock : ∀ {L L' i c x n}, setLock L i c x n = .ok L' → n ≠ 0 → ∀ j d y,
    lock L' j d y = if j = i ∧ d = c ∧ y = x then n else lock L j d y
  setLock_free : ∀ {L L' i c x n}, setLock L i c x n = .ok L' → freeBalance L' = freeBalance L
  removeLock_lock : ∀ {L L' i c x}, removeLock L i c x = .ok L' → ∀ j d y,
    lock L' j d y = if j = i ∧ d = c ∧ y = x then 0 else lock L j d y
  removeLock_free : ∀ {L L' i c x}, removeLock L i c x = .ok L' → freeBalance L' = freeBalance L
  transfer_lock : ∀ {L L' c a b n}, transfer L c a b n = .ok L' → lock L' = lock L
  deposit_lock : ∀ {L L' c x n}, deposit L c x n = .ok L' → lock L' = lock L
  withdraw_lock : ∀ {L L' c x n}, withdraw L c x n = .ok L' → lock L' = lock L
  transfer_covers : ∀ {L L' c a b n}, transfer L c a b n = .ok L' → ∀ i d y,
    lock L i d y ≤ freeBalance L d y → lock L i d y ≤ freeBalance L' d y
  deposit_covers : ∀ {L L' c x n}, deposit L c x n = .ok L' → ∀ i d y,
    lock L i d y ≤ freeBalance L d y → lock L i d y ≤ freeBalance L' d y
  withdraw_covers : ∀ {L L' c x n}, withdraw L c x n = .ok L' → ∀ i d y,
    lock L i d y ≤ freeBalance L d y → lock L i d y ≤ freeBalance L' d y

namespace LockableCurrencies

variable {AccountId LockId : Type} [DecidableEq AccountId] [DecidableEq LockId]
  (C : LockableCurrencies AccountId LockId)

/-- Tokens are paid, issued and burned; nobody's locks are touched. -/
inductive Moves : C.Ledger → C.Ledger → Prop
  | refl (L : C.Ledger) : Moves L L
  | transfer {L L' L'' : C.Ledger} {c : CurrencyId} {a b : AccountId} {n : ℕ} :
    Moves L L' → C.transfer L' c a b n = .ok L'' → Moves L L''
  | deposit {L L' L'' : C.Ledger} {c : CurrencyId} {x : AccountId} {n : ℕ} :
    Moves L L' → C.deposit L' c x n = .ok L'' → Moves L L''
  | withdraw {L L' L'' : C.Ledger} {c : CurrencyId} {x : AccountId} {n : ℕ} :
    Moves L L' → C.withdraw L' c x n = .ok L'' → Moves L L''

variable {C} {L L' : C.Ledger}

theorem Moves.lock_eq (h : C.Moves L L') : C.lock L' = C.lock L := by
  induction h with
  | refl => rfl
  | transfer _ h ih => rw [C.transfer_lock h, ih]
  | deposit _ h ih => rw [C.deposit_lock h, ih]
  | withdraw _ h ih => rw [C.withdraw_lock h, ih]

theorem Moves.covers (h : C.Moves L L') (i : LockId) (d : CurrencyId) (y : AccountId)
    (hle : C.lock L i d y ≤ C.freeBalance L d y) : C.lock L' i d y ≤ C.freeBalance L' d y := by
  induction h with
  | refl => exact hle
  | transfer _ h ih =>
    rw [C.transfer_lock h]
    exact C.transfer_covers h i d y ih
  | deposit _ h ih =>
    rw [C.deposit_lock h]
    exact C.deposit_covers h i d y ih
  | withdraw _ h ih =>
    rw [C.withdraw_lock h]
    exact C.withdraw_covers h i d y ih

theorem Moves.trans {L'' : C.Ledger} (h : C.Moves L L') (h' : C.Moves L' L'') : C.Moves L L'' := by
  induction h' with
  | refl => exact h
  | transfer _ h ih => exact .transfer ih h
  | deposit _ h ih => exact .deposit ih h
  | withdraw _ h ih => exact .withdraw ih h

end LockableCurrencies

/-! Plain accounts with locks. -/

namespace Tokens

open Result

variable {AccountId LockId : Type} [DecidableEq AccountId] [Fintype LockId]

structure Lockable (AccountId LockId : Type) where
  issued : Issued AccountId
  locks : LockId → CurrencyId → AccountId → ℕ

def Lockable.setLocks [DecidableEq LockId] (L : Lockable AccountId LockId) (i : LockId)
    (c : CurrencyId) (x : AccountId) (n : ℕ) : Lockable AccountId LockId :=
  ⟨L.issued, fun j d y => if j = i ∧ d = c ∧ y = x then n else L.locks j d y⟩

def Lockable.pay (L : Lockable AccountId LockId) (c : CurrencyId) (x : AccountId)
    (paid : Except TokenError (Issued AccountId)) : Except TokenError (Lockable AccountId LockId) :=
  paid.bind fun issued =>
    if L.issued.accounts c x ≤ issued.accounts c x ∨ ∀ i, L.locks i c x ≤ issued.accounts c x then
      .ok ⟨issued, L.locks⟩
    else .error .liquidityRestrictions

omit [DecidableEq AccountId] in
theorem Lockable.pay_ok {L L' : Lockable AccountId LockId} {c : CurrencyId} {x : AccountId}
    {paid : Except TokenError (Issued AccountId)} (h : L.pay c x paid = .ok L') :
    paid = .ok L'.issued ∧ L'.locks = L.locks ∧
      (L.issued.accounts c x ≤ L'.issued.accounts c x ∨
        ∀ i, L.locks i c x ≤ L'.issued.accounts c x) := by
  unfold Lockable.pay at h
  cases hpaid : paid with
  | error e => simp [hpaid, Except.bind] at h
  | ok issued =>
    simp only [hpaid, Except.bind] at h
    split at h
    · rename_i hkept
      cases h
      exact ⟨rfl, rfl, hkept⟩
    · contradiction

theorem Lockable.pay_covers {L L' : Lockable AccountId LockId} {c : CurrencyId} {x : AccountId}
    {paid : Except TokenError (Issued AccountId)} (h : L.pay c x paid = .ok L')
    (hothers : ∀ d y, d ≠ c ∨ y ≠ x → L.issued.accounts d y ≤ L'.issued.accounts d y)
    (i : LockId) (d : CurrencyId) (y : AccountId) (hle : L.locks i d y ≤ L.issued.accounts d y) :
    L.locks i d y ≤ L'.issued.accounts d y := by
  by_cases hpayer : d = c ∧ y = x
  · obtain ⟨rfl, rfl⟩ := hpayer
    rcases (pay_ok h).2.2 with hkept | hlocks
    · exact hle.trans hkept
    · exact hlocks i
  · exact hle.trans (hothers d y (by tauto))

def lockable (AccountId LockId : Type) [DecidableEq AccountId] [DecidableEq LockId]
    [Fintype LockId] : LockableCurrencies AccountId LockId where
  Ledger := Lockable AccountId LockId
  minimumBalance := fun _ => 0
  freeBalance := fun L => L.issued.accounts
  totalIssuance := fun L => L.issued.issuance
  transfer := fun L c a b n => L.pay c a (L.issued.transfer c a b n)
  deposit := fun L c x n => L.pay c x (L.issued.deposit c x n)
  withdraw := fun L c x n => L.pay c x (L.issued.withdraw c x n)
  lock := Lockable.locks
  setLock := fun L i c x n => .ok (L.setLocks i c x n)
  removeLock := fun L i c x => .ok (L.setLocks i c x 0)
  transfer_issuance := fun h => (currencies AccountId).transfer_issuance (Lockable.pay_ok h).1
  deposit_issuance := fun h => (currencies AccountId).deposit_issuance (Lockable.pay_ok h).1
  withdraw_issuance := fun h => (currencies AccountId).withdraw_issuance (Lockable.pay_ok h).1
  transfer_debits := fun h => (currencies AccountId).transfer_debits (Lockable.pay_ok h).1
  transfer_credits := fun h => (currencies AccountId).transfer_credits (Lockable.pay_ok h).1
  transfer_no_gain := fun h => (currencies AccountId).transfer_no_gain (Lockable.pay_ok h).1
  transfer_frame := fun h => (currencies AccountId).transfer_frame (Lockable.pay_ok h).1
  deposit_frame := fun h => (currencies AccountId).deposit_frame (Lockable.pay_ok h).1
  setLock_lock := by
    intro L L' i c x n h _ j d y
    cases h
    rfl
  setLock_free := by
    intro L L' i c x n h
    cases h
    rfl
  removeLock_lock := by
    intro L L' i c x h j d y
    cases h
    rfl
  removeLock_free := by
    intro L L' i c x h
    cases h
    rfl
  transfer_lock := fun h => (Lockable.pay_ok h).2.1
  deposit_lock := fun h => (Lockable.pay_ok h).2.1
  withdraw_lock := fun h => (Lockable.pay_ok h).2.1
  transfer_covers := by
    intro L L' c a b n h i d y hle
    refine Lockable.pay_covers h ?_ i d y hle
    intro d y hne
    rcases transfer_cases (Issued.transfer_ok (Lockable.pay_ok h).1).1 with
      ⟨-, heq⟩ | ⟨hab, -, heq⟩
    · rw [heq]
    · rw [heq]
      unfold setBalance
      by_cases hb : d = c ∧ y = b
      · obtain ⟨rfl, rfl⟩ := hb
        rw [if_pos ⟨rfl, rfl⟩]
        exact Nat.le_add_right _ _
      · rw [if_neg hb, if_neg (by tauto)]
  deposit_covers := by
    intro L L' c x n h i d y hle
    refine Lockable.pay_covers h ?_ i d y hle
    intro d y hne
    exact ((currencies AccountId).deposit_frame (Lockable.pay_ok h).1 hne).ge
  withdraw_covers := by
    intro L L' c x n h i d y hle
    refine Lockable.pay_covers h ?_ i d y hle
    intro d y hne
    have hpaid := (Lockable.pay_ok h).1
    unfold Issued.withdraw at hpaid
    split at hpaid
    · contradiction
    · have hoff : ¬ (d = c ∧ y = x) := by tauto
      rw [← Except.ok.inj hpaid]
      simp [setBalance, hoff]

end Tokens

end Bifrost
