import Bifrost.Primitives.Currency
import Mathlib.Logic.Function.Basic

/-!
# Multi-currency accounts

The pallets reach balances through the `MultiCurrency` trait, whose implementation is not
part of the repository. `MultiCurrency` carries its operations together with the behaviour
the pallets rely on: a transfer between two accounts moves exactly its amount, touches
nothing else, and reports a low balance only where the balance is low.
-/

namespace Bifrost

set_option autoImplicit false

inductive TokenError where
  | balanceTooLow
  | liquidityRestrictions
  | existentialDeposit
  | overflow
deriving DecidableEq, Repr

structure MultiCurrency (AccountId : Type) where
  Ledger : Type
  minimumBalance : CurrencyId → ℕ
  freeBalance : Ledger → CurrencyId → AccountId → ℕ
  transfer : Ledger → CurrencyId → AccountId → AccountId → ℕ → Except TokenError Ledger
  deposit : Ledger → CurrencyId → AccountId → ℕ → Except TokenError Ledger
  withdraw : Ledger → CurrencyId → AccountId → ℕ → Except TokenError Ledger
  transfer_moves : ∀ {L L' c a b n}, transfer L c a b n = .ok L' → a ≠ b →
    n ≤ freeBalance L c a ∧ freeBalance L' c a = freeBalance L c a - n ∧
      freeBalance L' c b = freeBalance L c b + n
  transfer_frame : ∀ {L L' c a b n d x}, transfer L c a b n = .ok L' →
    a = b ∨ d ≠ c ∨ (x ≠ a ∧ x ≠ b) → freeBalance L' d x = freeBalance L d x
  transfer_low : ∀ {L c a b n}, transfer L c a b n = .error .balanceTooLow →
    freeBalance L c a < n

namespace MultiCurrency

variable {AccountId : Type} (M : MultiCurrency AccountId)

theorem transfer_out {L L' : M.Ledger} {c : CurrencyId} {a b : AccountId} {n : ℕ}
    (h : M.transfer L c a b n = .ok L') (hab : a ≠ b) (d : CurrencyId) :
    M.freeBalance L' d a + (if d = c then n else 0) = M.freeBalance L d a := by
  split
  · subst d
    have hm := M.transfer_moves h hab
    omega
  · exact M.transfer_frame h (Or.inr (Or.inl (by assumption)))

theorem transfer_in {L L' : M.Ledger} {c : CurrencyId} {a b : AccountId} {n : ℕ}
    (h : M.transfer L c a b n = .ok L') (hab : a ≠ b) (d : CurrencyId) :
    M.freeBalance L' d b = M.freeBalance L d b + (if d = c then n else 0) := by
  split
  · subst d
    exact (M.transfer_moves h hab).2.2
  · exact M.transfer_frame h (Or.inr (Or.inl (by assumption)))

/-- The accounts with storage beside them, which the currencies leave alone. -/
def alongside (σ : Type) : MultiCurrency AccountId where
  Ledger := M.Ledger × σ
  minimumBalance := M.minimumBalance
  freeBalance := fun w => M.freeBalance w.1
  transfer := fun w c a b n => (M.transfer w.1 c a b n).map (·, w.2)
  deposit := fun w c a n => (M.deposit w.1 c a n).map (·, w.2)
  withdraw := fun w c a n => (M.withdraw w.1 c a n).map (·, w.2)
  transfer_moves := by
    intro w w' c a b n h hab
    cases hL : M.transfer w.1 c a b n with
    | error e => simp [hL, Except.map] at h
    | ok L =>
      simp only [hL, Except.map, Except.ok.injEq] at h
      subst h
      exact M.transfer_moves hL hab
  transfer_frame := by
    intro w w' c a b n d x h hframe
    cases hL : M.transfer w.1 c a b n with
    | error e => simp [hL, Except.map] at h
    | ok L =>
      simp only [hL, Except.map, Except.ok.injEq] at h
      subst h
      exact M.transfer_frame hL hframe
  transfer_low := by
    intro w c a b n h
    cases hL : M.transfer w.1 c a b n with
    | error e =>
      simp only [hL, Except.map, Except.error.injEq] at h
      subst h
      exact M.transfer_low hL
    | ok L => simp [hL, Except.map] at h

end MultiCurrency

/-! Plain token accounts: balances in a function, no locks. -/

namespace Tokens

variable {AccountId : Type} [DecidableEq AccountId]

abbrev Accounts (AccountId : Type) := CurrencyId → AccountId → ℕ

def setBalance (L : Accounts AccountId) (c : CurrencyId) (x : AccountId) (n : ℕ) :
    Accounts AccountId :=
  fun d y => if d = c ∧ y = x then n else L d y

def transfer (minimum : CurrencyId → ℕ) (L : Accounts AccountId) (c : CurrencyId)
    (a b : AccountId) (n : ℕ) : Except TokenError (Accounts AccountId) :=
  if n = 0 ∨ a = b then .ok L
  else if L c a < n then .error .balanceTooLow
  else if L c b + n < minimum c then .error .existentialDeposit
  else .ok (setBalance (setBalance L c a (L c a - n)) c b (L c b + n))

def deposit (minimum : CurrencyId → ℕ) (L : Accounts AccountId) (c : CurrencyId)
    (x : AccountId) (n : ℕ) : Except TokenError (Accounts AccountId) :=
  if n = 0 then .ok L
  else if L c x + n < minimum c then .error .existentialDeposit
  else .ok (setBalance L c x (L c x + n))

def withdraw (L : Accounts AccountId) (c : CurrencyId) (x : AccountId) (n : ℕ) :
    Except TokenError (Accounts AccountId) :=
  if L c x < n then .error .balanceTooLow else .ok (setBalance L c x (L c x - n))

theorem transfer_cases {minimum : CurrencyId → ℕ} {L L' : Accounts AccountId} {c : CurrencyId}
    {a b : AccountId} {n : ℕ} (h : transfer minimum L c a b n = .ok L') :
    ((n = 0 ∨ a = b) ∧ L' = L) ∨
      (a ≠ b ∧ n ≤ L c a ∧ L' = setBalance (setBalance L c a (L c a - n)) c b (L c b + n)) := by
  unfold transfer at h
  split at h
  · exact Or.inl ⟨by assumption, by simpa using h.symm⟩
  · rename_i hne
    rw [not_or] at hne
    split at h
    · simp at h
    · split at h
      · simp at h
      · exact Or.inr ⟨hne.2, by omega, by simpa using h.symm⟩

theorem deposit_credits {minimum : CurrencyId → ℕ} {L L' : Accounts AccountId} {c : CurrencyId}
    {a : AccountId} {n : ℕ} (h : deposit minimum L c a n = .ok L') (d : CurrencyId)
    (x : AccountId) : L' d x = L d x + if d = c ∧ x = a then n else 0 := by
  unfold deposit at h
  split at h
  · rename_i hzero
    obtain rfl := Except.ok.inj h
    simp [hzero]
  · split at h
    · cases h
    · obtain rfl := Except.ok.inj h
      by_cases hx : d = c ∧ x = a
      · obtain ⟨rfl, rfl⟩ := hx
        simp [setBalance]
      · simp [setBalance, hx]

/-- Token accounts whose existential deposits are `minimum`. -/
def multiCurrency (AccountId : Type) [DecidableEq AccountId] (minimum : CurrencyId → ℕ) :
    MultiCurrency AccountId where
  Ledger := Accounts AccountId
  minimumBalance := minimum
  freeBalance := fun L => L
  transfer := transfer minimum
  deposit := deposit minimum
  withdraw := withdraw
  transfer_moves := by
    intro L L' c a b n h hab
    rcases transfer_cases h with ⟨h0, rfl⟩ | ⟨_, hn, rfl⟩
    · have hz : n = 0 := h0.resolve_right hab
      subst n
      exact ⟨Nat.zero_le _, by simp, by simp⟩
    · refine ⟨hn, ?_, ?_⟩
      · simp [setBalance, hab]
      · simp [setBalance]
  transfer_frame := by
    intro L L' c a b n d x h hframe
    rcases transfer_cases h with ⟨_, rfl⟩ | ⟨hab, _, rfl⟩
    · rfl
    · rcases hframe with heq | hd | ⟨hxa, hxb⟩
      · exact absurd heq hab
      · simp [setBalance, hd]
      · simp [setBalance, hxa, hxb]
  transfer_low := by
    intro L c a b n h
    unfold transfer at h
    split at h
    · simp at h
    · split at h
      · assumption
      · split at h <;> simp at h

end Tokens

end Bifrost
