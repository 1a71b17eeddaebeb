import Bifrost.Primitives.MultiCurrency

/-!
# Currencies that are minted and burned

The stable-asset pallet mints and burns its pool assets through the `MultiCurrency` trait.
`Currencies` carries the operations with what a pool relies on: only a deposit and a withdrawal
move the issuance, a transfer touches one currency and leaves the two accounts together no
richer. What a payer keeps below the minimum balance may be swept to another account.
-/

namespace Bifrost

set_option autoImplicit false

structure Currencies (AccountId : Type) where
  Ledger : Type
  minimumBalance : CurrencyId → ℕ
  freeBalance : Ledger → CurrencyId → AccountId → ℕ
  totalIssuance : Ledger → CurrencyId → ℕ
  transfer : Ledger → CurrencyId → AccountId → AccountId → ℕ → Except TokenError Ledger
  deposit : Ledger → CurrencyId → AccountId → ℕ → Except TokenError Ledger
  withdraw : Ledger → CurrencyId → AccountId → ℕ → Except TokenError Ledger
  transfer_issuance : ∀ {L L' c a b n}, transfer L c a b n = .ok L' →
    totalIssuance L' = totalIssuance L
  deposit_issuance : ∀ {L L' c a n}, deposit L c a n = .ok L' → ∀ d,
    totalIssuance L' d = totalIssuance L d + if d = c then n else 0
  withdraw_issuance : ∀ {L L' c a n}, withdraw L c a n = .ok L' → ∀ d,
    totalIssuance L' d + (if d = c then n else 0) = totalIssuance L d
  transfer_debits : ∀ {L L' c a b n}, transfer L c a b n = .ok L' → a ≠ b →
    n ≤ freeBalance L c a ∧ (freeBalance L' c a = freeBalance L c a - n ∨
      (freeBalance L c a - n < minimumBalance c ∧ freeBalance L' c a = 0))
  transfer_credits : ∀ {L L' c a b n}, transfer L c a b n = .ok L' → a ≠ b →
    freeBalance L c b + n ≤ freeBalance L' c b
  transfer_no_gain : ∀ {L L' c a b n}, transfer L c a b n = .ok L' → a ≠ b →
    freeBalance L' c a + freeBalance L' c b ≤ freeBalance L c a + freeBalance L c b
  transfer_frame : ∀ {L L' c a b n d x}, transfer L c a b n = .ok L' → a = b ∨ d ≠ c →
    freeBalance L' d x = freeBalance L d x
  deposit_frame : ∀ {L L' c a n d x}, deposit L c a n = .ok L' → d ≠ c ∨ x ≠ a →
    freeBalance L' d x = freeBalance L d x

/-! Plain accounts with an issuance: no locks, no minimum balances. -/

namespace Tokens

variable {AccountId : Type} [DecidableEq AccountId]

structure Issued (AccountId : Type) where
  accounts : Accounts AccountId
  issuance : CurrencyId → ℕ

def Issued.transfer (L : Issued AccountId) (c : CurrencyId) (a b : AccountId) (n : ℕ) :
    Except TokenError (Issued AccountId) :=
  (Tokens.transfer (fun _ => 0) L.accounts c a b n).map fun accounts => ⟨accounts, L.issuance⟩

def Issued.deposit (L : Issued AccountId) (c : CurrencyId) (x : AccountId) (n : ℕ) :
    Except TokenError (Issued AccountId) :=
  .ok ⟨setBalance L.accounts c x (L.accounts c x + n),
    Function.update L.issuance c (L.issuance c + n)⟩

def Issued.withdraw (L : Issued AccountId) (c : CurrencyId) (x : AccountId) (n : ℕ) :
    Except TokenError (Issued AccountId) :=
  if L.accounts c x < n ∨ L.issuance c < n then .error .balanceTooLow
  else .ok ⟨setBalance L.accounts c x (L.accounts c x - n),
    Function.update L.issuance c (L.issuance c - n)⟩

theorem Issued.transfer_ok {L L' : Issued AccountId} {c : CurrencyId} {a b : AccountId} {n : ℕ}
    (h : L.transfer c a b n = .ok L') :
    Tokens.transfer (fun _ => 0) L.accounts c a b n = .ok L'.accounts ∧
      L'.issuance = L.issuance := by
  unfold Issued.transfer at h
  cases ht : Tokens.transfer (fun _ => 0) L.accounts c a b n with
  | error e => simp [ht, Except.map] at h
  | ok accounts =>
    simp only [ht, Except.map, Except.ok.injEq] at h
    subst L'
    exact ⟨rfl, rfl⟩

/-- Token accounts and what is issued of each token. -/
def currencies (AccountId : Type) [DecidableEq AccountId] : Currencies AccountId where
  Ledger := Issued AccountId
  minimumBalance := fun _ => 0
  freeBalance := Issued.accounts
  totalIssuance := Issued.issuance
  transfer := Issued.transfer
  deposit := Issued.deposit
  withdraw := Issued.withdraw
  transfer_issuance := by
    intro L L' c a b n h
    exact (Issued.transfer_ok h).2
  deposit_issuance := by
    intro L L' c a n h d
    simp only [Issued.deposit, Except.ok.injEq] at h
    subst L'
    by_cases hd : d = c
    · subst d
      simp
    · simp [hd]
  withdraw_issuance := by
    intro L L' c a n h d
    unfold Issued.withdraw at h
    split at h
    · simp at h
    · rename_i hn
      simp only [Except.ok.injEq] at h
      subst L'
      by_cases hd : d = c
      · subst d
        simp only [Function.update_self, if_true]
        omega
      · simp [hd]
  transfer_debits := by
    intro L L' c a b n h hab
    rcases transfer_cases (Issued.transfer_ok h).1 with ⟨h0, heq⟩ | ⟨-, hn, heq⟩
    · have hz : n = 0 := h0.resolve_right hab
      simp [heq, hz]
    · rw [heq]
      exact ⟨hn, Or.inl (by simp [setBalance, hab])⟩
  transfer_credits := by
    intro L L' c a b n h hab
    rcases transfer_cases (Issued.transfer_ok h).1 with ⟨h0, heq⟩ | ⟨-, hn, heq⟩
    · have hz : n = 0 := h0.resolve_right hab
      simp [heq, hz]
    · simp [heq, setBalance]
  transfer_no_gain := by
    intro L L' c a b n h hab
    rcases transfer_cases (Issued.transfer_ok h).1 with ⟨-, heq⟩ | ⟨-, hn, heq⟩
    · simp [heq]
    · have ha : L'.accounts c a = L.accounts c a - n := by simp [heq, setBalance, hab]
      have hb : L'.accounts c b = L.accounts c b + n := by simp [heq, setBalance]
      omega
  transfer_frame := by
    intro L L' c a b n d x h hframe
    rcases transfer_cases (Issued.transfer_ok h).1 with ⟨-, heq⟩ | ⟨hab, -, heq⟩
    · rw [heq]
    · have hd := hframe.resolve_left hab
      simp [heq, setBalance, hd]
  deposit_frame := by
    intro L L' c a n d x h hframe
    simp only [Issued.deposit, Except.ok.injEq] at h
    subst L'
    rcases hframe with hd | hx
    · simp [setBalance, hd]
    · simp [setBalance, hx]

end Tokens

end Bifrost
