import Bifrost.Primitives.MultiCurrency

/-!
# Currencies in circulation

Transfers, mints and burns with what they do to the issuance and to each account. What a payer
keeps below the minimum balance goes to one account (`OnDust` of the runtime); every other account
is touched by its own transfers, mints and burns only.
-/

namespace Bifrost

set_option autoImplicit false

structure Circulation (AccountId : Type) where
  Ledger : Type
  minimumBalance : CurrencyId → ℕ
  dustReceiver : AccountId
  freeBalance : Ledger → CurrencyId → AccountId → ℕ
  totalIssuance : Ledger → CurrencyId → ℕ
  transfer : Ledger → CurrencyId → AccountId → AccountId → ℕ → Except TokenError Ledger
  deposit : Ledger → CurrencyId → AccountId → ℕ → Except TokenError Ledger
  withdraw : Ledger → CurrencyId → AccountId → ℕ → Except TokenError Ledger
  transfer_issuance : ∀ {L L' c a b n}, transfer L c a b n = .ok L' → ∀ d,
    totalIssuance L' d = totalIssuance L d
  deposit_issuance : ∀ {L L' c a n}, deposit L c a n = .ok L' → ∀ d,
    totalIssuance L' d = totalIssuance L d + if d = c then n else 0
  withdraw_issuance : ∀ {L L' c a n}, withdraw L c a n = .ok L' → ∀ d,
    totalIssuance L' d + (if d = c then n else 0) = totalIssuance L d
  transfer_debits : ∀ {L L' c a b n}, transfer L c a b n = .ok L' → a ≠ b →
    freeBalance L' c a + n ≤ freeBalance L c a
  transfer_credits : ∀ {L L' c a b n}, transfer L c a b n = .ok L' → a ≠ b → b ≠ dustReceiver →
    freeBalance L' c b = freeBalance L c b + n
  transfer_frame : ∀ {L L' c a b n d x}, transfer L c a b n = .ok L' →
    a = b ∨ d ≠ c ∨ x ≠ a ∧ x ≠ b ∧ x ≠ dustReceiver → freeBalance L' d x = freeBalance L d x
  deposit_credits : ∀ {L L' c a n}, deposit L c a n = .ok L' →
    freeBalance L' c a = freeBalance L c a + n
  deposit_frame : ∀ {L L' c a n d x}, deposit L c a n = .ok L' → d ≠ c ∨ x ≠ a →
    freeBalance L' d x = freeBalance L d x
  withdraw_debits : ∀ {L L' c a n}, withdraw L c a n = .ok L' →
    freeBalance L' c a + n ≤ freeBalance L c a
  withdraw_frame : ∀ {L L' c a n d x}, withdraw L c a n = .ok L' →
    d ≠ c ∨ x ≠ a ∧ x ≠ dustReceiver → freeBalance L' d x = freeBalance L d x

/-! Plain accounts with an issuance, and no minimum balance, hence no dust. -/

namespace Tokens

variable {AccountId : Type} [DecidableEq AccountId]

structure Circulating (AccountId : Type) where
  accounts : Accounts AccountId
  issuance : CurrencyId → ℕ

namespace Circulating

variable (L : Circulating AccountId)

def transfer (c : CurrencyId) (a b : AccountId) (n : ℕ) :
    Except TokenError (Circulating AccountId) :=
  if n = 0 ∨ a = b then .ok L
  else if L.accounts c a < n then .error .balanceTooLow
  else .ok ⟨setBalance (setBalance L.accounts c a (L.accounts c a - n)) c b (L.accounts c b + n),
    L.issuance⟩

def deposit (c : CurrencyId) (a : AccountId) (n : ℕ) : Except TokenError (Circulating AccountId) :=
  .ok ⟨setBalance L.accounts c a (L.accounts c a + n),
    Function.update L.issuance c (L.issuance c + n)⟩

def withdraw (c : CurrencyId) (a : AccountId) (n : ℕ) :
    Except TokenError (Circulating AccountId) :=
  if L.accounts c a < n ∨ L.issuance c < n then .error .balanceTooLow
  else .ok ⟨setBalance L.accounts c a (L.accounts c a - n),
    Function.update L.issuance c (L.issuance c - n)⟩

theorem transfer_cases {L L' : Circulating AccountId} {c : CurrencyId} {a b : AccountId} {n : ℕ}
    (h : L.transfer c a b n = .ok L') : (n = 0 ∨ a = b) ∧ L' = L ∨
      a ≠ b ∧ n ≤ L.accounts c a ∧ L' = ⟨setBalance (setBalance L.accounts c a
        (L.accounts c a - n)) c b (L.accounts c b + n), L.issuance⟩ := by
  unfold transfer at h
  split at h
  · exact Or.inl ⟨by assumption, (Except.ok.inj h).symm⟩
  · rename_i hne
    rw [not_or] at hne
    split at h
    · cases h
    · exact Or.inr ⟨hne.2, by omega, (Except.ok.inj h).symm⟩

theorem withdraw_cases {L L' : Circulating AccountId} {c : CurrencyId} {a : AccountId} {n : ℕ}
    (h : L.withdraw c a n = .ok L') : n ≤ L.accounts c a ∧ n ≤ L.issuance c ∧
      L' = ⟨setBalance L.accounts c a (L.accounts c a - n),
        Function.update L.issuance c (L.issuance c - n)⟩ := by
  unfold withdraw at h
  split at h
  · cases h
  · rename_i hlow
    rw [not_or] at hlow
    exact ⟨by omega, by omega, (Except.ok.inj h).symm⟩

end Circulating

def circulation (AccountId : Type) [DecidableEq AccountId] (dustReceiver : AccountId) :
    Circulation AccountId where
  Ledger := Circulating AccountId
  minimumBalance := fun _ => 0
  dustReceiver := dustReceiver
  freeBalance := fun L => L.accounts
  totalIssuance := fun L => L.issuance
  transfer := fun L => L.transfer
  deposit := fun L => L.deposit
  withdraw := fun L => L.withdraw
  transfer_issuance := by
    intro L L' c a b n h d
    rcases Circulating.transfer_cases h with ⟨-, rfl⟩ | ⟨-, -, rfl⟩
    · rfl
    · rfl
  deposit_issuance := by
    intro L L' c a n h d
    obtain rfl := Except.ok.inj h
    by_cases hd : d = c
    · simp [hd]
    · simp [hd]
  withdraw_issuance := by
    intro L L' c a n h d
    obtain ⟨-, hle, rfl⟩ := Circulating.withdraw_cases h
    by_cases hd : d = c
    · subst hd
      simp only [Function.update_self, if_true]
      omega
    · simp [hd]
  transfer_debits := by
    intro L L' c a b n h hab
    rcases Circulating.transfer_cases h with ⟨hzero, rfl⟩ | ⟨-, hle, rfl⟩
    · have hn : n = 0 := hzero.resolve_right hab
      omega
    · simp only [setBalance, hab, and_false, if_false, and_self, if_true]
      omega
  transfer_credits := by
    intro L L' c a b n h hab _
    rcases Circulating.transfer_cases h with ⟨hzero, rfl⟩ | ⟨-, -, rfl⟩
    · have hn : n = 0 := hzero.resolve_right hab
      omega
    · simp [setBalance]
  transfer_frame := by
    intro L L' c a b n d x h hframe
    rcases Circulating.transfer_cases h with ⟨-, rfl⟩ | ⟨hab, -, rfl⟩
    · rfl
    · rcases hframe with heq | hd | ⟨hxa, hxb, -⟩
      · exact absurd heq hab
      · simp [setBalance, hd]
      · simp [setBalance, hxa, hxb]
  deposit_credits := by
    intro L L' c a n h
    obtain rfl := Except.ok.inj h
    simp [setBalance]
  deposit_frame := by
    intro L L' c a n d x h hframe
    obtain rfl := Except.ok.inj h
    rcases hframe with hd | hx
    · simp [setBalance, hd]
    · simp [setBalance, hx]
  withdraw_debits := by
    intro L L' c a n h
    obtain ⟨hle, -, rfl⟩ := Circulating.withdraw_cases h
    simp only [setBalance, and_self, if_true]
    omega
  withdraw_frame := by
    intro L L' c a n d x h hframe
    obtain ⟨-, -, rfl⟩ := Circulating.withdraw_cases h
    rcases hframe with hd | ⟨hx, -⟩
    · simp [setBalance, hd]
    · simp [setBalance, hx]

/-- The same accounts for a pallet that does not look at the issuance. -/
def circulatingCurrency (AccountId : Type) [DecidableEq AccountId] : MultiCurrency AccountId where
  Ledger := Circulating AccountId
  minimumBalance := fun _ => 0
  freeBalance := fun L => L.accounts
  transfer := fun L => L.transfer
  deposit := fun L => L.deposit
  withdraw := fun L => L.withdraw
  transfer_moves := by
    intro L L' c a b n h hab
    rcases Circulating.transfer_cases h with ⟨hzero, rfl⟩ | ⟨-, hle, rfl⟩
    · have hn : n = 0 := hzero.resolve_right hab
      omega
    · simp [setBalance, hab, hle]
  transfer_frame := by
    intro L L' c a b n d x h hframe
    rcases Circulating.transfer_cases h with ⟨-, rfl⟩ | ⟨hab, -, rfl⟩
    · rfl
    · rcases hframe with heq | hd | ⟨hxa, hxb⟩
      · exact absurd heq hab
      · simp [setBalance, hd]
      · simp [setBalance, hxa, hxb]
  transfer_low := by
    intro L c a b n h
    change L.transfer c a b n = _ at h
    unfold Circulating.transfer at h
    split at h
    · cases h
    · split at h
      · assumption
      · cases h

end Tokens

end Bifrost
