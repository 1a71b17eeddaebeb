import Bifrost.Primitives.Currency

/-!
# Fungible assets

The lending market reaches balances through the `fungibles` traits, whose implementation is
not part of the repository. `Fungibles` carries the operations it uses with the behaviour it
relies on: a transfer moves its amount, a transfer of an account to itself does nothing, and
what a payer keeps below the minimum balance may be swept to the account that receives dust.
-/

namespace Bifrost

set_option autoImplicit false

inductive Preservation where
  | expendable
  | preserve
deriving DecidableEq, Repr

inductive FungiblesError where
  | fundsUnavailable
  | notExpendable
  | belowMinimum
  | other
deriving DecidableEq, Repr

/-- `reducibleBalance` is the balance reducible with `Expendable` and `Polite`. -/
structure Fungibles (AccountId : Type) where
  Ledger : Type
  minimumBalance : CurrencyId → ℕ
  dustAccount : Option AccountId
  balance : Ledger → CurrencyId → AccountId → ℕ
  reducibleBalance : Ledger → CurrencyId → AccountId → ℕ
  transfer : Ledger → CurrencyId → AccountId → AccountId → ℕ → Preservation →
    Except FungiblesError Ledger
  transfer_debits : ∀ {L L' c a b n p}, transfer L c a b n p = .ok L' → a ≠ b →
    n ≤ balance L c a ∧ (balance L' c a = balance L c a - n ∨
      (balance L c a - n < minimumBalance c ∧ balance L' c a = 0))
  transfer_credits : ∀ {L L' c a b n p}, transfer L c a b n p = .ok L' → a ≠ b →
    dustAccount ≠ some b → balance L' c b = balance L c b + n
  transfer_frame : ∀ {L L' c a b n p d x}, transfer L c a b n p = .ok L' →
    a = b ∨ d ≠ c ∨ (x ≠ a ∧ x ≠ b ∧ dustAccount ≠ some x) → balance L' d x = balance L d x

namespace Fungibles

variable {AccountId : Type} (F : Fungibles AccountId)

/-- Paying `n` leaves the account nothing, or enough to live on. -/
def NoDust (L : F.Ledger) (c : CurrencyId) (x : AccountId) (n : ℕ) : Prop :=
  F.balance L c x ≤ n ∨ F.minimumBalance c + n ≤ F.balance L c x

instance (L : F.Ledger) (c : CurrencyId) (x : AccountId) (n : ℕ) :
    Decidable (F.NoDust L c x n) := inferInstanceAs (Decidable (_ ∨ _))

variable {F} {L L' : F.Ledger} {c : CurrencyId} {a b : AccountId} {n : ℕ} {p : Preservation}

theorem transfer_out (h : F.transfer L c a b n p = .ok L') (hab : a ≠ b)
    (hdust : F.NoDust L c a n) : F.balance L' c a + n = F.balance L c a := by
  obtain ⟨hle, hexact | ⟨hlow, hzero⟩⟩ := F.transfer_debits h hab
  · omega
  · rcases hdust with hall | henough
    · omega
    · omega

end Fungibles

/-! Plain asset accounts: balances in a function, no holds, dust is burned. -/

namespace Assets

variable {AccountId : Type} [DecidableEq AccountId]

abbrev Accounts (AccountId : Type) := CurrencyId → AccountId → ℕ

def setBalance (L : Accounts AccountId) (c : CurrencyId) (x : AccountId) (n : ℕ) :
    Accounts AccountId :=
  fun d y => if d = c ∧ y = x then n else L d y

/-- What stays with a payer of `n`. -/
def left (minimum : CurrencyId → ℕ) (L : Accounts AccountId) (c : CurrencyId) (x : AccountId)
    (n : ℕ) : ℕ :=
  if L c x - n < minimum c then 0 else L c x - n

def transfer (minimum : CurrencyId → ℕ) (L : Accounts AccountId) (c : CurrencyId)
    (a b : AccountId) (n : ℕ) (p : Preservation) : Except FungiblesError (Accounts AccountId) :=
  if L c a < n then .error .fundsUnavailable
  else if p = .preserve ∧ L c a - n < minimum c then .error .notExpendable
  else if 0 < n ∧ L c b + n < minimum c then .error .belowMinimum
  else if a = b then .ok L
  else .ok (setBalance (setBalance L c a (left minimum L c a n)) c b (L c b + n))

theorem transfer_cases {minimum : CurrencyId → ℕ} {L L' : Accounts AccountId} {c : CurrencyId}
    {a b : AccountId} {n : ℕ} {p : Preservation} (h : transfer minimum L c a b n p = .ok L') :
    n ≤ L c a ∧ ((a = b ∧ L' = L) ∨
      (a ≠ b ∧ L' = setBalance (setBalance L c a (left minimum L c a n)) c b (L c b + n))) := by
  unfold transfer at h
  split at h
  · simp at h
  · refine ⟨by omega, ?_⟩
    split at h
    · simp at h
    · split at h
      · simp at h
      · split at h
        · exact Or.inl ⟨by assumption, by simpa using h.symm⟩
        · exact Or.inr ⟨by assumption, by simpa using h.symm⟩

/-- Asset accounts whose minimum balances are `minimum`. -/
def fungibles (AccountId : Type) [DecidableEq AccountId] (minimum : CurrencyId → ℕ) :
    Fungibles AccountId where
  Ledger := Accounts AccountId
  minimumBalance := minimum
  dustAccount := none
  balance := fun L => L
  reducibleBalance := fun L => L
  transfer := transfer minimum
  transfer_debits := by
    intro L L' c a b n p h hab
    obtain ⟨hn, ⟨heq, -⟩ | ⟨-, rfl⟩⟩ := transfer_cases h
    · exact absurd heq hab
    · refine ⟨hn, ?_⟩
      have hleft : setBalance (setBalance L c a (left minimum L c a n)) c b (L c b + n) c a =
          left minimum L c a n := by
        simp [setBalance, hab]
      rw [hleft, left]
      split
      · exact Or.inr ⟨by assumption, rfl⟩
      · exact Or.inl rfl
  transfer_credits := by
    intro L L' c a b n p h hab _
    obtain ⟨-, ⟨heq, -⟩ | ⟨-, rfl⟩⟩ := transfer_cases h
    · exact absurd heq hab
    · simp [setBalance]
  transfer_frame := by
    intro L L' c a b n p d x h hframe
    obtain ⟨-, ⟨-, rfl⟩ | ⟨hab, rfl⟩⟩ := transfer_cases h
    · rfl
    · rcases hframe with heq | hd | ⟨hxa, hxb, -⟩
      · exact absurd heq hab
      · simp [setBalance, hd]
      · simp [setBalance, hxa, hxb]

end Assets

end Bifrost
