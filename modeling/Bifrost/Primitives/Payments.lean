import Bifrost.Primitives.MultiCurrency

/-!
# Payments that may close an account

A transfer of `MultiCurrency` with `ExistenceRequirement::AllowDeath`. What a payer keeps below
the minimum balance is swept away, unless its account is one whose dust stays
(`DustRemovalWhitelist` of the runtime). Where nothing is swept, the receiver gets exactly the
amount; nobody but the payer gets poorer.
-/

namespace Bifrost

set_option autoImplicit false

structure Payments (AccountId : Type) where
  Ledger : Type
  minimumBalance : CurrencyId → ℕ
  keepsDust : CurrencyId → AccountId → Bool
  freeBalance : Ledger → CurrencyId → AccountId → ℕ
  totalBalance : Ledger → CurrencyId → AccountId → ℕ
  transfer : Ledger → CurrencyId → AccountId → AccountId → ℕ → Except TokenError Ledger
  transfer_debits : ∀ {L L' c a b n}, transfer L c a b n = .ok L' → a ≠ b →
    n ≤ freeBalance L c a ∧ (freeBalance L' c a = freeBalance L c a - n ∨
      (keepsDust c a = false ∧ freeBalance L c a - n < minimumBalance c ∧
        freeBalance L' c a = 0))
  transfer_credits : ∀ {L L' c a b n}, transfer L c a b n = .ok L' → a ≠ b →
    freeBalance L c b + n ≤ freeBalance L' c b ∧
      (freeBalance L' c a = freeBalance L c a - n → freeBalance L' c b = freeBalance L c b + n)
  transfer_others : ∀ {L L' c a b n x}, transfer L c a b n = .ok L' → x ≠ a →
    freeBalance L c x ≤ freeBalance L' c x
  transfer_frame : ∀ {L L' c a b n d x}, transfer L c a b n = .ok L' → a = b ∨ d ≠ c →
    freeBalance L' d x = freeBalance L d x
  transfer_low : ∀ {L c a b n}, transfer L c a b n = .error .balanceTooLow →
    freeBalance L c a < n

namespace Payments

variable {AccountId : Type} {P : Payments AccountId} {L L' : P.Ledger} {c d : CurrencyId}
  {a b x : AccountId} {n : ℕ}

theorem transfer_le (h : P.transfer L c a b n = .ok L') (d : CurrencyId) :
    P.freeBalance L' d a ≤ P.freeBalance L d a := by
  by_cases hab : a = b
  · exact Nat.le_of_eq (P.transfer_frame h (Or.inl hab))
  · by_cases hd : d = c
    · subst d
      obtain ⟨-, hleft | ⟨-, -, hleft⟩⟩ := P.transfer_debits h hab
      · omega
      · omega
    · exact Nat.le_of_eq (P.transfer_frame h (Or.inr hd))

theorem transfer_pays (h : P.transfer L c a b n = .ok L') (hab : a ≠ b) :
    P.freeBalance L' c a + n ≤ P.freeBalance L c a := by
  obtain ⟨hle, hleft | ⟨-, -, hleft⟩⟩ := P.transfer_debits h hab
  · omega
  · omega

theorem transfer_ge (h : P.transfer L c a b n = .ok L') (d : CurrencyId) (hx : x ≠ a) :
    P.freeBalance L d x ≤ P.freeBalance L' d x := by
  by_cases hd : d = c
  · subst d
    exact P.transfer_others h hx
  · exact Nat.le_of_eq (P.transfer_frame h (Or.inr hd)).symm

/-- A payer whose dust stays, or who keeps enough to live on, pays no more than the amount. -/
theorem transfer_exact (h : P.transfer L c a b n = .ok L') (hab : a ≠ b)
    (hlives : P.keepsDust c a = true ∨ P.minimumBalance c + n ≤ P.freeBalance L c a) :
    P.freeBalance L' c a + n = P.freeBalance L c a := by
  obtain ⟨hle, hleft | ⟨hsweeps, hlow, -⟩⟩ := P.transfer_debits h hab
  · omega
  · rcases hlives with hkeeps | henough
    · rw [hkeeps] at hsweeps
      contradiction
    · omega

theorem transfer_whole (h : P.transfer L c a b (P.freeBalance L c a) = .ok L') (hab : a ≠ b) :
    P.freeBalance L' c a = 0 ∧
      P.freeBalance L' c b = P.freeBalance L c b + P.freeBalance L c a := by
  obtain ⟨-, hleft⟩ := P.transfer_debits h hab
  have hzero : P.freeBalance L' c a = 0 := by
    rcases hleft with hleft | ⟨-, -, hleft⟩
    · omega
    · exact hleft
  refine ⟨hzero, (P.transfer_credits h hab).2 ?_⟩
  omega

end Payments

/-! Plain token accounts whose dust is burned. -/

namespace Tokens

variable {AccountId : Type} [DecidableEq AccountId]

/-- What stays with an account that is left with `n`. -/
def swept (minimum : CurrencyId → ℕ) (keeps : CurrencyId → AccountId → Bool) (c : CurrencyId)
    (a : AccountId) (n : ℕ) : ℕ :=
  if keeps c a = false ∧ n < minimum c then 0 else n

def pay (minimum : CurrencyId → ℕ) (keeps : CurrencyId → AccountId → Bool)
    (L : Accounts AccountId) (c : CurrencyId) (a b : AccountId) (n : ℕ) :
    Except TokenError (Accounts AccountId) :=
  if n = 0 ∨ a = b then .ok L
  else if L c a < n then .error .balanceTooLow
  else if L c b + n < minimum c then .error .existentialDeposit
  else .ok (setBalance (setBalance L c a (swept minimum keeps c a (L c a - n))) c b (L c b + n))

theorem pay_cases {minimum : CurrencyId → ℕ} {keeps : CurrencyId → AccountId → Bool}
    {L L' : Accounts AccountId} {c : CurrencyId} {a b : AccountId} {n : ℕ}
    (h : pay minimum keeps L c a b n = .ok L') :
    ((n = 0 ∨ a = b) ∧ L' = L) ∨ (a ≠ b ∧ n ≤ L c a ∧
      L' = setBalance (setBalance L c a (swept minimum keeps c a (L c a - n))) c b
        (L c b + n)) := by
  unfold pay at h
  split at h
  · exact Or.inl ⟨by assumption, by simpa using h.symm⟩
  · rename_i hne
    rw [not_or] at hne
    split at h
    · simp at h
    · split at h
      · simp at h
      · exact Or.inr ⟨hne.2, by omega, by simpa using h.symm⟩

/-- Token accounts with minimum balances, some of which keep their dust. -/
def payments (AccountId : Type) [DecidableEq AccountId] (minimum : CurrencyId → ℕ)
    (keeps : CurrencyId → AccountId → Bool) : Payments AccountId where
  Ledger := Accounts AccountId
  minimumBalance := minimum
  keepsDust := keeps
  freeBalance := fun L => L
  totalBalance := fun L => L
  transfer := pay minimum keeps
  transfer_debits := by
    intro L L' c a b n h hab
    rcases pay_cases h with ⟨h0, rfl⟩ | ⟨-, hn, rfl⟩
    · have hz : n = 0 := h0.resolve_right hab
      exact ⟨by omega, Or.inl (by omega)⟩
    · have hleft : setBalance (setBalance L c a (swept minimum keeps c a (L c a - n))) c b
          (L c b + n) c a = swept minimum keeps c a (L c a - n) := by
        simp [setBalance, hab]
      rw [hleft, swept]
      refine ⟨hn, ?_⟩
      split
      · rename_i hswept
        exact Or.inr ⟨hswept.1, hswept.2, rfl⟩
      · exact Or.inl rfl
  transfer_credits := by
    intro L L' c a b n h hab
    rcases pay_cases h with ⟨h0, rfl⟩ | ⟨-, -, rfl⟩
    · have hz : n = 0 := h0.resolve_right hab
      exact ⟨by omega, fun _ => by omega⟩
    · have hgot : setBalance (setBalance L c a (swept minimum keeps c a (L c a - n))) c b
          (L c b + n) c b = L c b + n := by
        simp [setBalance]
      exact ⟨Nat.le_of_eq hgot.symm, fun _ => hgot⟩
  transfer_others := by
    intro L L' c a b n x h hx
    rcases pay_cases h with ⟨-, rfl⟩ | ⟨-, -, rfl⟩
    · exact Nat.le_refl _
    · by_cases hb : x = b
      · subst x
        simp [setBalance]
      · simp [setBalance, hx, hb]
  transfer_frame := by
    intro L L' c a b n d x h hframe
    rcases pay_cases h with ⟨-, rfl⟩ | ⟨hab, -, rfl⟩
    · rfl
    · have hd := hframe.resolve_left hab
      simp [setBalance, hd]
  transfer_low := by
    intro L c a b n h
    unfold pay at h
    split at h
    · simp at h
    · split at h
      · assumption
      · split at h
        · simp at h
        · simp at h

end Tokens

end Bifrost
