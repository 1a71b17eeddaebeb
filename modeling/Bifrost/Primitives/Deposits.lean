import Bifrost.Primitives.Arithmetic
import Bifrost.Primitives.MultiCurrency

/-!
# Currencies whose accounts must be worth keeping

A deposit adds to an account. An account that is not there is only made for the existential
deposit or more, and what is issued stays within its type; nothing else makes a deposit fail.
-/

namespace Bifrost

set_option autoImplicit false

structure Deposits (AccountId : Type) where
  Ledger : Type
  minimumBalance : CurrencyId → ℕ
  hasAccount : Ledger → CurrencyId → AccountId → Bool
  freeBalance : Ledger → CurrencyId → AccountId → ℕ
  totalIssuance : Ledger → CurrencyId → ℕ
  /-- `can_withdraw` is a success. -/
  canWithdraw : Ledger → CurrencyId → AccountId → ℕ → Bool
  ensureCanWithdraw : Ledger → CurrencyId → AccountId → ℕ → Except TokenError Unit
  withdraw : Ledger → CurrencyId → AccountId → ℕ → Except TokenError Ledger
  deposit : Ledger → CurrencyId → AccountId → ℕ → Except TokenError Ledger
  transfer : Ledger → CurrencyId → AccountId → AccountId → ℕ → Except TokenError Ledger
  deposit_ok_iff : ∀ {L c x n}, (∃ L', deposit L c x n = .ok L') ↔ n = 0 ∨
    (hasAccount L c x = true ∨ minimumBalance c ≤ n) ∧ totalIssuance L c + n ≤ u128Max
  deposit_account : ∀ {L L' c x n}, deposit L c x n = .ok L' → ∀ y,
    hasAccount L' c y = true ↔ hasAccount L c y = true ∨ y = x ∧ 0 < n
  deposit_credits : ∀ {L L' c x n}, deposit L c x n = .ok L' →
    freeBalance L' c x = freeBalance L c x + n
  deposit_frame : ∀ {L L' c x n d y}, deposit L c x n = .ok L' → d ≠ c ∨ y ≠ x →
    freeBalance L' d y = freeBalance L d y
  deposit_issuance : ∀ {L L' c x n}, deposit L c x n = .ok L' →
    totalIssuance L' c = totalIssuance L c + n

namespace Deposits

variable {AccountId : Type} (M : Deposits AccountId)

/-- The amount can be given to the account, as far as the account goes. -/
def Receives (L : M.Ledger) (c : CurrencyId) (x : AccountId) (n : ℕ) : Prop :=
  n = 0 ∨ M.hasAccount L c x = true ∨ M.minimumBalance c ≤ n

/-- One account is given `m` and then another one `n`. -/
structure Receive (L : M.Ledger) (c : CurrencyId) (x y : AccountId) (m n : ℕ) : Prop where
  room : m + n = 0 ∨ M.totalIssuance L c + (m + n) ≤ u128Max
  first : M.Receives L c x m
  second : M.Receives L c y n ∨ y = x ∧ 0 < m

theorem deposits_ok_iff {L : M.Ledger} {c : CurrencyId} {x y : AccountId} {m n : ℕ} :
    (∃ L₁ L₂, M.deposit L c x m = .ok L₁ ∧ M.deposit L₁ c y n = .ok L₂) ↔
      M.Receive L c x y m n := by
  constructor
  · rintro ⟨L₁, L₂, hfirst, hsecond⟩
    have hm := M.deposit_ok_iff.mp ⟨L₁, hfirst⟩
    have hn := M.deposit_ok_iff.mp ⟨L₂, hsecond⟩
    rw [M.deposit_account hfirst, M.deposit_issuance hfirst] at hn
    refine ⟨?_, ?_, ?_⟩
    · omega
    · exact hm.imp id And.left
    · rcases hn with hzero | ⟨(hold | hnew) | hle, -⟩
      · exact Or.inl (Or.inl hzero)
      · exact Or.inl (Or.inr (Or.inl hold))
      · exact Or.inr hnew
      · exact Or.inl (Or.inr (Or.inr hle))
  · rintro ⟨hroom, hfirst, hsecond⟩
    have hm : ∃ L₁, M.deposit L c x m = .ok L₁ := by
      apply M.deposit_ok_iff.mpr
      rcases hfirst with hzero | hgiven
      · exact Or.inl hzero
      · by_cases hzero : m = 0
        · exact Or.inl hzero
        · exact Or.inr ⟨hgiven, by omega⟩
    obtain ⟨L₁, hfirst'⟩ := hm
    have hn : ∃ L₂, M.deposit L₁ c y n = .ok L₂ := by
      apply M.deposit_ok_iff.mpr
      rw [M.deposit_account hfirst', M.deposit_issuance hfirst']
      by_cases hzero : n = 0
      · exact Or.inl hzero
      · refine Or.inr ⟨?_, by omega⟩
        rcases hsecond with (hnone | hold | hle) | hnew
        · exact absurd hnone hzero
        · exact Or.inl (Or.inl hold)
        · exact Or.inr hle
        · exact Or.inl (Or.inr hnew)
    obtain ⟨L₂, hsecond'⟩ := hn
    exact ⟨L₁, L₂, hfirst', hsecond'⟩

end Deposits

/-! Accounts that are in a map or not. -/

namespace Tokens

variable {AccountId : Type} [DecidableEq AccountId]

structure Mapped (AccountId : Type) where
  accounts : CurrencyId → AccountId → Option ℕ
  issuance : CurrencyId → ℕ

namespace Mapped

variable (minimum : CurrencyId → ℕ) (L : Mapped AccountId)

def balance (c : CurrencyId) (x : AccountId) : ℕ := (L.accounts c x).getD 0

def setAccount (c : CurrencyId) (x : AccountId) (o : Option ℕ) : CurrencyId → AccountId → Option ℕ :=
  fun d y => if d = c ∧ y = x then o else L.accounts d y

def deposit (c : CurrencyId) (x : AccountId) (n : ℕ) : Except TokenError (Mapped AccountId) :=
  if n = 0 then .ok L
  else if (L.accounts c x).isNone ∧ n < minimum c then .error .existentialDeposit
  else if u128Max < L.issuance c + n then .error .overflow
  else .ok ⟨L.setAccount c x (some (L.balance c x + n)),
    Function.update L.issuance c (L.issuance c + n)⟩

/-- What stays below the existential deposit goes with the account. -/
def withdraw (c : CurrencyId) (x : AccountId) (n : ℕ) : Except TokenError (Mapped AccountId) :=
  if n = 0 then .ok L
  else if L.balance c x < n then .error .balanceTooLow
  else if L.balance c x - n < minimum c then
    .ok ⟨L.setAccount c x none, Function.update L.issuance c (L.issuance c - L.balance c x)⟩
  else .ok ⟨L.setAccount c x (some (L.balance c x - n)),
    Function.update L.issuance c (L.issuance c - n)⟩

def transfer (c : CurrencyId) (x y : AccountId) (n : ℕ) : Except TokenError (Mapped AccountId) :=
  if n = 0 ∨ x = y then .ok L
  else (L.withdraw minimum c x n).bind fun L => L.deposit minimum c y n

theorem deposit_cases {L L' : Mapped AccountId} {c : CurrencyId} {x : AccountId} {n : ℕ}
    (h : L.deposit minimum c x n = .ok L') : n = 0 ∧ L' = L ∨ 0 < n ∧
      ((L.accounts c x).isSome = true ∨ minimum c ≤ n) ∧ L.issuance c + n ≤ u128Max ∧
      L' = ⟨L.setAccount c x (some (L.balance c x + n)),
        Function.update L.issuance c (L.issuance c + n)⟩ := by
  unfold deposit at h
  split at h
  · exact Or.inl ⟨by assumption, (Except.ok.inj h).symm⟩
  · split at h
    · cases h
    · rename_i hzero hnew
      split at h
      · cases h
      · refine Or.inr ⟨Nat.pos_of_ne_zero hzero, ?_, by omega, (Except.ok.inj h).symm⟩
        cases haccount : L.accounts c x with
        | none => exact Or.inr (by simpa [haccount] using hnew)
        | some b => exact Or.inl rfl

end Mapped

/-- The accounts of a map whose existential deposits are `minimum`. -/
def deposits (AccountId : Type) [DecidableEq AccountId] (minimum : CurrencyId → ℕ) :
    Deposits AccountId where
  Ledger := Mapped AccountId
  minimumBalance := minimum
  hasAccount := fun L c x => (L.accounts c x).isSome
  freeBalance := Mapped.balance
  totalIssuance := Mapped.issuance
  canWithdraw := fun L c x n => n ≤ L.balance c x
  ensureCanWithdraw := fun L c x n => if n ≤ L.balance c x then .ok () else .error .balanceTooLow
  withdraw := fun L => L.withdraw minimum
  deposit := fun L => L.deposit minimum
  transfer := fun L => L.transfer minimum
  deposit_ok_iff := by
    intro L c x n
    constructor
    · rintro ⟨L', h⟩
      rcases Mapped.deposit_cases minimum h with ⟨hzero, -⟩ | ⟨-, haccount, hroom, -⟩
      · exact Or.inl hzero
      · exact Or.inr ⟨haccount, hroom⟩
    · intro h
      simp only [Mapped.deposit]
      rcases h with hzero | ⟨haccount, hroom⟩
      · exact ⟨L, by rw [if_pos hzero]⟩
      · by_cases hzero : n = 0
        · exact ⟨L, by rw [if_pos hzero]⟩
        · have hold : ¬((L.accounts c x).isNone ∧ n < minimum c) := by
            rintro ⟨hnone, hlow⟩
            rw [Option.isNone_iff_eq_none] at hnone
            rw [hnone] at haccount
            rcases haccount with hsome | hle
            · cases hsome
            · omega
          rw [if_neg hzero, if_neg hold, if_neg (by omega)]
          exact ⟨_, rfl⟩
  deposit_account := by
    intro L L' c x n h y
    rcases Mapped.deposit_cases minimum h with ⟨hzero, rfl⟩ | ⟨hpos, -, -, rfl⟩
    · simp [hzero]
    · by_cases hy : y = x
      · simp [Mapped.setAccount, hy, hpos]
      · simp [Mapped.setAccount, hy]
  deposit_credits := by
    intro L L' c x n h
    rcases Mapped.deposit_cases minimum h with ⟨hzero, rfl⟩ | ⟨-, -, -, rfl⟩
    · simp [hzero]
    · simp [Mapped.balance, Mapped.setAccount]
  deposit_frame := by
    intro L L' c x n d y h hne
    rcases Mapped.deposit_cases minimum h with ⟨-, rfl⟩ | ⟨-, -, -, rfl⟩
    · rfl
    · have hother : ¬(d = c ∧ y = x) := fun heq => hne.elim (· heq.1) (· heq.2)
      simp only [Mapped.balance, Mapped.setAccount, if_neg hother]
  deposit_issuance := by
    intro L L' c x n h
    rcases Mapped.deposit_cases minimum h with ⟨hzero, rfl⟩ | ⟨-, -, -, rfl⟩
    · simp [hzero]
    · exact Function.update_self _ _ _

end Tokens

end Bifrost
