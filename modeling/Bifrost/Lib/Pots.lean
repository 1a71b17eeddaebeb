import Bifrost.Lib.Table

/-!
# A pool that several pots are put into

A pot puts an amount into the pool once, and is paid from it piece by piece. The pool holds what
the pots have put in and were not yet paid; what a pot still asks for lies within its own part.
-/

namespace Bifrost

set_option autoImplicit false

universe u

structure Pot where
  put : ℕ
  paid : ℕ
deriving DecidableEq

variable {κ : Type u}

def outstanding (pots : Table κ Pot) : ℕ := Table.sum (fun _ pot => pot.put - pot.paid) pots

variable [DecidableEq κ]

def fill (pots : Table κ Pot) (k : κ) (n : ℕ) : Table κ Pot := pots.write k (some ⟨n, 0⟩)

def pay (pots : Table κ Pot) (k : κ) (n : ℕ) : Table κ Pot :=
  pots.write k ((pots.get k).map fun pot => ⟨pot.put, pot.paid + n⟩)

/-- The pool is what is outstanding, and `left` of each pot is within what it has put in. -/
structure Covered (pots : Table κ Pot) (pool : ℕ) (left : κ → ℕ) : Prop where
  pool_eq : pool = outstanding pots
  paid_le : ∀ k pot, pots.get k = some pot → pot.paid + left k ≤ pot.put
  has_pot : ∀ k, 0 < left k → (pots.get k).isSome

namespace Covered

variable {pots : Table κ Pot} {pool : ℕ} {left left' : κ → ℕ}

theorem mono (h : Covered pots pool left) (hle : ∀ k, left' k ≤ left k) :
    Covered pots pool left' where
  pool_eq := h.pool_eq
  paid_le k pot hk := (Nat.add_le_add_left (hle k) _).trans (h.paid_le k pot hk)
  has_pot k hk := h.has_pot k (hk.trans_le (hle k))

theorem fill (h : Covered pots pool left) {k : κ} {n : ℕ} (hnew : pots.get k = none)
    (hself : left' k ≤ n) (hrest : ∀ j, j ≠ k → left' j ≤ left j) :
    Covered (Bifrost.fill pots k n) (pool + n) left' where
  pool_eq := by
    have hsum := Table.sum_write (fun _ pot => pot.put - pot.paid) pots k (some ⟨n, 0⟩)
    rw [hnew] at hsum
    simp only [Table.weight, Option.elim_none, Option.elim_some, Nat.sub_zero, Nat.add_zero] at hsum
    rw [h.pool_eq]
    exact hsum.symm
  paid_le j pot hj := by
    unfold Bifrost.fill at hj
    by_cases hjk : j = k
    · rw [hjk, Table.get_write_self, Option.some.injEq] at hj
      rw [← hj, hjk, Nat.zero_add]
      exact hself
    · rw [Table.get_write_ne pots _ hjk] at hj
      exact (Nat.add_le_add_left (hrest j hjk) _).trans (h.paid_le j pot hj)
  has_pot j hj := by
    unfold Bifrost.fill
    by_cases hjk : j = k
    · rw [hjk, Table.get_write_self]
      rfl
    · rw [Table.get_write_ne pots _ hjk]
      exact h.has_pot j (hj.trans_le (hrest j hjk))

theorem pay (h : Covered pots pool left) {k : κ} {n : ℕ} (hn : n ≤ left k)
    (hself : left' k + n ≤ left k) (hrest : ∀ j, j ≠ k → left' j ≤ left j) :
    Covered (Bifrost.pay pots k n) (pool - n) left' where
  pool_eq := by
    unfold Bifrost.pay
    cases hk : pots.get k with
    | none =>
      have hzero : n = 0 := by
        by_contra hne
        have hpot := h.has_pot k ((Nat.pos_of_ne_zero hne).trans_le hn)
        rw [hk] at hpot
        exact Bool.false_ne_true hpot
      have hsum := Table.sum_write (fun _ pot => pot.put - pot.paid) pots k none
      rw [hk] at hsum
      simp only [Table.weight, Option.elim_none, Nat.add_zero] at hsum
      rw [hzero, Nat.sub_zero, h.pool_eq]
      exact hsum.symm
    | some pot =>
      have hle := h.paid_le k pot hk
      have hsum := Table.sum_write (fun _ pot => pot.put - pot.paid) pots k
        (some ⟨pot.put, pot.paid + n⟩)
      rw [hk] at hsum
      simp only [Table.weight, Option.elim_some] at hsum
      have hpool := h.pool_eq
      simp only [outstanding, Option.map_some] at hpool ⊢
      omega
  paid_le j pot hj := by
    unfold Bifrost.pay at hj
    by_cases hjk : j = k
    · rw [hjk, Table.get_write_self] at hj
      obtain ⟨pot', hget, rfl⟩ := Option.map_eq_some_iff.mp hj
      have hle := h.paid_le k pot' hget
      rw [hjk]
      change pot'.paid + n + left' k ≤ pot'.put
      omega
    · rw [Table.get_write_ne pots _ hjk] at hj
      exact (Nat.add_le_add_left (hrest j hjk) _).trans (h.paid_le j pot hj)
  has_pot j hj := by
    unfold Bifrost.pay
    by_cases hjk : j = k
    · rw [hjk] at hj ⊢
      rw [Table.get_write_self, Option.isSome_map]
      exact h.has_pot k (by omega)
    · rw [Table.get_write_ne pots _ hjk]
      exact h.has_pot j (hj.trans_le (hrest j hjk))

end Covered

end Bifrost
