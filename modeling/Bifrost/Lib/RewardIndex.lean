import Bifrost.Lib.Table

/-!
# Rewards by a cumulative index

An index counts what one unit of weight has earned so far, and each key remembers the index it
was last paid at. What the keys are due grows with the index by no more than the weights add up
to, paying a key takes out what it is paid, and a key that is paid up may change its weight.
-/

namespace Bifrost.RewardIndex

set_option autoImplicit false

universe u v

variable {κ : Type u} {β : Type v} {weight : β → ℕ} {index delta : ℕ} {paid : κ → ℕ}

def due (weight : β → ℕ) (index : ℕ) (paid : κ → ℕ) (t : Table κ β) : ℕ :=
  Table.sum (fun k v => weight v * (index - paid k)) t

theorem due_advance_le (t : Table κ β) : due weight (index + delta) paid t ≤
    due weight index paid t + delta * Table.sum (fun _ v => weight v) t := by
  have hentry : ∀ e ∈ t.entries, weight e.2 * (index + delta - paid e.1) ≤
      weight e.2 * (index - paid e.1) + delta * weight e.2 := by
    intro e _
    have hgap : index + delta - paid e.1 ≤ (index - paid e.1) + delta := by omega
    have hmul := Nat.mul_le_mul_left (weight e.2) hgap
    rw [Nat.mul_add, Nat.mul_comm (weight e.2) delta] at hmul
    exact hmul
  calc due weight (index + delta) paid t
      ≤ Table.sum (fun k v => weight v * (index - paid k) + delta * weight v) t :=
        Table.sum_le_sum hentry
    _ = due weight index paid t + delta * Table.sum (fun _ v => weight v) t := by
        rw [Table.sum_add, Table.sum_mul]
        rfl

def owed (weight index paid : ℕ) : ℕ := weight * (index - paid)

theorem owed_advance_le (weight index index' paid : ℕ) :
    owed weight index' paid ≤ owed weight index paid + weight * (index' - index) := by
  have hgap : index' - paid ≤ (index - paid) + (index' - index) := by omega
  have hmul := Nat.mul_le_mul_left weight hgap
  rw [Nat.mul_add] at hmul
  exact hmul

theorem owed_mono {weight weight' : ℕ} (h : weight ≤ weight') (index paid : ℕ) :
    owed weight index paid ≤ owed weight' index paid :=
  Nat.mul_le_mul_right _ h

@[simp] theorem owed_paid (weight index : ℕ) : owed weight index index = 0 := by
  rw [owed, Nat.sub_self, Nat.mul_zero]

def weightOf (weight : β → ℕ) (o : Option β) : ℕ := o.elim 0 weight

theorem weight_due (k : κ) (o : Option β) :
    Table.weight (fun k v => weight v * (index - paid k)) k o =
      weightOf weight o * (index - paid k) := by
  cases o with
  | none => exact (Nat.zero_mul _).symm
  | some v => rfl

variable [DecidableEq κ]

theorem due_settle (t : Table κ β) (k : κ) :
    due weight index (Function.update paid k index) t +
      weightOf weight (t.get k) * (index - paid k) = due weight index paid t := by
  have hoff := Table.sum_off (f := fun j v => weight v * (index - Function.update paid k index j))
    (g := fun j v => weight v * (index - paid j)) t k ?_
  · rw [weight_due, weight_due, Function.update_self, Nat.sub_self, Nat.mul_zero] at hoff
    exact hoff
  · intro j v hj _
    rw [Function.update_of_ne hj]

theorem due_write (t : Table κ β) (k : κ) (o : Option β) :
    due weight index paid (t.write k o) + weightOf weight (t.get k) * (index - paid k) =
      due weight index paid t + weightOf weight o * (index - paid k) := by
  have hwrite := Table.sum_write (fun k v => weight v * (index - paid k)) t k o
  rw [weight_due, weight_due] at hwrite
  exact hwrite

end Bifrost.RewardIndex
