import Bifrost.Lib.Table
import Mathlib.Algebra.BigOperators.Ring.Finset
import Mathlib.Algebra.Order.BigOperators.Group.Finset
import Mathlib.Tactic.Ring

/-!
# Parts of a pot

A pot is divided over shares, every part rounded down. Someone who joins brings what the pot
holds for as many shares; what this adds is rounded down as well. The joiner's part is then no
more than what was brought, and no other part falls by more than one.
-/

namespace Bifrost.Proportion

set_option autoImplicit false

universe u v

/-- The part of `share` in a pot divided over `total`. -/
def part (share total pot : ℕ) : ℕ := share * pot / total

variable {share total pot joined : ℕ}

theorem part_mul_le (share total pot : ℕ) : part share total pot * total ≤ share * pot :=
  Nat.div_mul_le_self _ _

theorem lt_part_succ_mul (h : 0 < total) (share pot : ℕ) :
    share * pot < (part share total pot + 1) * total := by
  rw [Nat.mul_comm (part share total pot + 1)]
  exact Nat.lt_mul_div_succ _ h

theorem part_le_part {share' : ℕ} (h : share ≤ share') (total pot : ℕ) :
    part share total pot ≤ part share' total pot :=
  Nat.div_le_div_right (Nat.mul_le_mul_right _ h)

theorem part_le_pot (h : share ≤ total) : part share total pot ≤ pot := by
  rcases Nat.eq_zero_or_pos total with rfl | hpos
  · simp [part]
  · apply Nat.div_le_of_le_mul
    exact Nat.mul_le_mul_right pot h

theorem part_joiner_le (h : 0 < total) (joined pot : ℕ) :
    part joined (total + joined) (pot + part joined total pot) ≤ part joined total pot := by
  have hlt := lt_part_succ_mul h joined pot
  apply Nat.le_of_lt_succ
  apply Nat.div_lt_of_lt_mul
  calc joined * (pot + part joined total pot)
      = joined * pot + joined * part joined total pot := by ring
    _ < (part joined total pot + 1) * total + joined * part joined total pot := by omega
    _ ≤ (total + joined) * (part joined total pot + 1) := by
      have hring : (total + joined) * (part joined total pot + 1) =
        (part joined total pot + 1) * total + joined * part joined total pot + joined := by ring
      omega

theorem part_le_joined (h : 0 < total) (hle : share ≤ total) (joined pot : ℕ) :
    part share total pot ≤ part share (total + joined) (pot + part joined total pot) + 1 := by
  have hpart := part_mul_le share total pot
  have hlt := lt_part_succ_mul h joined pot
  -- The pot with what was brought, and one more, is worth at least as much for each share.
  have hscaled : part share total pot * (total + joined) * total ≤
      share * (pot + part joined total pot + 1) * total := by
    calc part share total pot * (total + joined) * total
        = part share total pot * total * (total + joined) := by ring
      _ ≤ share * pot * (total + joined) := Nat.mul_le_mul_right _ hpart
      _ = share * (pot * total + joined * pot) := by ring
      _ ≤ share * (pot * total + (part joined total pot + 1) * total) :=
        Nat.mul_le_mul_left _ (by omega)
      _ = share * (pot + part joined total pot + 1) * total := by ring
  have hle' : part share total pot * (total + joined) ≤
      share * (pot + part joined total pot + 1) := Nat.le_of_mul_le_mul_right hscaled h
  have hnum : part share total pot * (total + joined) ≤
      share * (pot + part joined total pot) + (total + joined) := by
    have hring : share * (pot + part joined total pot + 1) =
      share * (pot + part joined total pot) + share := by ring
    omega
  calc part share total pot
      = part share total pot * (total + joined) / (total + joined) :=
        (Nat.mul_div_cancel _ (by omega)).symm
    _ ≤ (share * (pot + part joined total pot) + (total + joined)) / (total + joined) :=
        Nat.div_le_div_right hnum
    _ = part share (total + joined) (pot + part joined total pot) + 1 :=
        Nat.add_div_right _ (by omega)

theorem sum_part_le {κ : Type u} {β : Type v} (f : κ → β → ℕ) (t : Table κ β) (pot : ℕ) :
    Table.sum (fun k v => part (f k v) (Table.sum f t) pot) t ≤ pot := by
  rcases Nat.eq_zero_or_pos (Table.sum f t) with hzero | hpos
  · have hparts : Table.sum (fun k v => part (f k v) (Table.sum f t) pot) t = 0 := by
      rw [← Table.sum_zero t]
      apply Table.sum_congr
      intro e _
      simp [part, hzero]
    omega
  · apply Nat.le_of_mul_le_mul_left _ hpos
    rw [← Table.sum_mul]
    calc Table.sum (fun k v => Table.sum f t * part (f k v) (Table.sum f t) pot) t
        ≤ Table.sum (fun k v => pot * f k v) t := by
          apply Table.sum_le_sum
          intro e _
          have hle := part_mul_le (f e.1 e.2) (Table.sum f t) pot
          rw [Nat.mul_comm pot, Nat.mul_comm (Table.sum f t)]
          exact hle
      _ = Table.sum f t * pot := by rw [Table.sum_mul, Nat.mul_comm]

/-! Parts of one total, listed. -/

theorem sum_map_part_mul_le (ws : List ℕ) (total pot : ℕ) :
    (ws.map fun w => part w total pot).sum * total ≤ ws.sum * pot := by
  induction ws with
  | nil => simp
  | cons w ws ih =>
    have hw := part_mul_le w total pot
    simp only [List.map_cons, List.sum_cons, Nat.add_mul]
    omega

theorem sum_map_part_le {ws : List ℕ} (h : 0 < total) (hws : ws.sum = total) (pot : ℕ) :
    (ws.map fun w => part w total pot).sum ≤ pot := by
  have hmul := sum_map_part_mul_le ws total pot
  rw [hws, Nat.mul_comm total] at hmul
  exact Nat.le_of_mul_le_mul_right hmul h

theorem lt_sum_map_part {ws : List ℕ} (h : 0 < total) (hws : ws.sum = total) (pot : ℕ) :
    pot < (ws.map fun w => part w total pot).sum + ws.length := by
  have hparts (ws : List ℕ) : ws.sum * pot + ws.length ≤
      ((ws.map fun w => part w total pot).sum + ws.length) * total := by
    induction ws with
    | nil => simp
    | cons w ws ih =>
      have hw := lt_part_succ_mul h w pot
      simp only [List.map_cons, List.sum_cons, List.length_cons]
      simp only [Nat.add_mul, Nat.one_mul] at hw ih ⊢
      omega
  have hlength : 0 < ws.length := by
    cases ws with
    | nil =>
      rw [List.sum_nil] at hws
      omega
    | cons w ws => exact Nat.succ_pos _
  have hlt := hparts ws
  rw [hws, Nat.mul_comm total] at hlt
  apply Nat.lt_of_mul_lt_mul_right (a := total)
  omega

theorem sum_part_le_of_sum_le {κ : Type u} {owners : Finset κ} {share : κ → ℕ}
    (h : ∑ i ∈ owners, share i ≤ total) (pot : ℕ) :
    ∑ i ∈ owners, part (share i) total pot ≤ pot := by
  rcases Nat.eq_zero_or_pos total with rfl | hpos
  · simp [part]
  · apply Nat.le_of_mul_le_mul_right _ hpos
    calc (∑ i ∈ owners, part (share i) total pot) * total
        = ∑ i ∈ owners, part (share i) total pot * total := Finset.sum_mul _ _ _
      _ ≤ ∑ i ∈ owners, share i * pot := Finset.sum_le_sum fun i _ => part_mul_le _ _ _
      _ = (∑ i ∈ owners, share i) * pot := (Finset.sum_mul _ _ _).symm
      _ ≤ total * pot := Nat.mul_le_mul_right pot h
      _ = pot * total := Nat.mul_comm _ _

end Bifrost.Proportion
