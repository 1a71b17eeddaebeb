import Mathlib.Data.Nat.Cast.Order.Field
import Mathlib.Tactic.FieldSimp
import Mathlib.Tactic.Linarith
import Mathlib.Tactic.Positivity
import Mathlib.Tactic.Ring

/-!
# Rounded quotients and sums of them

What a sum loses when each of its parts is rounded down, how two sums over the same list
compare when they differ at one place only, and what is left of an amount that is scaled up and
down again by truncated factors.
-/

namespace Bifrost.Rounding

set_option autoImplicit false

universe u

theorem div_add_le {c : ℕ} (hc : 0 < c) (a b : ℕ) : (a + b) / c ≤ a / c + b / c + 1 := by
  rw [Nat.add_div hc]
  split
  · exact Nat.le_refl _
  · omega

theorem le_mul_div_add {c : ℕ} (hc : 0 < c) (a : ℕ) : a ≤ c * (a / c) + c := by
  have hdiv := Nat.div_add_mod a c
  have hmod := Nat.mod_lt a hc
  omega

section Sums

variable {α : Type u} {l : List α} {f g : α → ℕ} {x : α} {d : ℕ}

theorem sum_map_le_sum (h : ∀ a ∈ l, f a ≤ g a) : (l.map f).sum ≤ (l.map g).sum :=
  List.sum_le_sum h

/-- Two sums that compare everywhere but at `x`, where `d` makes up the difference. -/
theorem sum_map_le_add (hnodup : l.Nodup) (hoff : ∀ a ∈ l, a ≠ x → f a ≤ g a)
    (hx : x ∈ l → f x ≤ g x + d) : (l.map f).sum ≤ (l.map g).sum + d := by
  induction l with
  | nil => exact Nat.zero_le _
  | cons a l ih =>
    obtain ⟨ha, hl⟩ := List.nodup_cons.mp hnodup
    simp only [List.map_cons, List.sum_cons]
    by_cases hax : a = x
    · subst a
      have hrest : (l.map f).sum ≤ (l.map g).sum := by
        apply sum_map_le_sum
        intro b hb
        apply hoff b (List.mem_cons_of_mem x hb)
        rintro rfl
        exact ha hb
      have hhead := hx List.mem_cons_self
      omega
    · have hhead := hoff a List.mem_cons_self hax
      have hrest := ih hl (fun b hb => hoff b (List.mem_cons_of_mem a hb))
        (fun hmem => hx (List.mem_cons_of_mem a hmem))
      omega

end Sums

section Rescaling

theorem quotient_bounds (K : Type u) [Field K] [LinearOrder K] [IsStrictOrderedRing K] {d : ℕ}
    (hd : 0 < d) (n : ℕ) :
    ((n / d : ℕ) : K) ≤ n / d ∧ (n : K) / d < ((n / d : ℕ) : K) + 1 := by
  have hd' : (0 : K) < d := Nat.cast_pos.mpr hd
  constructor
  · exact Nat.cast_div_le
  · rw [div_lt_iff₀ hd']
    have hlt := Nat.lt_mul_div_succ n hd
    rw [Nat.mul_comm] at hlt
    exact_mod_cast hlt

theorem sub_one_le_cast_div (n d : ℕ) : (n : ℚ) / d - 1 ≤ ((n / d : ℕ) : ℚ) := by
  rcases Nat.eq_zero_or_pos d with rfl | hd
  · simp
  · linarith [(quotient_bounds ℚ hd n).2]

theorem cast_div_bounds {d : ℕ} (hd : 0 < d) (n : ℕ) :
    ((n / d : ℕ) : ℚ) ≤ n / d ∧ (n : ℚ) / d < ((n / d : ℕ) : ℚ) + 1 :=
  quotient_bounds ℚ hd n

variable {a P S I r q D b : ℚ}

theorem rescaled_le (ha : 0 < a) (hS : 0 < S) (hI : 0 < I) (hP : 0 ≤ P) (hr0 : 0 ≤ r)
    (hr : r ≤ a * a / I) (hq : q ≤ I * a / S) (hD : D ≤ q * P / a) (hb : b ≤ r * D / a) :
    b ≤ P * a / S := by
  have hdebt : D ≤ P * I / S := by
    apply hD.trans
    rw [div_le_iff₀ ha]
    calc q * P ≤ I * a / S * P := mul_le_mul_of_nonneg_right hq hP
      _ = P * I / S * a := by ring
  have hdebt0 : 0 ≤ P * I / S := by positivity
  apply hb.trans
  rw [div_le_iff₀ ha]
  calc r * D ≤ r * (P * I / S) := mul_le_mul_of_nonneg_left hdebt hr0
    _ ≤ a * a / I * (P * I / S) := mul_le_mul_of_nonneg_right hr hdebt0
    _ = P * a / S * a := by field_simp

/-- Both truncated factors lose a part of the product, and each product loses a unit. -/
theorem le_rescaled (ha : 0 < a) (hS : 0 < S) (hSI : S ≤ I) (haI : a ≤ I) (hP : 0 ≤ P)
    (hr0 : 0 ≤ r) (hr : a * a / I - 1 ≤ r) (hr' : r ≤ a * a / I) (hq : I * a / S - 1 ≤ q)
    (hD : q * P / a - 1 ≤ D) (hb : r * D / a - 1 ≤ b) :
    (1 - (I + a) / (a * a)) * (P * a / S) - 2 ≤ b := by
  have hI : 0 < I := hS.trans_le hSI
  have hdebt : P * I / S - (P / a + 1) ≤ D := by
    have hmul : (I * a / S - 1) * P / a ≤ q * P / a := by gcongr
    have heq : (I * a / S - 1) * P / a = P * I / S - P / a := by field_simp
    linarith
  have hprod : r * (P * I / S) - r * (P / a + 1) ≤ r * D := by
    rw [← mul_sub]
    exact mul_le_mul_of_nonneg_left hdebt hr0
  have hmain : (a * a / I - 1) * (P * I / S) ≤ r * (P * I / S) := by gcongr
  have hlost : r * (P / a + 1) ≤ a * a / I * (P / a + 1) := by gcongr
  have hfirst : (a * a / I - 1) * (P * I / S) / a = P * a / S - I / (a * a) * (P * a / S) := by
    field_simp
  have hsecond : a * a / I * (P / a + 1) / a = P / I + a / I := by
    field_simp
  have hsmall : P / I ≤ a / (a * a) * (P * a / S) := by
    rw [show a / (a * a) * (P * a / S) = P / S by field_simp]
    gcongr
  have hunit : a / I ≤ 1 := (div_le_one hI).mpr haI
  have hquot : ((a * a / I - 1) * (P * I / S) - a * a / I * (P / a + 1)) / a ≤ r * D / a := by
    gcongr
    linarith
  rw [sub_div, hfirst, hsecond] at hquot
  have hsplit : (1 - (I + a) / (a * a)) * (P * a / S) =
      P * a / S - I / (a * a) * (P * a / S) - a / (a * a) * (P * a / S) := by ring
  rw [hsplit]
  linarith

/-- With one as unit, a scale of at least one and its growth. -/
theorem rescaled_bounds {a P S I : ℕ} (ha : 0 < a) (haS : a ≤ S) (hSI : S ≤ I) :
    ((a * a / I * (I * a / S * P / a) / a : ℕ) : ℚ) ≤ P * a / S ∧
      (1 - ((I : ℚ) + a) / (a * a)) * (P * a / S) - 2 ≤
        ((a * a / I * (I * a / S * P / a) / a : ℕ) : ℚ) := by
  have hupper : ∀ m n k : ℕ, ((m * n / k : ℕ) : ℚ) ≤ m * n / k := by
    intro m n k
    have hle : ((m * n / k : ℕ) : ℚ) ≤ ((m * n : ℕ) : ℚ) / k := Nat.cast_div_le
    rw [Nat.cast_mul] at hle
    exact hle
  have hlower : ∀ m n k : ℕ, (m : ℚ) * n / k - 1 ≤ ((m * n / k : ℕ) : ℚ) := by
    intro m n k
    have hle := sub_one_le_cast_div (m * n) k
    rw [Nat.cast_mul] at hle
    exact hle
  have ha' : (0 : ℚ) < a := by exact_mod_cast ha
  have hS' : (0 : ℚ) < S := by exact_mod_cast ha.trans_le haS
  have hSI' : (S : ℚ) ≤ I := by exact_mod_cast hSI
  have haI' : (a : ℚ) ≤ I := by exact_mod_cast haS.trans hSI
  constructor
  · exact rescaled_le ha' hS' (hS'.trans_le hSI') (Nat.cast_nonneg P) (Nat.cast_nonneg _)
      (hupper a a I) (hupper I a S) (hupper _ P a) (hupper _ _ a)
  · exact le_rescaled ha' hS' hSI' haI' (Nat.cast_nonneg P) (Nat.cast_nonneg _)
      (hlower a a I) (hupper a a I) (hlower I a S) (hlower _ P a) (hlower _ _ a)

end Rescaling

end Bifrost.Rounding
