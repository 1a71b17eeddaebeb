import Mathlib.Analysis.Real.Sqrt
import Mathlib.Tactic.Positivity

/-!
# Newton's method in whole numbers

A quadratic equation is solved by steps that are rounded down: a step never falls below the
whole part of the root, and what lies above it is at least halved. A quotient of products that
is rounded after each factor stays below the exact one by a sum over the factors left.
-/

namespace Bifrost.Newton

set_option autoImplicit false

universe u

/-! ## Powers -/

section Powers

variable {K : Type u} [Field K] [LinearOrder K] [IsStrictOrderedRing K]

theorem tangent_le (n : ℕ) {a b : K} (ha : 0 ≤ a) (hb : 0 ≤ b) :
    (n + 1) * a ^ n * b ≤ n * a ^ (n + 1) + b ^ (n + 1) := by
  induction n with
  | zero => simp
  | succ n ih =>
    have hscaled := mul_le_mul_of_nonneg_left ih ha
    have hcross : 0 ≤ (a ^ (n + 1) - b ^ (n + 1)) * (a - b) := by
      rcases le_total a b with hab | hba
      · have hpow : a ^ (n + 1) ≤ b ^ (n + 1) := by gcongr
        exact mul_nonneg_of_nonpos_of_nonpos (by linarith) (by linarith)
      · have hpow : b ^ (n + 1) ≤ a ^ (n + 1) := by gcongr
        exact mul_nonneg (by linarith) (by linarith)
    have hexpand : (a ^ (n + 1) - b ^ (n + 1)) * (a - b)
        = a ^ (n + 1 + 1) + b ^ (n + 1 + 1) - a ^ (n + 1) * b - a * b ^ (n + 1) := by ring
    push_cast
    calc ((n : K) + 1 + 1) * a ^ (n + 1) * b
        = a * ((n + 1) * a ^ n * b) + a ^ (n + 1) * b := by ring
      _ ≤ a * (n * a ^ (n + 1) + b ^ (n + 1)) + a ^ (n + 1) * b := by gcongr
      _ = n * a ^ (n + 1 + 1) + (a * b ^ (n + 1) + a ^ (n + 1) * b) := by ring
      _ ≤ n * a ^ (n + 1 + 1) + (a ^ (n + 1 + 1) + b ^ (n + 1 + 1)) := by linarith
      _ = (n + 1) * a ^ (n + 1 + 1) + b ^ (n + 1 + 1) := by ring

/-- The product of some numbers, each times how many they are, against the power of their sum. -/
theorem pow_length_mul_prod_le {xs : List K} (hpos : ∀ x ∈ xs, 0 ≤ x) :
    (xs.length : K) ^ xs.length * xs.prod ≤ xs.sum ^ xs.length := by
  induction xs with
  | nil => simp
  | cons x xs ih =>
    have hx : 0 ≤ x := hpos x List.mem_cons_self
    have hxs : ∀ y ∈ xs, 0 ≤ y := fun y hy => hpos y (List.mem_cons_of_mem x hy)
    have hsum : 0 ≤ xs.sum := List.sum_nonneg hxs
    have hrest := ih hxs
    simp only [List.length_cons, List.prod_cons, List.sum_cons]
    generalize xs.length = n at *
    generalize xs.prod = p at *
    generalize xs.sum = s at *
    rcases Nat.eq_zero_or_pos n with rfl | hn
    · simp only [pow_zero, one_mul] at hrest
      simp only [zero_add, Nat.cast_one, one_mul, pow_one]
      have := mul_le_mul_of_nonneg_left hrest hx
      linarith
    · have hn' : (0 : K) < n := by exact_mod_cast hn
      have hmean := tangent_le n (div_nonneg hsum hn'.le)
        (div_nonneg (add_nonneg hx hsum) (by positivity : (0 : K) ≤ (n : K) + 1))
      have hkey : (s / n) ^ n * x ≤ ((x + s) / (n + 1)) ^ (n + 1) := by
        have hb : (n + 1) * (s / n) ^ n * ((x + s) / ((n : K) + 1)) - n * (s / n) ^ (n + 1)
            = (s / n) ^ n * x := by
          rw [pow_succ]
          field_simp
          ring
        linarith
      have hprod : (n : K) ^ n * (x * p) ≤ s ^ n * x := by
        have := mul_le_mul_of_nonneg_left hrest hx
        linarith
      have hp : x * p ≤ (s / n) ^ n * x := by
        rw [div_pow, div_mul_eq_mul_div, le_div_iff₀ (by positivity)]
        linarith
      push_cast
      calc ((n : K) + 1) ^ (n + 1) * (x * p)
          ≤ (n + 1) ^ (n + 1) * ((x + s) / (n + 1)) ^ (n + 1) := by
            gcongr
            exact hp.trans hkey
        _ = (x + s) ^ (n + 1) := by
            rw [← mul_pow, mul_div_cancel₀ _ (by positivity)]

end Powers

/-! ## The equation `y * y + b * y = c` -/

/-- `m` is the whole part of the root. -/
structure IsFloorRoot (b c m : ℤ) : Prop where
  nonneg : 0 ≤ m
  neg_le : -b ≤ m
  below : m * m + b * m ≤ c
  above : c < (m + 1) * (m + 1) + b * (m + 1)

def quadraticStep (b c y : ℤ) : ℤ := (y * y + c) / (2 * y + b)

/-- Close enough above the root to reach it in `k` steps: halving brings the distance down to the
root itself, from where a step leaves a third of it. -/
def Near (m : ℤ) (k : ℕ) (y : ℤ) : Prop :=
  m ≤ y ∧ ∃ i j : ℕ, i + j ≤ k ∧ y - (m + 1) ≤ 2 ^ i * (m + 1) ∧ y - (m + 1) ≤ 2 ^ i * 3 ^ j

section Quadratic

variable {b c m y : ℤ}

theorem IsFloorRoot.of_root {r : ℝ} (hnonneg : 0 ≤ r) (hneg : -b ≤ r)
    (hroot : r * r + b * r = c) : IsFloorRoot b c ⌊r⌋ := by
  have hle := Int.floor_le r
  have hlt := Int.lt_floor_add_one r
  have hfloor : 0 ≤ ⌊r⌋ := Int.floor_nonneg.mpr hnonneg
  have hfloor' : (0 : ℝ) ≤ ⌊r⌋ := by exact_mod_cast hfloor
  refine ⟨hfloor, Int.le_floor.mpr (by push_cast; exact hneg), ?_, ?_⟩
  · have hreal : (⌊r⌋ : ℝ) * ⌊r⌋ + b * ⌊r⌋ ≤ c := by
      have := mul_nonneg (sub_nonneg.mpr hle) (by linarith : 0 ≤ r + ⌊r⌋ + b)
      linarith [this, show (r - ⌊r⌋) * (r + ⌊r⌋ + b)
        = r * r + b * r - (⌊r⌋ * ⌊r⌋ + b * ⌊r⌋) by ring]
    exact_mod_cast hreal
  · have hreal : (c : ℝ) < (⌊r⌋ + 1) * (⌊r⌋ + 1) + b * (⌊r⌋ + 1) := by
      have := mul_pos (sub_pos.mpr hlt) (by linarith : 0 < r + (⌊r⌋ + 1) + b)
      linarith [this, show (⌊r⌋ + 1 - r) * (r + (⌊r⌋ + 1) + b)
        = (⌊r⌋ + 1) * (⌊r⌋ + 1) + b * (⌊r⌋ + 1) - (r * r + b * r) by ring]
    exact_mod_cast hreal

theorem exists_root (b : ℝ) {c : ℝ} (hc : 0 ≤ c) : ∃ r : ℝ, 0 ≤ r ∧ -b ≤ r ∧ r * r + b * r = c := by
  have hnonneg : 0 ≤ b * b + 4 * c := by linarith [mul_self_nonneg b]
  have hsquare := Real.mul_self_sqrt hnonneg
  have habs : |b| ≤ √(b * b + 4 * c) := by
    apply Real.abs_le_sqrt
    rw [sq]
    linarith
  have hle := le_abs_self b
  have hneg := neg_le_abs b
  refine ⟨(√(b * b + 4 * c) - b) / 2, by linarith, by linarith, ?_⟩
  linarith [show (√(b * b + 4 * c) - b) / 2 * ((√(b * b + 4 * c) - b) / 2)
      + b * ((√(b * b + 4 * c) - b) / 2)
    = (√(b * b + 4 * c) * √(b * b + 4 * c) - b * b) / 4 by ring]

/-- Coefficients that are rounded down by less than one take the root up by one at most. -/
theorem root_le_add_one {b b' c c' r r' : ℝ} (hr : 0 < r) (hroot : r * r + b * r = c)
    (hnonneg : 0 ≤ r') (hneg : -b' ≤ r') (hroot' : r' * r' + b' * r' = c') (hc : c' ≤ c)
    (hb : b ≤ b' + 1) : r' ≤ r + 1 := by
  by_contra hgt
  rw [not_le] at hgt
  have hconst : 0 ≤ r * (r + b) := by
    have := mul_nonneg hnonneg (by linarith : 0 ≤ r' + b')
    linarith
  have hslope : 0 ≤ r + b := nonneg_of_mul_nonneg_right hconst hr
  have hbelow : 0 < (r' - 1 - r) * (r' - 1 + r + b) := mul_pos (by linarith) (by linarith)
  have hlinear := mul_le_mul_of_nonneg_right hb (by linarith : 0 ≤ r' - 1)
  linarith

/-- How far the root falls below that of the exact coefficients. -/
theorem sub_mul_root_le {b b' c c' r r' : ℝ} (hr : 0 < r) (hroot : r * r + b * r = c)
    (hneg : -b' ≤ r') (hroot' : r' * r' + b' * r' = c') (hb : b' ≤ b) (hle : r' ≤ r) :
    (r - r') * r ≤ c - c' := by
  have hslope := mul_nonneg (by linarith : 0 ≤ r - r') (by linarith : 0 ≤ r' + b')
  have hcoeff := mul_nonneg (by linarith : 0 ≤ b - b') hr.le
  linarith

theorem IsFloorRoot.le_step (h : IsFloorRoot b c m) (hslope : 0 < 2 * y + b) :
    m ≤ quadraticStep b c y := by
  apply (Int.le_ediv_iff_mul_le hslope).mpr
  have hsquare := mul_self_nonneg (y - m)
  have hbelow := h.below
  linarith [show (y - m) * (y - m) = y * y + m * m - 2 * (m * y) by ring,
    show m * (2 * y + b) = 2 * (m * y) + b * m by ring]

/-- What a step leaves above the root, against the square of what there was. -/
theorem IsFloorRoot.step_lt (h : IsFloorRoot b c m) (hslope : 0 < 2 * y + b) :
    (quadraticStep b c y - (m + 1)) * (2 * y + b) < (y - (m + 1)) * (y - (m + 1)) := by
  have hdiv : quadraticStep b c y * (2 * y + b) ≤ y * y + c := Int.ediv_mul_le _ hslope.ne'
  have habove := h.above
  linarith [show (quadraticStep b c y - (m + 1)) * (2 * y + b)
      = quadraticStep b c y * (2 * y + b) - 2 * ((m + 1) * y) - b * (m + 1) by ring,
    show (y - (m + 1)) * (y - (m + 1)) = y * y - 2 * ((m + 1) * y) + (m + 1) * (m + 1) by ring]

theorem IsFloorRoot.slope_pos (h : IsFloorRoot b c m) (hy : m < y) : 0 < 2 * y + b := by
  have hnonneg := h.nonneg
  have hneg := h.neg_le
  linarith

/-- A distance `e` of which `k` parts fit in the slope shrinks to a `k`-th part. -/
theorem IsFloorRoot.step_shrinks (h : IsFloorRoot b c m) (hy : m < y) {k : ℤ} (hk : 0 ≤ k)
    (hslope : k * (y - (m + 1)) ≤ 2 * y + b) :
    k * (quadraticStep b c y - (m + 1)) ≤ y - (m + 1) := by
  by_contra hgt
  rw [not_le] at hgt
  have hlt := h.step_lt (h.slope_pos hy)
  generalize quadraticStep b c y - (m + 1) = e' at hlt hgt
  have he : 0 ≤ y - (m + 1) := by linarith
  generalize y - (m + 1) = e at *
  have hpos : 0 < e' := by
    by_contra hle
    have := mul_nonneg hk (by linarith : 0 ≤ -e')
    linarith [show k * -e' = -(k * e') by ring]
  have hscaled := mul_le_mul_of_nonneg_left hslope hpos.le
  have hsquare := mul_le_mul_of_nonneg_right hgt.le he
  linarith [show e' * (k * e) = k * e' * e by ring]

theorem IsFloorRoot.step_halves (h : IsFloorRoot b c m) (hy : m < y) :
    2 * (quadraticStep b c y - (m + 1)) ≤ y - (m + 1) := by
  apply h.step_shrinks hy (by norm_num)
  have hnonneg := h.nonneg
  have hneg := h.neg_le
  linarith

theorem IsFloorRoot.step_thirds (h : IsFloorRoot b c m) (hy : m < y)
    (hnear : y - (m + 1) ≤ m + 1) :
    3 * (quadraticStep b c y - (m + 1)) ≤ y - (m + 1) := by
  apply h.step_shrinks hy (by norm_num)
  have hnonneg := h.nonneg
  have hneg := h.neg_le
  linarith

/-- From the whole part of the root a step leads back to it, or one above. -/
theorem IsFloorRoot.step_of_eq (h : IsFloorRoot b c m) (hslope : 0 < 2 * m + b) :
    quadraticStep b c m ≤ m + 1 := by
  have hlt := h.step_lt hslope
  by_contra hgt
  rw [not_le] at hgt
  have hone : 1 ≤ quadraticStep b c m - (m + 1) := by linarith
  have := mul_le_mul hone (by linarith : 1 ≤ 2 * m + b) (by norm_num) (by linarith)
  linarith [show (m - (m + 1)) * (m - (m + 1)) = 1 by ring]

theorem Near.le (h : Near m 0 y) : y ≤ m + 2 := by
  obtain ⟨-, i, j, hij, -, hle⟩ := h
  obtain ⟨rfl, rfl⟩ : i = 0 ∧ j = 0 := by omega
  simp only [pow_zero, one_mul] at hle
  linarith

theorem Near.step {k : ℕ} (h : Near m (k + 1) y) (hroot : IsFloorRoot b c m)
    (hslope : 0 < 2 * y + b) : Near m k (quadraticStep b c y) := by
  obtain ⟨hle, i, j, hij, hm, hthree⟩ := h
  have hm1 : 0 ≤ m + 1 := by linarith [hroot.nonneg]
  refine ⟨hroot.le_step hslope, ?_⟩
  rcases hle.eq_or_lt with heq | hlt
  · subst y
    have hstep := hroot.step_of_eq hslope
    exact ⟨0, 0, by omega, by simp only [pow_zero, one_mul]; linarith,
      by simp only [pow_zero, one_mul]; linarith⟩
  · have hhalf := hroot.step_halves hlt
    rcases i with _ | i
    · simp only [pow_zero, one_mul] at hm hthree
      have hthird := hroot.step_thirds hlt hm
      rcases j with _ | j
      · simp only [pow_zero] at hthree
        exact ⟨0, 0, by omega, by simp only [pow_zero, one_mul]; linarith,
          by simp only [pow_zero, one_mul]; linarith⟩
      · rw [pow_succ] at hthree
        exact ⟨0, j, by omega, by simp only [pow_zero, one_mul]; linarith,
          by simp only [pow_zero, one_mul]; linarith⟩
    · rw [pow_succ] at hm hthree
      exact ⟨i, j, by omega, by linarith, by linarith⟩

/-- Where a step stops moving, the root is at hand. -/
theorem IsFloorRoot.step_le_of_near (h : IsFloorRoot b c m)
    (hup : quadraticStep b c y ≤ y + 1) (hdown : y ≤ quadraticStep b c y + 1) :
    quadraticStep b c y ≤ m + 2 := by
  rcases lt_or_ge m y with hlt | hge
  · have hhalf := h.step_halves hlt
    linarith
  · linarith

end Quadratic

/-! ## Quotients of products, rounded down factor by factor -/

section Products

/-- `p` times `d` over a factor, for each factor in turn. -/
def truncated (d : ℕ) : ℕ → List ℕ → ℕ
  | p, [] => p
  | p, w :: ws => truncated d (p * d / w) ws

theorem truncated_mul_prod_le (d : ℕ) (ws : List ℕ) (p : ℕ) :
    truncated d p ws * ws.prod ≤ p * d ^ ws.length := by
  induction ws generalizing p with
  | nil => simp [truncated]
  | cons w ws ih =>
    rw [truncated, List.prod_cons, List.length_cons]
    calc truncated d (p * d / w) ws * (w * ws.prod)
        = w * (truncated d (p * d / w) ws * ws.prod) := by ring
      _ ≤ w * (p * d / w * d ^ ws.length) := Nat.mul_le_mul_left _ (ih _)
      _ = p * d / w * w * d ^ ws.length := by ring
      _ ≤ p * d * d ^ ws.length := Nat.mul_le_mul_right _ (Nat.div_mul_le_self _ _)
      _ = p * d ^ (ws.length + 1) := by ring

/-- The part of `p` that the roundings can take: the sum of the products of the first factors,
each over `d`. -/
noncomputable def loss (d : ℝ) : List ℕ → ℝ
  | [] => 0
  | w :: ws => w / d * (1 + loss d ws)

theorem loss_nonneg {d : ℝ} (hd : 0 < d) (ws : List ℕ) : 0 ≤ loss d ws := by
  induction ws with
  | nil => exact le_refl _
  | cons w ws ih =>
    rw [loss]
    positivity

theorem loss_anti {d d' : ℝ} (hd : 0 < d) (hle : d ≤ d') (ws : List ℕ) :
    loss d' ws ≤ loss d ws := by
  induction ws with
  | nil => exact le_refl _
  | cons w ws ih =>
    rw [loss, loss]
    have hnonneg := loss_nonneg (hd.trans_le hle) ws
    gcongr

theorem sub_loss_le_truncated {d : ℕ} (hd : 0 < d) {ws : List ℕ} (hws : ∀ w ∈ ws, 0 < w)
    (p : ℕ) :
    (p : ℝ) - loss d ws ≤ truncated d p ws * ((ws.prod : ℕ) / (d : ℝ) ^ ws.length) := by
  have hd' : (0 : ℝ) < d := by exact_mod_cast hd
  induction ws generalizing p with
  | nil => simp [truncated, loss]
  | cons w ws ih =>
    have hw : (0 : ℝ) < w := by exact_mod_cast hws w List.mem_cons_self
    have hrest := ih (fun v hv => hws v (List.mem_cons_of_mem w hv)) (p * d / w)
    have hfloor : (p * d : ℝ) ≤ ((p * d / w : ℕ) + 1) * w := by
      have := Nat.lt_mul_of_div_lt (Nat.lt_succ_self (p * d / w)) (hws w List.mem_cons_self)
      exact_mod_cast this.le
    have hstep : (p : ℝ) - w / d ≤ w / d * (p * d / w : ℕ) := by
      rw [div_mul_eq_mul_div, le_div_iff₀ hd', sub_mul, div_mul_cancel₀ _ hd'.ne']
      linarith
    rw [truncated, loss, List.prod_cons, List.length_cons, Nat.cast_mul, pow_succ]
    calc (p : ℝ) - w / d * (1 + loss d ws)
        = p - w / d - w / d * loss d ws := by ring
      _ ≤ w / d * ((p * d / w : ℕ) - loss d ws) := by linarith
      _ ≤ w / d * (truncated d (p * d / w) ws * ((ws.prod : ℕ) / (d : ℝ) ^ ws.length)) := by
          gcongr
      _ = truncated d (p * d / w) ws * (w * (ws.prod : ℕ) / (d ^ ws.length * d)) := by
          field_simp

end Products

end Bifrost.Newton
