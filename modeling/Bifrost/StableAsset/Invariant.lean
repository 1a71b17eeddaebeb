import Bifrost.Lib.Newton

/-!
# The invariant of StableSwap

The equation that ties the balances of a pool to its `D`, over the reals, with what a step of
Newton's method makes of a `D` when the product term in it is rounded down.
-/

namespace Bifrost.StableAsset

set_option autoImplicit false

/-- The product term: `d` to the power of one more than the number of balances, over the product
of the balances and of their number each time. -/
noncomputable def productTerm (xs : List ℝ) (d : ℝ) : ℝ :=
  d ^ (xs.length + 1) / ((xs.length : ℝ) ^ xs.length * xs.prod)

/-- `ann` is the amplification times the number of balances to its own power. -/
def OnCurve (ann : ℝ) (xs : List ℝ) (d : ℝ) : Prop :=
  ann * xs.sum + d = ann * d + productTerm xs d

section Roots

variable {ann d : ℝ} {xs : List ℝ}

theorem scale_pos (hne : xs ≠ []) (hpos : ∀ x ∈ xs, 0 < x) :
    0 < (xs.length : ℝ) ^ xs.length * xs.prod := by
  have hlength : (0 : ℝ) < xs.length := by exact_mod_cast List.length_pos_iff.mpr hne
  have hprod := List.prod_pos hpos
  positivity

theorem le_productTerm (hne : xs ≠ []) (hpos : ∀ x ∈ xs, 0 < x) (hd : xs.sum ≤ d) :
    d ≤ productTerm xs d := by
  have hsum : 0 ≤ xs.sum := List.sum_nonneg (fun x hx => (hpos x hx).le)
  have hmean := Newton.pow_length_mul_prod_le (fun x hx => (hpos x hx).le)
  rw [productTerm, le_div_iff₀ (scale_pos hne hpos), pow_succ']
  have hpow : xs.sum ^ xs.length ≤ d ^ xs.length := by gcongr
  exact mul_le_mul_of_nonneg_left (hmean.trans hpow) (hsum.trans hd)

theorem OnCurve.le_sum (h : OnCurve ann xs d) (hann : 1 ≤ ann) (hne : xs ≠ [])
    (hpos : ∀ x ∈ xs, 0 < x) : d ≤ xs.sum := by
  by_contra hlt
  rw [not_le] at hlt
  have hterm := le_productTerm hne hpos hlt.le
  have hgap : 0 < ann * (d - xs.sum) := mul_pos (by linarith) (by linarith)
  unfold OnCurve at h
  linarith [show ann * (d - xs.sum) = ann * d - ann * xs.sum by ring]

theorem OnCurve.le_productTerm (h : OnCurve ann xs d) (hann : 1 ≤ ann) (hne : xs ≠ [])
    (hpos : ∀ x ∈ xs, 0 < x) : d ≤ productTerm xs d := by
  have hle := h.le_sum hann hne hpos
  have hgap : 0 ≤ ann * (xs.sum - d) := mul_nonneg (by linarith) (by linarith)
  unfold OnCurve at h
  linarith [show ann * (xs.sum - d) = ann * xs.sum - ann * d by ring]

theorem one_le_scale (hne : xs ≠ []) (hone : ∀ x ∈ xs, 1 ≤ x) :
    1 ≤ (xs.length : ℝ) ^ xs.length * xs.prod := by
  have hlength : (1 : ℝ) ≤ xs.length := by exact_mod_cast List.length_pos_iff.mpr hne
  have hprod : 1 ≤ xs.prod := List.one_le_prod hone
  exact one_le_mul_of_one_le_of_one_le (one_le_pow₀ hlength) hprod

theorem OnCurve.one_le (h : OnCurve ann xs d) (hann : 1 ≤ ann) (hne : xs ≠ [])
    (hone : ∀ x ∈ xs, 1 ≤ x) (hd : 0 < d) : 1 ≤ d := by
  by_contra hlt
  rw [not_le] at hlt
  have hterm : productTerm xs d ≤ d := by
    rw [productTerm, div_le_iff₀ (zero_lt_one.trans_le (one_le_scale hne hone)), pow_succ']
    apply mul_le_mul_of_nonneg_left _ hd.le
    exact (pow_le_one₀ hd.le hlt.le).trans (one_le_scale hne hone)
  have hsum : 1 ≤ xs.sum := by
    obtain ⟨x, hx⟩ := List.exists_mem_of_ne_nil xs hne
    exact (hone x hx).trans (List.single_le_sum
      (fun y hy => zero_le_one.trans (hone y hy)) x hx)
  have hgap : 0 < ann * (xs.sum - d) := mul_pos (by linarith) (by linarith)
  unfold OnCurve at h
  linarith [show ann * (xs.sum - d) = ann * xs.sum - ann * d by ring]

theorem exists_onCurve (hann : 0 < ann) (hne : xs ≠ []) (hpos : ∀ x ∈ xs, 0 < x) :
    ∃ d, 0 < d ∧ OnCurve ann xs d := by
  have hsum : 0 < xs.sum := List.sum_pos xs hpos hne
  have hcont : Continuous fun d => ann * d + productTerm xs d - (ann * xs.sum + d) := by
    unfold productTerm
    fun_prop
  have hzero : ann * 0 + productTerm xs 0 - (ann * xs.sum + 0) < 0 := by
    rw [productTerm, zero_pow (Nat.succ_ne_zero _), zero_div]
    linarith [mul_pos hann hsum]
  have htop : 0 ≤ ann * xs.sum + productTerm xs xs.sum - (ann * xs.sum + xs.sum) := by
    linarith [StableAsset.le_productTerm hne hpos le_rfl]
  obtain ⟨d, ⟨hd, -⟩, hroot⟩ := intermediate_value_Icc hsum.le hcont.continuousOn
    ⟨hzero.le, htop⟩
  have hd' : d ≠ 0 := by
    rintro rfl
    exact hzero.ne hroot
  exact ⟨d, lt_of_le_of_ne hd hd'.symm, (sub_eq_zero.mp hroot).symm⟩

end Roots

/-! ## A balance that is missing -/

section Missing

variable {ann d y : ℝ} {xs : List ℝ} {i : ℕ}

/-- The constant of the quadratic equation that a missing balance solves; the other coefficient is
the sum of the others, `others`, and `d / ann - d`. -/
noncomputable def curveConstant (ann : ℝ) (n : ℕ) (others : List ℝ) (d : ℝ) : ℝ :=
  d ^ (n + 1) / ((n : ℝ) ^ n * others.prod * ann)

theorem onCurve_set_iff (hann : 0 < ann) (hi : i < xs.length)
    (hpos : ∀ x ∈ xs.eraseIdx i, 0 < x) (hy : 0 < y) :
    OnCurve ann (xs.set i y) d ↔
      y * y + ((xs.eraseIdx i).sum + d / ann - d) * y
        = curveConstant ann xs.length (xs.eraseIdx i) d := by
  have hperm := List.set_perm_cons_eraseIdx hi y
  have hlength : (0 : ℝ) < xs.length := by exact_mod_cast Nat.zero_lt_of_lt hi
  have hprod := List.prod_pos hpos
  rw [OnCurve, productTerm, curveConstant, List.length_set, hperm.sum_eq, hperm.prod_eq,
    List.sum_cons, List.prod_cons]
  generalize (xs.eraseIdx i).prod = p at *
  generalize (xs.eraseIdx i).sum = s at *
  have hscale : (0 : ℝ) < (xs.length : ℝ) ^ xs.length * p := by positivity
  generalize (xs.length : ℝ) ^ xs.length = q at *
  rw [show q * (y * p) = q * p * y by ring]
  generalize q * p = k at *
  field_simp
  constructor <;> intro h <;> linarith

theorem curveConstant_pos {n : ℕ} {others : List ℝ} (hann : 0 < ann) (hn : 0 < n)
    (hpos : ∀ x ∈ others, 0 < x) (hd : 0 < d) : 0 < curveConstant ann n others d := by
  have hprod := List.prod_pos hpos
  unfold curveConstant
  positivity

/-- Balances that are worth `d` at most, and such as are worth `d` at least. -/
def AtMost (ann : ℝ) (xs : List ℝ) (d : ℝ) : Prop :=
  ann * xs.sum + d ≤ ann * d + productTerm xs d

def AtLeast (ann : ℝ) (xs : List ℝ) (d : ℝ) : Prop :=
  ann * d + productTerm xs d ≤ ann * xs.sum + d

theorem productTerm_set_anti (hi : i < xs.length) (hpos : ∀ x ∈ xs.eraseIdx i, 0 < x) (hd : 0 < d)
    {z : ℝ} (hy : 0 < y) (hyz : y ≤ z) :
    productTerm (xs.set i z) d ≤ productTerm (xs.set i y) d := by
  have hprod := List.prod_pos hpos
  have hlength : (0 : ℝ) < xs.length := by exact_mod_cast Nat.zero_lt_of_lt hi
  rw [productTerm, productTerm, List.length_set, List.length_set,
    (List.set_perm_cons_eraseIdx hi y).prod_eq, (List.set_perm_cons_eraseIdx hi z).prod_eq,
    List.prod_cons, List.prod_cons]
  gcongr

theorem sum_set_le (hi : i < xs.length) {z : ℝ} (hyz : y ≤ z) :
    (xs.set i y).sum ≤ (xs.set i z).sum := by
  rw [(List.set_perm_cons_eraseIdx hi y).sum_eq, (List.set_perm_cons_eraseIdx hi z).sum_eq,
    List.sum_cons, List.sum_cons]
  linarith

theorem AtLeast.root_le (h : AtLeast ann (xs.set i y) d) (hann : 0 < ann) (hi : i < xs.length)
    (hpos : ∀ x ∈ xs.eraseIdx i, 0 < x) (hd : 0 < d) (hy : 0 < y) {r : ℝ}
    (hroot : OnCurve ann (xs.set i r) d) : r ≤ y := by
  by_contra hgt
  rw [not_le] at hgt
  have hterm := productTerm_set_anti hi hpos hd hy hgt.le
  have hsum : ann * (xs.set i y).sum < ann * (xs.set i r).sum := by
    rw [(List.set_perm_cons_eraseIdx hi y).sum_eq, (List.set_perm_cons_eraseIdx hi r).sum_eq,
      List.sum_cons, List.sum_cons]
    exact mul_lt_mul_of_pos_left (by linarith) hann
  unfold OnCurve at hroot
  unfold AtLeast at h
  linarith

theorem AtMost.le_root (h : AtMost ann (xs.set i y) d) (hann : 0 < ann) (hi : i < xs.length)
    (hpos : ∀ x ∈ xs.eraseIdx i, 0 < x) (hd : 0 < d) {r : ℝ} (hr : 0 < r)
    (hroot : OnCurve ann (xs.set i r) d) : y ≤ r := by
  by_contra hgt
  rw [not_le] at hgt
  have hterm := productTerm_set_anti hi hpos hd hr hgt.le
  have hsum : ann * (xs.set i r).sum < ann * (xs.set i y).sum := by
    rw [(List.set_perm_cons_eraseIdx hi y).sum_eq, (List.set_perm_cons_eraseIdx hi r).sum_eq,
      List.sum_cons, List.sum_cons]
    exact mul_lt_mul_of_pos_left (by linarith) hann
  unfold OnCurve at hroot
  unfold AtMost at h
  linarith

theorem AtLeast.mono (h : AtLeast ann (xs.set i y) d) (hann : 0 < ann) (hi : i < xs.length)
    (hpos : ∀ x ∈ xs.eraseIdx i, 0 < x) (hd : 0 < d) (hy : 0 < y) {z : ℝ} (hyz : y ≤ z) :
    AtLeast ann (xs.set i z) d := by
  have hterm := productTerm_set_anti hi hpos hd hy hyz
  have hsum := mul_le_mul_of_nonneg_left (sum_set_le hi hyz) hann.le
  unfold AtLeast at h ⊢
  linarith

end Missing

/-! ## Balances that grow -/

section Growth

variable {ann d D t : ℝ} {xs : List ℝ}

theorem AtLeast.le_value (h : AtLeast ann xs d) (hann : 1 ≤ ann)
    (hne : xs ≠ []) (hpos : ∀ x ∈ xs, 0 < x) (hD : 0 < D) (hvalue : OnCurve ann xs D) : d ≤ D := by
  by_contra hlt
  rw [not_le] at hlt
  have hterm : productTerm xs D < productTerm xs d :=
    div_lt_div_of_pos_right (pow_lt_pow_left₀ hlt hD.le (Nat.succ_ne_zero _)) (scale_pos hne hpos)
  have hlinear := mul_le_mul_of_nonneg_left hlt.le (sub_nonneg.mpr hann)
  unfold OnCurve at hvalue
  unfold AtLeast at h
  linarith

theorem OnCurve.scale (h : OnCurve ann xs D) (ht : 0 < t) :
    OnCurve ann (xs.map (t * ·)) (t * D) := by
  have hsum : (xs.map (t * ·)).sum = t * xs.sum := by
    rw [List.sum_map_mul_left, List.map_id']
  have hprod : (xs.map (t * ·)).prod = t ^ xs.length * xs.prod := by
    calc (xs.map (t * ·)).prod = (xs.map fun _ => t).prod * (xs.map id).prod := List.prod_map_mul
      _ = t ^ xs.length * xs.prod := by simp
  have hterm : productTerm (xs.map (t * ·)) (t * D) = t * productTerm xs D := by
    rw [productTerm, productTerm, List.length_map, hprod, mul_pow]
    field_simp
    ring
  unfold OnCurve at h ⊢
  rw [hsum, hterm, show ann * (t * xs.sum) + t * D = t * (ann * xs.sum + D) by ring, h]
  ring

theorem AtLeast.of_le {ι : Type} {l : List ι} {f g : ι → ℝ} (h : AtLeast ann (l.map f) d)
    (hann : 0 ≤ ann) (hd : 0 ≤ d) (hne : l ≠ []) (hpos : ∀ i ∈ l, 0 < f i)
    (hle : ∀ i ∈ l, f i ≤ g i) : AtLeast ann (l.map g) d := by
  have hsum : (l.map f).sum ≤ (l.map g).sum := List.sum_le_sum hle
  have hprod : (l.map f).prod ≤ (l.map g).prod :=
    List.prod_map_le_prod_map₀ f g (fun i hi => (hpos i hi).le) hle
  have hscale := scale_pos (by simpa using hne) (by simpa using hpos : ∀ x ∈ l.map f, 0 < x)
  have hterm : productTerm (l.map g) d ≤ productTerm (l.map f) d := by
    unfold productTerm
    rw [List.length_map] at hscale ⊢
    rw [List.length_map]
    gcongr
  have hlinear := mul_le_mul_of_nonneg_left hsum hann
  unfold AtLeast at h ⊢
  linarith

end Growth

/-! ## A step of Newton's method

`r` is the root, `d` the value a step starts from and `p` what is left of the product term of `d`.
The numerator of a step loses less than one in the quotient `ann * sum`, its denominator less than
one in `(ann - 1) * d`.
-/

section Steps

variable {n : ℕ} {scale ann sum r d p : ℝ}

theorem lower_step (hscale : 0 < scale) (hann : 1 ≤ ann) (hr : 1 ≤ r)
    (hterm : r ≤ r ^ (n + 1) / scale)
    (hroot : ann * sum + r = ann * r + r ^ (n + 1) / scale) (hd : 0 < d) (hp : 0 ≤ p)
    (hle : p ≤ d ^ (n + 1) / scale) :
    (r - 1) * ((ann - 1) * d + (n + 1) * p) ≤ (ann * sum - 1 + n * p) * d := by
  have htangent : (n + 1) * (d ^ (n + 1) / scale) * r
      ≤ n * (d ^ (n + 1) / scale) * d + r ^ (n + 1) / scale * d := by
    have h := mul_le_mul_of_nonneg_right (Newton.tangent_le n hd.le (by linarith : 0 ≤ r)) hd.le
    have hdiv := div_le_div_of_nonneg_right h hscale.le
    calc (n + 1) * (d ^ (n + 1) / scale) * r = (n + 1) * d ^ n * r * d / scale := by ring
      _ ≤ (n * d ^ (n + 1) + r ^ (n + 1)) * d / scale := hdiv
      _ = _ := by ring
  have hu : 0 ≤ d ^ (n + 1) / scale := by positivity
  generalize d ^ (n + 1) / scale = u at *
  generalize r ^ (n + 1) / scale = q at *
  have hgap : 0 ≤ (ann - 1) * d := mul_nonneg (by linarith) hd.le
  have hsum : ann * sum = q + (ann - 1) * r := by linarith
  have hq : 1 ≤ q := hr.trans hterm
  suffices hmain : 0 ≤ q * d + p * (n * d - (n + 1) * (r - 1)) - d by
    rw [hsum]
    linarith [show (q + (ann - 1) * r - 1 + n * p) * d - (r - 1) * ((ann - 1) * d + (n + 1) * p)
      = q * d + p * (n * d - (n + 1) * (r - 1)) - d + (ann - 1) * d by ring]
  rcases le_or_gt 0 (n * d - (n + 1) * (r - 1)) with hslope | hslope
  · have h1 := mul_nonneg hp hslope
    have h2 := mul_le_mul_of_nonneg_right hq hd.le
    linarith
  · -- the expression falls in `p`, and at the whole product term the tangent bounds it
    have h1 : u * (n * d - (n + 1) * (r - 1)) ≤ p * (n * d - (n + 1) * (r - 1)) :=
      mul_le_mul_of_nonpos_right hle hslope.le
    have hq0 : 0 < q := by linarith
    have hexcess : 0 ≤ n * u * d + q * d - (n + 1) * u * r := by linarith
    have hscaled : (n * u * d + q * d - (n + 1) * u * r) / q
        ≤ n * u * d + q * d - (n + 1) * u * r := div_le_self hexcess hq
    have hsplit : (n * u * d + q * d - (n + 1) * u * r) / q
        = n * u * d / q + d - (n + 1) * u * (r / q) := by
      field_simp
    have hpart : 0 ≤ n * u * d / q := by positivity
    have hratio : (n + 1) * u * (r / q) ≤ (n + 1) * u := by
      apply mul_le_of_le_one_right (by positivity)
      exact (div_le_one hq0).mpr hterm
    linarith [show u * (n * d - (n + 1) * (r - 1))
      = n * u * d - (n + 1) * u * r + (n + 1) * u by ring]

theorem step_polynomial_pos {n d k : ℝ} (hn : 1 ≤ n) (hk : -1 ≤ k) (hk1 : k ≤ 1)
    (hd : 6 * (n + 1) ≤ d) :
    d ^ 3 + (d - k) * (d + (k + 2) * (n + 1))
      < (d - n) * (d - k * (n + 1)) * (d + (k + 2) * (n + 1)) := by
  have hlow : -1 ≤ k * (k + 2) := by nlinarith
  have hhigh : k * (k + 2) ≤ 3 := by nlinarith
  have hexpand : (d - n) * (d - k * (n + 1)) * (d + (k + 2) * (n + 1))
      - (d ^ 3 + (d - k) * (d + (k + 2) * (n + 1)))
      = (n + 1) * d * d - (k * (k + 2) * (n + 1) ^ 2 + 2 * (n + 1) * n + (k + 2) * (n + 1) - k) * d
        + k * (k + 2) * ((n + 1) * (n * (n + 1) + 1)) := by ring
  have hmiddle : k * (k + 2) * (n + 1) ^ 2 + 2 * (n + 1) * n + (k + 2) * (n + 1) - k
      ≤ 5 * (n + 1) ^ 2 + (n + 1) + 1 := by
    have h1 := mul_le_mul_of_nonneg_right hhigh (sq_nonneg (n + 1))
    have h2 : k * n ≤ n := mul_le_of_le_one_left (by linarith) hk1
    linarith [show (k + 2) * (n + 1) - k = k * n + 2 * (n + 1) by ring,
      show (n + 1) ^ 2 = (n + 1) * n + n + 1 by ring]
  have hlast : -((n + 1) * (n * (n + 1) + 1)) ≤ k * (k + 2) * ((n + 1) * (n * (n + 1) + 1)) := by
    have := mul_le_mul_of_nonneg_right hlow
      (by positivity : 0 ≤ (n + 1) * (n * (n + 1) + 1))
    linarith
  have hd0 : 0 < d := by linarith
  have hgrow : ((n + 1) ^ 2 - (n + 1) - 1) * d
      ≤ (n + 1) * d * d - (5 * (n + 1) ^ 2 + (n + 1) + 1) * d := by
    have := mul_le_mul_of_nonneg_right hd (by positivity : 0 ≤ (n + 1) * d)
    linarith [show 6 * (n + 1) * ((n + 1) * d) = 6 * (n + 1) ^ 2 * d by ring,
      show d * ((n + 1) * d) = (n + 1) * d * d by ring,
      show (5 * (n + 1) ^ 2 + (n + 1) + 1) * d + ((n + 1) ^ 2 - (n + 1) - 1) * d
        = 6 * (n + 1) ^ 2 * d by ring]
  have hmiddle' := mul_le_mul_of_nonneg_right hmiddle hd0.le
  have hfinal : (n + 1) * (n * (n + 1) + 1) < ((n + 1) ^ 2 - (n + 1) - 1) * d := by
    have hfactor : 0 < (n + 1) ^ 2 - (n + 1) - 1 := by nlinarith
    have := mul_le_mul_of_nonneg_left hd hfactor.le
    nlinarith
  linarith

/-- A step that moves the value by `k`, one at most, ends no more than two above the root: the
roundings of the product term take no more than `n` of `d` parts of it. -/
theorem upper_step (hn : 1 ≤ n) (hscale : 0 < scale) (hann : 1 ≤ ann) (hr : 0 < r)
    (hterm : r ≤ r ^ (n + 1) / scale)
    (hroot : ann * sum + r = ann * r + r ^ (n + 1) / scale) (hd : 6 * ((n : ℝ) + 1) ≤ d)
    (hlow : d ^ (n + 1) / scale * (d - n) ≤ p * d) {k : ℝ} (hk : -1 ≤ k) (hk1 : k ≤ 1)
    (hstep : (d - k) * ((ann - 1) * d - 1 + (n + 1) * p) ≤ (ann * sum + n * p) * d) :
    d - k ≤ r + 2 := by
  by_contra hgt
  rw [not_le] at hgt
  have hn' : (1 : ℝ) ≤ n := by exact_mod_cast hn
  have hd0 : 0 < d := by linarith
  have hm : (0 : ℝ) < n + 1 := by linarith
  have hdr : r < d := by linarith
  -- the product term of `d` is at least `d`, and that of the root lies below its tangent
  have hbig : d ≤ d ^ (n + 1) / scale := by
    have hpow : r ^ n ≤ d ^ n := by gcongr
    rw [le_div_iff₀ hscale] at hterm ⊢
    rw [pow_succ'] at hterm ⊢
    exact mul_le_mul_of_nonneg_left ((le_of_mul_le_mul_left hterm hr).trans hpow) hd0.le
  have htangent : r ^ (n + 1) / scale * (d + (k + 2) * (n + 1)) ≤ d ^ (n + 1) / scale * d := by
    have h := Newton.tangent_le (n + 1) hr.le hd0.le
    have hshift : r ^ (n + 1) * (d + (k + 2) * (n + 1)) ≤ d ^ (n + 1) * d := by
      rw [pow_succ r (n + 1), pow_succ d (n + 1)] at h
      push_cast at h
      have hmore : (k + 2) * (n + 1) ≤ (n + 1) * (d - r) := by
        rw [mul_comm (k + 2)]
        exact mul_le_mul_of_nonneg_left (by linarith) hm.le
      have hpow : 0 ≤ r ^ (n + 1) := by positivity
      have hscaled := mul_le_mul_of_nonneg_left hmore hpow
      linarith
    rw [div_mul_eq_mul_div, div_mul_eq_mul_div]
    exact div_le_div_of_nonneg_right hshift hscale.le
  have hq : 0 < r ^ (n + 1) / scale := by positivity
  generalize d ^ (n + 1) / scale = u at *
  generalize r ^ (n + 1) / scale = q at *
  have hsum : ann * sum = q + (ann - 1) * r := by linarith
  -- what the step says of `p`, without the part that is linear in `d`
  have hp : p * (d - k * (n + 1)) ≤ d * q + d - k := by
    have hlinear : 0 ≤ (ann - 1) * (d - r - k) * d :=
      mul_nonneg (mul_nonneg (by linarith) (by linarith)) hd0.le
    rw [hsum] at hstep
    have hexpand : (d - k) * ((ann - 1) * d - 1 + (n + 1) * p) - (q + (ann - 1) * r + n * p) * d
        = (ann - 1) * (d - r - k) * d + (p * (d - k * (n + 1)) - (d * q + d - k)) := by ring
    linarith
  have hwidth : 0 < d + (k + 2) * (n + 1) := by
    have := mul_pos (by linarith : 0 < k + 2) hm
    linarith
  have hrest : 0 ≤ d - k * (n + 1) := by
    have := mul_le_of_le_one_left hm.le hk1
    linarith
  have hchain : u * ((d - n) * (d - k * (n + 1)) * (d + (k + 2) * (n + 1)))
      ≤ u * (d ^ 3 + (d - k) * (d + (k + 2) * (n + 1))) := by
    calc u * ((d - n) * (d - k * (n + 1)) * (d + (k + 2) * (n + 1)))
        = u * (d - n) * ((d - k * (n + 1)) * (d + (k + 2) * (n + 1))) := by ring
      _ ≤ p * d * ((d - k * (n + 1)) * (d + (k + 2) * (n + 1))) := by gcongr
      _ = p * (d - k * (n + 1)) * (d * (d + (k + 2) * (n + 1))) := by ring
      _ ≤ (d * q + d - k) * (d * (d + (k + 2) * (n + 1))) := by gcongr
      _ = q * (d + (k + 2) * (n + 1)) * d ^ 2
          + d * ((d - k) * (d + (k + 2) * (n + 1))) := by ring
      _ ≤ u * d * d ^ 2 + u * ((d - k) * (d + (k + 2) * (n + 1))) := by
          have := mul_nonneg (by linarith : 0 ≤ d - k) hwidth.le
          gcongr
      _ = u * (d ^ 3 + (d - k) * (d + (k + 2) * (n + 1))) := by ring
  have hpoly := step_polynomial_pos hn' hk hk1 hd
  have := le_of_mul_le_mul_left hchain (by linarith)
  linarith

end Steps

end Bifrost.StableAsset
