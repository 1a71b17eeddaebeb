import Bifrost.Lib.Rounding
import Bifrost.StableAsset.Invariant
import Bifrost.StableAsset.Stopping

/-!
# How close the solvers come

`get_d` and `get_y` against the exact roots of the invariant. A pass of `get_d` never ends two
below its root, and ends two above it at most where the roundings of the product term are small
and the loop was left by its own test. The loop of `get_y` always ends at the root of the equation
it solves, whose coefficients are rounded down.
-/

namespace Bifrost.StableAsset

set_option autoImplicit false

/-- The amplification times the number of assets to its own power, over its precision. -/
noncomputable def annOf (aPrecision a n : ℕ) : ℝ := (a * n ^ n : ℕ) / (aPrecision : ℝ)

def exactBalances (balances : List ℕ) : List ℝ := balances.map Nat.cast

/-- How many units the roundings of the product term can take from `d`: the sum of the products of
the first balances, each times the number of assets and over `d`. -/
noncomputable def lossOf (n : ℕ) (balances : List ℕ) (d : ℝ) : ℝ :=
  Newton.loss d (balances.map (· * n))

@[simp] theorem exactBalances_length (balances : List ℕ) :
    (exactBalances balances).length = balances.length :=
  List.length_map _

variable {balances : List ℕ}

theorem exactBalances_pos (hpos : ∀ x ∈ balances, 0 < x) : ∀ x ∈ exactBalances balances, 0 < x := by
  intro y hy
  obtain ⟨x, hx, rfl⟩ := List.mem_map.mp hy
  exact_mod_cast hpos x hx

theorem one_le_exactBalances (hpos : ∀ x ∈ balances, 0 < x) :
    ∀ x ∈ exactBalances balances, 1 ≤ x := by
  intro y hy
  obtain ⟨x, hx, rfl⟩ := List.mem_map.mp hy
  exact_mod_cast hpos x hx

theorem exactBalances_ne_nil (hne : balances ≠ []) : exactBalances balances ≠ [] := by
  simpa [exactBalances] using hne

theorem exactBalances_sum (balances : List ℕ) :
    (exactBalances balances).sum = (balances.sum : ℕ) := by
  rw [exactBalances, Nat.cast_list_sum]

theorem scaled_prod (n : ℕ) (balances : List ℕ) :
    (((balances.map (· * n)).prod : ℕ) : ℝ)
      = (n : ℝ) ^ balances.length * (exactBalances balances).prod := by
  induction balances with
  | nil => simp [exactBalances]
  | cons x l ih =>
    have hcons : exactBalances (x :: l) = (x : ℝ) :: exactBalances l := List.map_cons
    rw [List.map_cons, List.prod_cons, Nat.cast_mul, ih, hcons, List.prod_cons, List.length_cons]
    push_cast
    ring

/-! ## `get_d` -/

section GetD

variable {aPrecision a ann sum d d' p : ℕ} {balances : List ℕ} {r : ℝ}

theorem prodD_le (hne : balances ≠ []) (hpos : ∀ x ∈ balances, 0 < x)
    (h : prodD balances d = some p) : (p : ℝ) ≤ productTerm (exactBalances balances) d := by
  have hle := Newton.truncated_mul_prod_le d (balances.map (· * balances.length)) d
  rw [← prodD_eq h, List.length_map, ← pow_succ'] at hle
  rw [productTerm, exactBalances_length,
    le_div_iff₀ (by
      simpa using scale_pos (exactBalances_ne_nil hne) (exactBalances_pos hpos)),
    ← scaled_prod]
  exact_mod_cast hle

theorem le_prodD (hne : balances ≠ []) (hpos : ∀ x ∈ balances, 0 < x) (hd : 0 < d)
    (h : prodD balances d = some p) :
    productTerm (exactBalances balances) d * (d - lossOf balances.length balances d) ≤ p * d := by
  have hle := Newton.sub_loss_le_truncated hd (scaled_pos hne hpos) d
  have hscale : (0 : ℝ) < (balances.length : ℝ) ^ balances.length * (exactBalances balances).prod :=
    by simpa using scale_pos (exactBalances_ne_nil hne) (exactBalances_pos hpos)
  have hd' : (0 : ℝ) < (d : ℝ) ^ balances.length := by positivity
  rw [← prodD_eq h, List.length_map, scaled_prod] at hle
  rw [productTerm, exactBalances_length, lossOf]
  generalize (balances.length : ℝ) ^ balances.length * (exactBalances balances).prod = scale at *
  calc (d : ℝ) ^ (balances.length + 1) / scale
        * (d - Newton.loss d (balances.map (· * balances.length)))
      ≤ d ^ (balances.length + 1) / scale * (p * (scale / d ^ balances.length)) := by gcongr
    _ = p * d := by
      rw [pow_succ]
      field_simp

theorem pass_quotients (sum d : ℕ) (hprecision : 0 < aPrecision) (hle : aPrecision ≤ ann) :
    (ann : ℝ) / aPrecision * sum - 1 ≤ (ann * sum / aPrecision : ℕ) ∧
      ((ann * sum / aPrecision : ℕ) : ℝ) ≤ ann / aPrecision * sum ∧
      ((ann : ℝ) / aPrecision - 1) * d - 1 ≤ ((ann - aPrecision) * d / aPrecision : ℕ) ∧
      (((ann - aPrecision) * d / aPrecision : ℕ) : ℝ) ≤ (ann / aPrecision - 1) * d := by
  have hprecision' : (aPrecision : ℝ) ≠ 0 := by exact_mod_cast hprecision.ne'
  have hsum : (ann : ℝ) / aPrecision * sum = (ann * sum : ℕ) / (aPrecision : ℝ) := by
    push_cast
    ring
  have hexcess : ((ann : ℝ) / aPrecision - 1) * d
      = ((ann - aPrecision) * d : ℕ) / (aPrecision : ℝ) := by
    push_cast [hle]
    field_simp
  rw [hsum, hexcess]
  have hfirst := Rounding.quotient_bounds ℝ hprecision (ann * sum)
  have hsecond := Rounding.quotient_bounds ℝ hprecision ((ann - aPrecision) * d)
  exact ⟨by linarith, hfirst.1, by linarith, hsecond.1⟩

theorem productTerm_exact (balances : List ℕ) (x : ℝ) :
    productTerm (exactBalances balances) x = x ^ (balances.length + 1)
      / ((balances.length : ℝ) ^ balances.length * (exactBalances balances).prod) := by
  rw [productTerm, exactBalances_length]

theorem exact_scale_pos (hne : balances ≠ []) (hpos : ∀ x ∈ balances, 0 < x) :
    0 < (balances.length : ℝ) ^ balances.length * (exactBalances balances).prod := by
  simpa using scale_pos (exactBalances_ne_nil hne) (exactBalances_pos hpos)

theorem one_le_annOf {n : ℕ} (hprecision : 0 < aPrecision) (hle : aPrecision ≤ a * n ^ n) :
    1 ≤ annOf aPrecision a n := by
  rw [annOf, one_le_div (by exact_mod_cast hprecision)]
  exact_mod_cast hle

theorem nextD_lower (hne : balances ≠ []) (hpos : ∀ x ∈ balances, 0 < x) (hd : 0 < d)
    (h : nextD aPrecision balances balances.sum (a * balances.length ^ balances.length) d
      = some d')
    (hr : 0 < r) (hroot : OnCurve (annOf aPrecision a balances.length) (exactBalances balances) r) :
    r - 2 < d' := by
  obtain ⟨p, hp, hle, hprecision, hdiv, rfl⟩ := nextD_eq h
  have hprecision' := Nat.pos_of_ne_zero hprecision
  have hann := one_le_annOf hprecision' hle
  have hr1 := hroot.one_le hann (exactBalances_ne_nil hne) (one_le_exactBalances hpos) hr
  have hterm := hroot.le_productTerm hann (exactBalances_ne_nil hne) (exactBalances_pos hpos)
  have hple := prodD_le hne hpos hp
  obtain ⟨hsum, -, -, hexcess⟩ := pass_quotients balances.sum d hprecision' hle
  rw [OnCurve, exactBalances_sum, productTerm_exact] at hroot
  rw [productTerm_exact] at hterm hple
  have hd' : (0 : ℝ) < d := by exact_mod_cast hd
  have hstep := lower_step (exact_scale_pos hne hpos) hann hr1 hterm hroot hd' p.cast_nonneg hple
  have hlt := Nat.lt_mul_div_succ ((a * balances.length ^ balances.length * balances.sum
    / aPrecision + p * balances.length) * d) (Nat.pos_of_ne_zero hdiv)
  unfold annOf at hstep
  generalize a * balances.length ^ balances.length * balances.sum / aPrecision = q at *
  generalize (a * balances.length ^ balances.length - aPrecision) * d / aPrecision = e at *
  generalize (q + p * balances.length) * d / (e + (balances.length + 1) * p) = d' at *
  by_contra hge
  rw [not_lt] at hge
  have hlt' : ((q : ℝ) + p * balances.length) * d
      < (e + (balances.length + 1) * p) * (d' + 1) := by exact_mod_cast hlt
  have hdivisor : (0 : ℝ) ≤ e + (balances.length + 1) * p := by positivity
  have hupper : (e + (balances.length + 1) * p) * ((d' : ℝ) + 1)
      ≤ (r - 1) * (((a * balances.length ^ balances.length : ℕ) / (aPrecision : ℝ) - 1) * d
        + (balances.length + 1) * p) := by
    rw [mul_comm (r - 1)]
    exact mul_le_mul (by linarith) (by linarith) (by positivity) (by linarith)
  have hnumerator : ((a * balances.length ^ balances.length : ℕ) / (aPrecision : ℝ) * balances.sum
      - 1 + balances.length * p) * d ≤ (q + p * balances.length) * d := by
    apply mul_le_mul_of_nonneg_right _ hd'.le
    linarith
  linarith

/-- A pass of `get_d` that moves the value by one at most ends no more than two above the root,
where the roundings of the product term take no more than a unit for each asset. -/
theorem nextD_upper (hne : balances ≠ []) (hpos : ∀ x ∈ balances, 0 < x) (hd : 0 < d)
    (h : nextD aPrecision balances balances.sum (a * balances.length ^ balances.length) d
      = some d')
    (hr : 0 < r) (hroot : OnCurve (annOf aPrecision a balances.length) (exactBalances balances) r)
    (hup : d' ≤ d + 1) (hdown : d ≤ d' + 1) (hlarge : 6 * (balances.length + 1) < d')
    (hloss : lossOf balances.length balances r ≤ balances.length) : (d' : ℝ) ≤ r + 2 := by
  by_contra hgt
  rw [not_le] at hgt
  have hupR : (d' : ℝ) ≤ d + 1 := by exact_mod_cast hup
  have hdownR : (d : ℝ) ≤ d' + 1 := by exact_mod_cast hdown
  have hlargeR : 6 * ((balances.length : ℝ) + 1) ≤ d := by
    have : 6 * (balances.length + 1) ≤ d := by omega
    exact_mod_cast this
  obtain ⟨p, hp, hle, hprecision, hdiv, rfl⟩ := nextD_eq h
  have hprecision' := Nat.pos_of_ne_zero hprecision
  have hann := one_le_annOf hprecision' hle
  have hterm := hroot.le_productTerm hann (exactBalances_ne_nil hne) (exactBalances_pos hpos)
  have hlow := le_prodD hne hpos hd hp
  have hanti : lossOf balances.length balances d ≤ balances.length :=
    (Newton.loss_anti hr (by linarith) _).trans hloss
  obtain ⟨-, hsum, hexcess, -⟩ := pass_quotients balances.sum d hprecision' hle
  have hscale := exact_scale_pos hne hpos
  rw [OnCurve, exactBalances_sum, productTerm_exact] at hroot
  rw [productTerm_exact] at hterm hlow
  have hd' : (0 : ℝ) < d := by exact_mod_cast hd
  have hlow' := (mul_le_mul_of_nonneg_left (sub_le_sub_left hanti (d : ℝ))
    (by positivity : 0 ≤ (d : ℝ) ^ (balances.length + 1)
      / ((balances.length : ℝ) ^ balances.length * (exactBalances balances).prod))).trans hlow
  have hfloor := Nat.div_mul_le_self ((a * balances.length ^ balances.length * balances.sum
    / aPrecision + p * balances.length) * d) ((a * balances.length ^ balances.length - aPrecision)
    * d / aPrecision + (balances.length + 1) * p)
  unfold annOf at hann hroot
  generalize a * balances.length ^ balances.length * balances.sum / aPrecision = q at *
  generalize (a * balances.length ^ balances.length - aPrecision) * d / aPrecision = e at *
  generalize (q + p * balances.length) * d / (e + (balances.length + 1) * p) = d' at *
  have hstep : ((d : ℝ) - (d - d'))
      * (((a * balances.length ^ balances.length : ℕ) / (aPrecision : ℝ) - 1) * d - 1
        + (balances.length + 1) * p)
      ≤ ((a * balances.length ^ balances.length : ℕ) / (aPrecision : ℝ) * balances.sum
        + balances.length * p) * d := by
    calc ((d : ℝ) - (d - d'))
          * (((a * balances.length ^ balances.length : ℕ) / (aPrecision : ℝ) - 1) * d - 1
            + (balances.length + 1) * p)
        ≤ d' * (e + (balances.length + 1) * p) := by
          rw [sub_sub_cancel]
          exact mul_le_mul_of_nonneg_left (by linarith) d'.cast_nonneg
      _ ≤ (q + p * balances.length) * d := by exact_mod_cast hfloor
      _ ≤ _ := by
          apply mul_le_mul_of_nonneg_right _ hd'.le
          linarith
  have hbound := upper_step (List.length_pos_iff.mpr hne) hscale hann hr hterm hroot hlargeR hlow'
    (by linarith) (by linarith) hstep
  linarith

theorem getD_eq {D : ℕ} (hsum : 0 < balances.sum) (h : getD aPrecision balances a = some D) :
    converge (nextD aPrecision balances balances.sum (a * balances.length ^ balances.length))
        numberOfIterationsToConverge balances.sum = some D ∧ D ≤ u128Max := by
  simp only [getD, Option.bind_eq_bind, Option.bind_eq_some_iff] at h
  obtain ⟨⟨sum, ann⟩, hsums, h⟩ := h
  obtain ⟨rfl, rfl⟩ := sumAndAnn_eq hsums
  simp only [hsum.ne', if_false, Option.bind_eq_some_iff, U512.toU128_eq_some] at h
  obtain ⟨_, hloop, hle, rfl⟩ := h
  exact ⟨hloop, hle⟩

theorem getD_last {D : ℕ} (hne : balances ≠ []) (hpos : ∀ x ∈ balances, 0 < x)
    (h : getD aPrecision balances a = some D) :
    ∃ d, 0 < d ∧
      nextD aPrecision balances balances.sum (a * balances.length ^ balances.length) d
        = some D := by
  have hsum : 0 < balances.sum := List.sum_pos balances hpos hne
  exact converge_last (I := (0 < ·)) (fun _ _ => nextD_pos hne hsum hpos) (by decide) hsum
    (getD_eq hsum h).1

theorem getD_pos {D : ℕ} (hsum : 0 < balances.sum) (h : getD aPrecision balances a = some D) :
    0 < aPrecision ∧ (∀ x ∈ balances, 0 < x) ∧ 0 < D := by
  have hne : balances ≠ [] := by
    rintro rfl
    exact absurd hsum (lt_irrefl 0)
  obtain ⟨_, -, hpass⟩ := converge_last (I := fun _ => True) (fun _ _ _ _ => trivial) (by decide)
    trivial (getD_eq hsum h).1
  obtain ⟨p, hp, -, hprecision, -, -⟩ := nextD_eq hpass
  have hpos := prodD_pos hp
  obtain ⟨d, hd, hlast⟩ := getD_last hne hpos h
  exact ⟨Nat.pos_of_ne_zero hprecision, hpos, nextD_pos hne hsum hpos hd hlast⟩

end GetD

/-! ## `get_y` -/

section LoopY

variable {c b targetD y y' : ℕ} {m : ℤ}

theorem nextY_step (h : nextY c b targetD y = some y') :
    0 < 2 * (y : ℤ) + (b - targetD) ∧ (y' : ℤ) = Newton.quadraticStep (b - targetD) c y := by
  obtain ⟨hslope, rfl⟩ := nextY_eq h
  refine ⟨by omega, ?_⟩
  rw [Newton.quadraticStep, Int.natCast_ediv, Nat.cast_sub hslope.le]
  push_cast
  congr 1
  ring

/-- From `D` the first pass ends close enough to the root for the passes that are left. -/
theorem near_of_first (hroot : Newton.IsFloorRoot (b - targetD) c m) (hd : targetD ≤ u128Max)
    (hm : m ≤ u128Max) (h : nextY c b targetD targetD = some y') :
    Newton.Near m (numberOfIterationsToConverge - 1) y' := by
  obtain ⟨hslope, hstep⟩ := nextY_step h
  have hm0 := hroot.nonneg
  have hle := hroot.le_step hslope
  rw [← hstep] at hle
  have hpow : (2 : ℤ) ^ 128 ≤ 3 ^ 81 := by norm_num
  have hd' : (targetD : ℤ) ≤ 2 ^ 128 := by
    unfold u128Max at hd
    omega
  have hm' : m + 1 ≤ 2 ^ 128 := by
    unfold u128Max at hm
    omega
  suffices hfar : (y' : ℤ) - (m + 1) ≤ 2 ^ 128 * (m + 1) by
    refine ⟨hle, 128, 81, by decide, hfar, hfar.trans ?_⟩
    exact mul_le_mul_of_nonneg_left (hm'.trans hpow) (by positivity)
  rcases lt_or_ge m targetD with hlt | hge
  · have hhalf := hroot.step_halves hlt
    rw [← hstep] at hhalf
    have : (2 : ℤ) ^ 128 ≤ 2 ^ 128 * (m + 1) := le_mul_of_one_le_right (by positivity) (by omega)
    omega
  · by_contra hgt
    rw [not_le] at hgt
    have hlt := hroot.step_lt hslope
    rw [← hstep] at hlt
    have hpos : 0 ≤ (y' : ℤ) - (m + 1) := by
      have : 0 ≤ (2 : ℤ) ^ 128 * (m + 1) := by positivity
      omega
    have hslope' : 1 ≤ 2 * (targetD : ℤ) + (b - targetD) := hslope
    have hone := mul_le_mul_of_nonneg_left hslope' hpos
    have hsquare : ((targetD : ℤ) - (m + 1)) * (targetD - (m + 1)) ≤ (m + 1) * (m + 1) := by
      nlinarith
    have hbound : (m + 1) * (m + 1) ≤ 2 ^ 128 * (m + 1) :=
      mul_le_mul_of_nonneg_right hm' (by omega)
    linarith

theorem loopY_near (hroot : Newton.IsFloorRoot (b - targetD) c m) (hd : targetD ≤ u128Max)
    (h : converge (nextY c b targetD) numberOfIterationsToConverge targetD = some y)
    (hy : y ≤ u128Max) : m ≤ y ∧ y ≤ m + 2 := by
  have hlow : m ≤ y := by
    refine converge_induction (Q := fun x : ℕ => m ≤ x)
      (I := fun k x => k < numberOfIterationsToConverge → m ≤ x) ?_ ?_ ?_
      (fun hlt => absurd hlt (lt_irrefl _)) h
    · rintro k x x' - hx' -
      obtain ⟨hslope, hstep⟩ := nextY_step hx'
      exact hstep ▸ hroot.le_step hslope
    · rintro k x x' - hx' - -
      obtain ⟨hslope, hstep⟩ := nextY_step hx'
      exact hstep ▸ hroot.le_step hslope
    · exact fun x hx => hx (by decide)
  have hm : m ≤ u128Max := hlow.trans (by exact_mod_cast hy)
  refine ⟨hlow, ?_⟩
  refine converge_induction (Q := fun x : ℕ => x ≤ m + 2)
    (I := fun k x => k ≤ numberOfIterationsToConverge ∧
      (k = numberOfIterationsToConverge → x = targetD) ∧
      (k < numberOfIterationsToConverge → Newton.Near m k x)) ?_ ?_ ?_
    ⟨le_rfl, fun _ => rfl, fun hlt => absurd hlt (lt_irrefl _)⟩ h
  · rintro k x x' ⟨hk, hfirst, hnear⟩ hx'
    refine ⟨by omega, by omega, fun _ => ?_⟩
    rcases hk.eq_or_lt with heq | hlt
    · rw [hfirst heq] at hx'
      have := near_of_first hroot hd hm hx'
      rwa [← heq, Nat.add_sub_cancel] at this
    · obtain ⟨hslope, hstep⟩ := nextY_step hx'
      exact hstep ▸ (hnear hlt).step hroot hslope
  · rintro k x x' - hx' hup hdown
    obtain ⟨-, hstep⟩ := nextY_step hx'
    rw [hstep]
    apply hroot.step_le_of_near
    · rw [← hstep]
      exact_mod_cast hup
    · rw [← hstep]
      exact_mod_cast hdown
  · rintro x ⟨-, -, hnear⟩
    exact (hnear (by decide)).le

end LoopY

section GetY

variable {aPrecision a tokenIndex targetD c b y : ℕ} {balances : List ℕ} {r : ℝ}

theorem getY_eq (h : getY aPrecision balances tokenIndex targetD a = some y) :
    ∃ c b, coefficients aPrecision balances tokenIndex targetD a = some (c, b) ∧
      converge (nextY c b targetD) numberOfIterationsToConverge targetD = some y ∧
      y ≤ u128Max := by
  simp only [getY, Option.bind_eq_bind, Option.bind_eq_some_iff, U512.toU128_eq_some] at h
  obtain ⟨⟨c, b⟩, hcoefficients, y, hloop, hy, rfl⟩ := h
  exact ⟨c, b, hcoefficients, hloop, hy⟩

theorem constant_bounds {k : ℕ} {ann precision n d p t c loss : ℝ} (hann : 0 < ann)
    (hprecision : 0 < precision) (hn : 0 < n) (hd : 0 < d) (hp : 0 < p)
    (hupper : t * (n ^ k * p) ≤ d * d ^ k) (hlower : d - loss ≤ t * (n ^ k * p / d ^ k))
    (hc : c ≤ t * d * precision / (ann * n) ∧ t * d * precision / (ann * n) < c + 1) :
    c ≤ d ^ (k + 1 + 1) / (n ^ (k + 1) * p * (ann / precision)) ∧
      d ^ (k + 1 + 1) / (n ^ (k + 1) * p * (ann / precision)) * (1 - loss / d) - 1 ≤ c := by
  have hfactor : d ^ (k + 1 + 1) / (n ^ (k + 1) * p * (ann / precision))
      = d * d ^ k / (n ^ k * p) * (d * precision / (ann * n)) := by
    rw [pow_succ d (k + 1), pow_succ' d k, pow_succ n k]
    field_simp
  have hrounded : t * d * precision / (ann * n) = t * (d * precision / (ann * n)) := by ring
  have hscale : 0 ≤ d * precision / (ann * n) := by positivity
  rw [hrounded] at hc
  rw [hfactor]
  constructor
  · calc c ≤ t * (d * precision / (ann * n)) := hc.1
      _ ≤ d * d ^ k / (n ^ k * p) * (d * precision / (ann * n)) := by
        apply mul_le_mul_of_nonneg_right _ hscale
        rwa [le_div_iff₀ (by positivity)]
  · have hpart : d * d ^ k / (n ^ k * p) * (1 - loss / d) ≤ t := by
      calc d * d ^ k / (n ^ k * p) * (1 - loss / d)
          = (d - loss) * (d ^ k / (n ^ k * p)) := by field_simp
        _ ≤ t * (n ^ k * p / d ^ k) * (d ^ k / (n ^ k * p)) := by gcongr
        _ = t := by field_simp
    have := mul_le_mul_of_nonneg_right hpart hscale
    linarith

theorem coefficients_bounds (hprecision : 0 < aPrecision) (ha : 0 < a)
    (hi : tokenIndex < balances.length) (hpos : ∀ x ∈ balances.eraseIdx tokenIndex, 0 < x)
    (hd : 0 < targetD)
    (h : coefficients aPrecision balances tokenIndex targetD a = some (c, b)) :
    (c : ℝ) ≤ curveConstant (annOf aPrecision a balances.length) balances.length
        (exactBalances (balances.eraseIdx tokenIndex)) targetD ∧
      curveConstant (annOf aPrecision a balances.length) balances.length
          (exactBalances (balances.eraseIdx tokenIndex)) targetD
          * (1 - lossOf balances.length (balances.eraseIdx tokenIndex) targetD / targetD) - 1
        ≤ c ∧
      (b : ℝ) ≤ (exactBalances (balances.eraseIdx tokenIndex)).sum
        + targetD / annOf aPrecision a balances.length ∧
      (exactBalances (balances.eraseIdx tokenIndex)).sum
        + targetD / annOf aPrecision a balances.length ≤ b + 1 := by
  obtain ⟨hc, hb⟩ := coefficients_eq h
  have hn : 0 < balances.length := Nat.zero_lt_of_lt hi
  have hann : 0 < a * balances.length ^ balances.length := by positivity
  have hlength : (balances.eraseIdx tokenIndex).length + 1 = balances.length := by
    rw [List.length_eraseIdx_of_lt hi]
    omega
  have hscaled : ∀ w ∈ (balances.eraseIdx tokenIndex).map (· * balances.length), 0 < w := by
    intro w hw
    obtain ⟨x, hx, rfl⟩ := List.mem_map.mp hw
    exact Nat.mul_pos (hpos x hx) hn
  have hupper := Newton.truncated_mul_prod_le targetD
    ((balances.eraseIdx tokenIndex).map (· * balances.length)) targetD
  have hlower := Newton.sub_loss_le_truncated hd hscaled targetD
  have hprod := List.prod_pos (exactBalances_pos hpos)
  have hsum := exactBalances_sum (balances.eraseIdx tokenIndex)
  have hfirst := Rounding.quotient_bounds ℝ (Nat.mul_pos hann hn)
    (Newton.truncated targetD targetD ((balances.eraseIdx tokenIndex).map (· * balances.length))
      * targetD * aPrecision)
  have hsecond := Rounding.quotient_bounds ℝ hann (targetD * aPrecision)
  rw [← hc] at hfirst
  rw [List.length_map] at hupper hlower
  rw [scaled_prod] at hlower
  have hupper' : (Newton.truncated targetD targetD
        ((balances.eraseIdx tokenIndex).map (· * balances.length)) : ℝ)
      * ((balances.length : ℝ) ^ (balances.eraseIdx tokenIndex).length
        * (exactBalances (balances.eraseIdx tokenIndex)).prod)
      ≤ targetD * targetD ^ (balances.eraseIdx tokenIndex).length := by
    rw [← scaled_prod]
    exact_mod_cast hupper
  rw [curveConstant, annOf, lossOf, hsum, hb, ← hlength]
  rw [← hlength] at hfirst hsecond hlower hupper' hann hn
  clear hupper hc hb hlength h hsum hscaled
  generalize Newton.loss targetD ((balances.eraseIdx tokenIndex).map
    (· * ((balances.eraseIdx tokenIndex).length + 1))) = loss at *
  generalize Newton.truncated targetD targetD ((balances.eraseIdx tokenIndex).map
    (· * ((balances.eraseIdx tokenIndex).length + 1))) = t at *
  generalize (balances.eraseIdx tokenIndex).length = k at *
  generalize (exactBalances (balances.eraseIdx tokenIndex)).prod = p at *
  have hannR : (0 : ℝ) < (a * (k + 1) ^ (k + 1) : ℕ) := by exact_mod_cast hann
  have hprecisionR : (0 : ℝ) < aPrecision := by exact_mod_cast hprecision
  have hdR : (0 : ℝ) < targetD := by exact_mod_cast hd
  have hnR : (0 : ℝ) < (k + 1 : ℕ) := by exact_mod_cast hn
  generalize a * (k + 1) ^ (k + 1) = ann at *
  rw [Nat.cast_mul ann, Nat.cast_mul _ aPrecision, Nat.cast_mul t] at hfirst
  obtain ⟨hcle, hcge⟩ := constant_bounds hannR hprecisionR hnR hdR hprod hupper' hlower hfirst
  have hquotient : (targetD : ℝ) / (ann / aPrecision) = (targetD * aPrecision : ℕ) / (ann : ℝ) := by
    push_cast
    field_simp
  rw [hquotient, Nat.cast_add (balances.eraseIdx tokenIndex).sum]
  exact ⟨hcle, hcge, by linarith [hsecond.1], by linarith [hsecond.2]⟩

theorem loopY_bounds (hd : targetD ≤ u128Max) {r' : ℝ} (hnonneg : 0 ≤ r')
    (hneg : -((b : ℝ) - targetD) ≤ r') (hroot : r' * r' + ((b : ℝ) - targetD) * r' = c)
    (h : converge (nextY c b targetD) numberOfIterationsToConverge targetD = some y)
    (hy : y ≤ u128Max) : r' - 1 < y ∧ (y : ℝ) ≤ r' + 2 := by
  have hfloor : Newton.IsFloorRoot (b - targetD) c ⌊r'⌋ :=
    Newton.IsFloorRoot.of_root hnonneg (by push_cast; exact hneg) (by push_cast; exact hroot)
  obtain ⟨hlow, hhigh⟩ := loopY_near hfloor hd h hy
  have hlow' : (⌊r'⌋ : ℝ) ≤ y := by exact_mod_cast hlow
  have hhigh' : (y : ℝ) ≤ ⌊r'⌋ + 2 := by exact_mod_cast hhigh
  have hle := Int.floor_le r'
  have hlt := Int.lt_floor_add_one r'
  constructor <;> linarith

theorem annOf_pos {n : ℕ} (hprecision : 0 < aPrecision) (ha : 0 < a) (hn : 0 < n) :
    0 < annOf aPrecision a n := by
  unfold annOf
  positivity

theorem onCurve_exact_iff (hann : 0 < annOf aPrecision a balances.length)
    (hi : tokenIndex < balances.length) (hpos : ∀ x ∈ balances.eraseIdx tokenIndex, 0 < x)
    (hr : 0 < r) (d : ℝ) :
    OnCurve (annOf aPrecision a balances.length) ((exactBalances balances).set tokenIndex r) d ↔
      r * r + ((exactBalances (balances.eraseIdx tokenIndex)).sum
          + d / annOf aPrecision a balances.length - d) * r
        = curveConstant (annOf aPrecision a balances.length) balances.length
            (exactBalances (balances.eraseIdx tokenIndex)) d := by
  have herase : (exactBalances balances).eraseIdx tokenIndex
      = exactBalances (balances.eraseIdx tokenIndex) := List.eraseIdx_map ..
  rw [onCurve_set_iff hann (by simpa using hi) (herase ▸ exactBalances_pos hpos) hr, herase,
    exactBalances_length]

/-- `get_y` against the exact root: no more than three above it, and below it by one and what the
roundings of the constant take. -/
theorem getY_bounds (hprecision : 0 < aPrecision) (ha : 0 < a)
    (hi : tokenIndex < balances.length) (hpos : ∀ x ∈ balances.eraseIdx tokenIndex, 0 < x)
    (hd : 0 < targetD) (hd' : targetD ≤ u128Max)
    (h : getY aPrecision balances tokenIndex targetD a = some y) (hr : 0 < r)
    (hroot : OnCurve (annOf aPrecision a balances.length)
      ((exactBalances balances).set tokenIndex r) targetD) :
    (y : ℝ) ≤ r + 3 ∧
      r - 1 - (curveConstant (annOf aPrecision a balances.length) balances.length
          (exactBalances (balances.eraseIdx tokenIndex)) targetD
          * (lossOf balances.length (balances.eraseIdx tokenIndex) targetD / targetD) + 1) / r
        < y := by
  obtain ⟨c, b, hcoefficients, hloop, hy⟩ := getY_eq h
  obtain ⟨hc, hc', hb, hb'⟩ := coefficients_bounds hprecision ha hi hpos hd hcoefficients
  have hann := annOf_pos hprecision ha (Nat.zero_lt_of_lt hi)
  rw [onCurve_exact_iff hann hi hpos hr] at hroot
  obtain ⟨r', hnonneg, hneg, hroot'⟩ := Newton.exists_root ((b : ℝ) - targetD) c.cast_nonneg
  obtain ⟨hlow, hhigh⟩ := loopY_bounds hd' hnonneg hneg hroot' hloop hy
  have habove := Newton.root_le_add_one hr hroot hnonneg hneg hroot' hc (by linarith)
  refine ⟨by linarith, ?_⟩
  have hshort : r - r' ≤ (curveConstant (annOf aPrecision a balances.length) balances.length
      (exactBalances (balances.eraseIdx tokenIndex)) targetD
      * (lossOf balances.length (balances.eraseIdx tokenIndex) targetD / targetD) + 1) / r := by
    rw [le_div_iff₀ hr]
    rcases le_total r' r with hle | hge
    · have := Newton.sub_mul_root_le hr hroot hneg hroot' (by linarith) hle
      linarith
    · have hd'' : (0 : ℝ) < targetD := by exact_mod_cast hd
      have hloss : 0 ≤ lossOf balances.length (balances.eraseIdx tokenIndex) targetD :=
        Newton.loss_nonneg hd'' _
      have hconstant := curveConstant_pos hann (Nat.zero_lt_of_lt hi) (exactBalances_pos hpos) hd''
      have hnegative := mul_nonneg (sub_nonneg.mpr hge) hr.le
      have hpositive := mul_nonneg hconstant.le (div_nonneg hloss hd''.le)
      linarith
  linarith

end GetY

/-! ## What the solvers promise -/

/-- `get_d` of some balances. Its value is never two below the root, and two above it at most when
the loop was left by its own test, the roundings take a unit for each asset at most, and there are
more than six units for each asset. It has no value only for the reasons given. -/
structure SolvesD (aPrecision : ℕ) (balances : List ℕ) (a : ℕ) : Prop where
  root : ∃ r, 0 < r ∧ OnCurve (annOf aPrecision a balances.length) (exactBalances balances) r
  lower : ∀ D r, getD aPrecision balances a = some D → 0 < r →
    OnCurve (annOf aPrecision a balances.length) (exactBalances balances) r → r - 2 < D
  upper : ∀ D r, Stopping.getD aPrecision balances a = .ok (D, true) → 0 < r →
    OnCurve (annOf aPrecision a balances.length) (exactBalances balances) r →
    lossOf balances.length balances r ≤ balances.length → 6 * (balances.length + 1) < D →
    (D : ℝ) ≤ r + 2
  stops : getD aPrecision balances a = none →
    Stopping.getD aPrecision balances a = .error .overflow ∨
    Stopping.getD aPrecision balances a = .error .underflow ∧
      a * balances.length ^ balances.length < aPrecision ∨
    Stopping.getD aPrecision balances a = .error .zeroDivisor ∧
      a * balances.length ^ balances.length < 2 * aPrecision

/-- `get_y` for a `D`. Its value is within two of the root of the equation whose coefficients it
rounds down, so it is three above the exact root at most, and below it by no more than one and
what the roundings take. It has no value only on an overflow. -/
structure SolvesY (aPrecision : ℕ) (balances : List ℕ) (tokenIndex targetD a : ℕ) : Prop where
  root : ∃ r, 0 < r ∧ OnCurve (annOf aPrecision a balances.length)
    ((exactBalances balances).set tokenIndex r) targetD
  within : ∀ y, getY aPrecision balances tokenIndex targetD a = some y →
    ∃ c b, coefficients aPrecision balances tokenIndex targetD a = some (c, b) ∧
      ∀ r' : ℝ, 0 ≤ r' → -((b : ℝ) - targetD) ≤ r' →
        r' * r' + ((b : ℝ) - targetD) * r' = c → r' - 1 < y ∧ y ≤ r' + 2
  exact : ∀ y r, getY aPrecision balances tokenIndex targetD a = some y → 0 < r →
    OnCurve (annOf aPrecision a balances.length)
      ((exactBalances balances).set tokenIndex r) targetD →
    (y : ℝ) ≤ r + 3 ∧
      r - 1 - (curveConstant (annOf aPrecision a balances.length) balances.length
          (exactBalances (balances.eraseIdx tokenIndex)) targetD
          * (lossOf balances.length (balances.eraseIdx tokenIndex) targetD / targetD) + 1) / r
        < y
  stops : getY aPrecision balances tokenIndex targetD a = none →
    Stopping.getY aPrecision balances tokenIndex targetD a = .error .overflow

theorem solvesD {aPrecision a : ℕ} (hprecision : 0 < aPrecision) (ha : 0 < a)
    (hne : balances ≠ []) (hpos : ∀ x ∈ balances, 0 < x) : SolvesD aPrecision balances a where
  root := exists_onCurve (annOf_pos hprecision ha (List.length_pos_iff.mpr hne))
    (exactBalances_ne_nil hne) (exactBalances_pos hpos)
  lower D r h hr hroot := by
    obtain ⟨d, hd, hlast⟩ := getD_last hne hpos h
    exact nextD_lower hne hpos hd hlast hr hroot
  upper D r h hr hroot hloss hlarge := by
    obtain ⟨d, hd, hlast, hup, hdown⟩ := Stopping.getD_settled hne hpos h
    exact nextD_upper hne hpos hd hlast hr hroot hup hdown hlarge hloss
  stops h := by
    rw [← Stopping.getD_toOption, Option.map_eq_none_iff] at h
    cases hstop : Stopping.getD aPrecision balances a with
    | ok r =>
      rw [hstop] at h
      cases h
    | error e =>
      rcases Stopping.getD_eq_error hprecision hpos hstop with rfl | ⟨rfl, hlt⟩ | ⟨rfl, hlt⟩
      · exact .inl rfl
      · exact .inr (.inl ⟨rfl, hlt⟩)
      · exact .inr (.inr ⟨rfl, hlt⟩)

theorem solvesY {aPrecision a tokenIndex targetD : ℕ}
    (hprecision : 0 < aPrecision) (ha : 0 < a) (hpos : ∀ x ∈ balances, 0 < x)
    (hi : tokenIndex < balances.length) (hd : 0 < targetD) (hd' : targetD ≤ u128Max) :
    SolvesY aPrecision balances tokenIndex targetD a where
  root := by
    have hann := annOf_pos hprecision ha (Nat.zero_lt_of_lt hi)
    have hothers : ∀ x ∈ balances.eraseIdx tokenIndex, 0 < x :=
      fun x hx => hpos x (List.mem_of_mem_eraseIdx hx)
    have hdR : (0 : ℝ) < targetD := by exact_mod_cast hd
    have hconstant := curveConstant_pos hann (Nat.zero_lt_of_lt hi) (exactBalances_pos hothers) hdR
    obtain ⟨r, hnonneg, -, hroot⟩ := Newton.exists_root
      ((exactBalances (balances.eraseIdx tokenIndex)).sum
        + targetD / annOf aPrecision a balances.length - targetD) hconstant.le
    have hr : r ≠ 0 := by
      rintro rfl
      linarith
    have hpositive := lt_of_le_of_ne hnonneg hr.symm
    exact ⟨r, hpositive, (onCurve_exact_iff hann hi hothers hpositive _).mpr hroot⟩
  within y h := by
    obtain ⟨c, b, hcoefficients, hloop, hy⟩ := getY_eq h
    exact ⟨c, b, hcoefficients, fun r' hnonneg hneg hroot =>
      loopY_bounds hd' hnonneg hneg hroot hloop hy⟩
  exact y r h hr hroot :=
    getY_bounds hprecision ha hi (fun x hx => hpos x (List.mem_of_mem_eraseIdx hx)) hd hd' h hr
      hroot
  stops h := by
    rw [← Stopping.getY_toOption, Option.map_eq_none_iff] at h
    cases hstop : Stopping.getY aPrecision balances tokenIndex targetD a with
    | ok r =>
      rw [hstop] at h
      cases h
    | error e =>
      have hne : balances ≠ [] := List.length_pos_iff.mp (Nat.zero_lt_of_lt hi)
      rw [Stopping.getY_eq_error hne hpos ha hd hstop]

end Bifrost.StableAsset
