import Bifrost.Lib.Newton
import Bifrost.StableAsset.Curve

/-!
# What the solvers iterate

The sums, the products and the single pass of `get_d` and of `get_y` as plain arithmetic, and the
rule for their loop.
-/

namespace Bifrost.StableAsset

set_option autoImplicit false

theorem foldlM_step {α β : Type} {f : β → α → Option β} {l : List α} {b c : β} {a : α}
    (h : l.foldlM f b = some c) (ha : a ∈ l) : ∃ b' c', f b' a = some c' := by
  induction l generalizing b with
  | nil => cases ha
  | cons x l ih =>
    rw [List.foldlM_cons, Option.bind_eq_bind, Option.bind_eq_some_iff] at h
    obtain ⟨b', hb', h⟩ := h
    rcases List.mem_cons.mp ha with rfl | ha
    · exact ⟨b, b', hb'⟩
    · exact ih h ha

/-! ## The loop -/

theorem converge_induction {next : ℕ → Option ℕ} {I : ℕ → ℕ → Prop} {Q : ℕ → Prop}
    (hstep : ∀ k x y, I (k + 1) x → next x = some y → I k y)
    (hleft : ∀ k x y, I (k + 1) x → next x = some y → y ≤ x + 1 → x ≤ y + 1 → Q y)
    (hend : ∀ x, I 0 x → Q x) {fuel x y : ℕ} (hI : I fuel x)
    (h : converge next fuel x = some y) : Q y := by
  induction fuel generalizing x with
  | zero =>
    cases h
    exact hend y hI
  | succ fuel ih =>
    simp only [converge, Option.bind_eq_bind, Option.bind_eq_some_iff] at h
    obtain ⟨z, hz, h⟩ := h
    split at h
    next hnear =>
      cases h
      exact hleft fuel x _ hI hz hnear.1 hnear.2
    next => exact ih (hstep fuel x z hI hz) h

theorem converge_last {next : ℕ → Option ℕ} {I : ℕ → Prop}
    (hstep : ∀ x y, I x → next x = some y → I y) {fuel x y : ℕ} (hfuel : 0 < fuel) (hI : I x)
    (h : converge next fuel x = some y) : ∃ z, I z ∧ next z = some y := by
  refine converge_induction (Q := fun y => ∃ z, I z ∧ next z = some y)
    (I := fun k x => I x ∧ (k < fuel → ∃ z, I z ∧ next z = some x)) ?_ ?_ ?_
    ⟨hI, fun hlt => absurd hlt (lt_irrefl _)⟩ h
  · rintro k x y ⟨hx, -⟩ hy
    exact ⟨hstep x y hx hy, fun _ => ⟨x, hx, hy⟩⟩
  · rintro k x y ⟨hx, -⟩ hy - -
    exact ⟨x, hx, hy⟩
  · rintro x ⟨-, hlast⟩
    exact hlast hfuel

/-! ## `get_d` -/

theorem sumAndAnn_fold {n : ℕ} {l : List ℕ} {sum ann sum' ann' : ℕ}
    (h : l.foldlM (fun (sum, ann) balance => do
      let sum ← U512.checkedAdd sum balance
      let ann ← U512.checkedMul ann n
      pure (sum, ann)) (sum, ann) = some (sum', ann')) :
    sum' = sum + l.sum ∧ ann' = ann * n ^ l.length := by
  induction l generalizing sum ann with
  | nil =>
    cases h
    simp
  | cons x l ih =>
    simp only [List.foldlM_cons, Option.bind_eq_bind, Option.bind_eq_some_iff,
      U512.checkedAdd_eq_some, U512.checkedMul_eq_some, Option.pure_def, Option.some_inj] at h
    obtain ⟨_, ⟨_, ⟨-, rfl⟩, _, ⟨-, rfl⟩, rfl⟩, h⟩ := h
    obtain ⟨rfl, rfl⟩ := ih h
    rw [List.sum_cons, List.length_cons]
    constructor <;> ring

variable {balances : List ℕ}

theorem sumAndAnn_eq {a sum ann : ℕ} (h : sumAndAnn balances a = some (sum, ann)) :
    sum = balances.sum ∧ ann = a * balances.length ^ balances.length := by
  obtain ⟨rfl, rfl⟩ := sumAndAnn_fold h
  simp

theorem product_fold {n d : ℕ} {l : List ℕ} {p p' : ℕ}
    (h : l.foldlM (fun p balance => do
      let divOp ← U512.checkedMul balance n
      let p ← U512.checkedMul p d
      U512.checkedDiv p divOp) p = some p') :
    p' = Newton.truncated d p (l.map (· * n)) := by
  induction l generalizing p with
  | nil =>
    cases h
    rfl
  | cons x l ih =>
    simp only [List.foldlM_cons, Option.bind_eq_bind, Option.bind_eq_some_iff,
      U512.checkedMul_eq_some, U512.checkedDiv_eq_some] at h
    obtain ⟨_, ⟨_, ⟨-, rfl⟩, _, ⟨-, rfl⟩, -, rfl⟩, h⟩ := h
    exact ih h

theorem prodD_pos {d p : ℕ} (h : prodD balances d = some p) : ∀ x ∈ balances, 0 < x := by
  intro x hx
  obtain ⟨p₀, p₁, hstep⟩ := foldlM_step h hx
  simp only [Option.bind_eq_bind, Option.bind_eq_some_iff, U512.checkedMul_eq_some,
    U512.checkedDiv_eq_some] at hstep
  obtain ⟨_, ⟨-, rfl⟩, _, -, hne, -⟩ := hstep
  exact Nat.pos_of_ne_zero (left_ne_zero_of_mul hne)

theorem prodD_eq {d p : ℕ} (h : prodD balances d = some p) :
    p = Newton.truncated d d (balances.map (· * balances.length)) :=
  product_fold h

theorem nextD_eq {aPrecision : ℕ} {sum ann d d' : ℕ}
    (h : nextD aPrecision balances sum ann d = some d') :
    ∃ p, prodD balances d = some p ∧ aPrecision ≤ ann ∧ aPrecision ≠ 0 ∧
      (ann - aPrecision) * d / aPrecision + (balances.length + 1) * p ≠ 0 ∧
      d' = (ann * sum / aPrecision + p * balances.length) * d
        / ((ann - aPrecision) * d / aPrecision + (balances.length + 1) * p) := by
  simp only [nextD, Option.bind_eq_bind, Option.bind_eq_some_iff, U512.checkedAdd_eq_some,
    U512.checkedSub_eq_some, U512.checkedMul_eq_some, U512.checkedDiv_eq_some] at h
  obtain ⟨p, hp, _, ⟨-, rfl⟩, _, ⟨-, rfl⟩, _, ⟨hle, rfl⟩, _, ⟨-, rfl⟩, _, ⟨hne, rfl⟩, _, ⟨-, rfl⟩,
    _, ⟨-, rfl⟩, _, ⟨-, rfl⟩, _, ⟨-, rfl⟩, _, ⟨-, rfl⟩, hdiv, rfl⟩ := h
  exact ⟨p, hp, hle, hne, hdiv, rfl⟩

/-! ## `get_y` -/

section

variable {n tokenIndex targetD : ℕ} {l : List ℕ} {c sum ann c' sum' ann' : ℕ}

/-- What the first loop of `get_y` makes of one balance. -/
def otherStep (n tokenIndex targetD : ℕ) : ℕ × ℕ × ℕ → ℕ × ℕ → Option (ℕ × ℕ × ℕ) :=
  fun (c, sum, ann) (balance, i) => do
    let ann ← U512.checkedMul ann n
    if i = tokenIndex then pure (c, sum, ann)
    else
      let sum ← U512.checkedAdd sum balance
      let divOp ← U512.checkedMul balance n
      let c ← U512.checkedMul c targetD
      let c ← U512.checkedDiv c divOp
      pure (c, sum, ann)

theorem otherStep_skip {i balance : ℕ} (hi : i = tokenIndex)
    (h : otherStep n tokenIndex targetD (c, sum, ann) (balance, i) = some (c', sum', ann')) :
    c' = c ∧ sum' = sum ∧ ann' = ann * n := by
  simp only [otherStep, hi, if_true, Option.bind_eq_bind, Option.bind_eq_some_iff,
    U512.checkedMul_eq_some, Option.pure_def, Option.some_inj, Prod.mk.injEq] at h
  obtain ⟨_, ⟨-, rfl⟩, rfl, rfl, rfl⟩ := h
  exact ⟨rfl, rfl, rfl⟩

theorem otherStep_pos {i balance : ℕ} (hi : i ≠ tokenIndex)
    (h : otherStep n tokenIndex targetD (c, sum, ann) (balance, i) = some (c', sum', ann')) :
    0 < balance := by
  simp only [otherStep, hi, if_false, Option.bind_eq_bind, Option.bind_eq_some_iff,
    U512.checkedMul_eq_some, U512.checkedAdd_eq_some, U512.checkedDiv_eq_some] at h
  obtain ⟨_, -, _, -, _, ⟨-, rfl⟩, _, -, _, ⟨hne, -⟩, -⟩ := h
  exact Nat.pos_of_ne_zero (left_ne_zero_of_mul hne)

theorem otherStep_eq {i balance : ℕ} (hi : i ≠ tokenIndex)
    (h : otherStep n tokenIndex targetD (c, sum, ann) (balance, i) = some (c', sum', ann')) :
    c' = c * targetD / (balance * n) ∧ sum' = sum + balance ∧ ann' = ann * n := by
  simp only [otherStep, hi, if_false, Option.bind_eq_bind, Option.bind_eq_some_iff,
    U512.checkedMul_eq_some, U512.checkedAdd_eq_some, U512.checkedDiv_eq_some, Option.pure_def,
    Option.some_inj, Prod.mk.injEq] at h
  obtain ⟨_, ⟨-, rfl⟩, _, ⟨-, rfl⟩, _, ⟨-, rfl⟩, _, ⟨-, rfl⟩, _, ⟨-, rfl⟩, rfl, rfl, rfl⟩ := h
  exact ⟨rfl, rfl, rfl⟩

theorem others_fold_after {k : ℕ} (hk : tokenIndex < k)
    (h : (l.zipIdx k).foldlM (otherStep n tokenIndex targetD) (c, sum, ann)
      = some (c', sum', ann')) :
    c' = Newton.truncated targetD c (l.map (· * n)) ∧ sum' = sum + l.sum ∧
      ann' = ann * n ^ l.length := by
  induction l generalizing k c sum ann with
  | nil =>
    cases h
    simp [Newton.truncated]
  | cons x l ih =>
    rw [List.zipIdx_cons, List.foldlM_cons, Option.bind_eq_bind, Option.bind_eq_some_iff] at h
    obtain ⟨⟨c₁, sum₁, ann₁⟩, hstep, h⟩ := h
    obtain ⟨rfl, rfl, rfl⟩ := otherStep_eq (by omega) hstep
    obtain ⟨rfl, rfl, rfl⟩ := ih (by omega) h
    refine ⟨rfl, ?_, ?_⟩
    · rw [List.sum_cons]
      ring
    · rw [List.length_cons]
      ring

theorem others_fold {k : ℕ}
    (h : (l.zipIdx k).foldlM (otherStep n (k + tokenIndex) targetD) (c, sum, ann)
      = some (c', sum', ann')) :
    c' = Newton.truncated targetD c ((l.eraseIdx tokenIndex).map (· * n)) ∧
      sum' = sum + (l.eraseIdx tokenIndex).sum ∧ ann' = ann * n ^ l.length := by
  induction l generalizing k tokenIndex c sum ann with
  | nil =>
    cases h
    simp [Newton.truncated]
  | cons x l ih =>
    rw [List.zipIdx_cons, List.foldlM_cons, Option.bind_eq_bind, Option.bind_eq_some_iff] at h
    obtain ⟨⟨c₁, sum₁, ann₁⟩, hstep, h⟩ := h
    cases tokenIndex with
    | zero =>
      obtain ⟨rfl, rfl, rfl⟩ := otherStep_skip rfl hstep
      obtain ⟨rfl, rfl, rfl⟩ := others_fold_after (by omega) h
      refine ⟨rfl, rfl, ?_⟩
      rw [List.length_cons]
      ring
    | succ j =>
      obtain ⟨rfl, rfl, rfl⟩ := otherStep_eq (by omega) hstep
      rw [show k + (j + 1) = k + 1 + j by omega] at h
      obtain ⟨rfl, rfl, rfl⟩ := ih h
      rw [List.eraseIdx_cons_succ]
      refine ⟨rfl, ?_, ?_⟩
      · rw [List.sum_cons]
        ring
      · rw [List.length_cons]
        ring

end

theorem othersOf_pos {tokenIndex targetD amplitude : ℕ} {r : ℕ × ℕ × ℕ}
    (h : othersOf balances tokenIndex targetD amplitude = some r) :
    ∀ x i, balances[i]? = some x → i ≠ tokenIndex → 0 < x := by
  intro x i hx hi
  have hmem : (x, i) ∈ balances.zipIdx := List.mem_zipIdx_iff_getElem?.mpr hx
  have hfold : balances.zipIdx.foldlM (otherStep balances.length tokenIndex targetD)
      (targetD, 0, amplitude) = some r := h
  obtain ⟨⟨c, sum, ann⟩, ⟨c', sum', ann'⟩, hstep⟩ := foldlM_step hfold hmem
  exact otherStep_pos hi hstep

theorem coefficients_eq {aPrecision : ℕ} {tokenIndex targetD amplitude c b : ℕ}
    (h : coefficients aPrecision balances tokenIndex targetD amplitude = some (c, b)) :
    c = Newton.truncated targetD targetD
          ((balances.eraseIdx tokenIndex).map (· * balances.length)) * targetD * aPrecision
        / (amplitude * balances.length ^ balances.length * balances.length) ∧
      b = (balances.eraseIdx tokenIndex).sum
        + targetD * aPrecision / (amplitude * balances.length ^ balances.length) := by
  simp only [coefficients, Option.bind_eq_bind, Option.bind_eq_some_iff, U512.checkedAdd_eq_some,
    U512.checkedMul_eq_some, U512.checkedDiv_eq_some, Option.pure_def, Option.some_inj,
    Prod.mk.injEq] at h
  obtain ⟨⟨c₀, sum, ann⟩, hothers, _, ⟨-, rfl⟩, _, ⟨-, rfl⟩, _, ⟨-, rfl⟩, _, ⟨-, rfl⟩,
    _, ⟨-, rfl⟩, _, ⟨-, rfl⟩, _, ⟨-, rfl⟩, rfl, rfl⟩ := h
  have hfold : (balances.zipIdx 0).foldlM (otherStep balances.length (0 + tokenIndex) targetD)
      (targetD, 0, amplitude) = some (c₀, sum, ann) := by
    rw [Nat.zero_add]
    exact hothers
  obtain ⟨rfl, rfl, rfl⟩ := others_fold hfold
  rw [Nat.zero_add]
  exact ⟨rfl, rfl⟩

theorem coefficients_pos {aPrecision : ℕ} {tokenIndex targetD amplitude : ℕ}
    {r : ℕ × ℕ} (h : coefficients aPrecision balances tokenIndex targetD amplitude = some r) :
    (∀ x i, balances[i]? = some x → i ≠ tokenIndex → 0 < x) ∧ 0 < amplitude := by
  simp only [coefficients, Option.bind_eq_bind, Option.bind_eq_some_iff, U512.checkedAdd_eq_some,
    U512.checkedMul_eq_some, U512.checkedDiv_eq_some] at h
  obtain ⟨⟨c₀, sum, ann⟩, hothers, _, -, _, -, _, ⟨-, rfl⟩, _, ⟨hne, -⟩, -⟩ := h
  have hfold : (balances.zipIdx 0).foldlM (otherStep balances.length (0 + tokenIndex) targetD)
      (targetD, 0, amplitude) = some (c₀, sum, ann) := by
    rw [Nat.zero_add]
    exact hothers
  obtain ⟨-, -, rfl⟩ := others_fold hfold
  exact ⟨othersOf_pos hothers,
    Nat.pos_of_ne_zero (left_ne_zero_of_mul (left_ne_zero_of_mul hne))⟩

theorem nextY_eq {c b targetD y y' : ℕ} (h : nextY c b targetD y = some y') :
    targetD < y * 2 + b ∧ y' = (y * y + c) / (y * 2 + b - targetD) := by
  simp only [nextY, Option.bind_eq_bind, Option.bind_eq_some_iff, U512.checkedAdd_eq_some,
    U512.checkedSub_eq_some, U512.checkedMul_eq_some, U512.checkedDiv_eq_some] at h
  obtain ⟨_, ⟨-, rfl⟩, _, ⟨-, rfl⟩, _, ⟨-, rfl⟩, _, ⟨-, rfl⟩, _, ⟨hle, rfl⟩, hne, rfl⟩ := h
  exact ⟨by omega, rfl⟩

end Bifrost.StableAsset
