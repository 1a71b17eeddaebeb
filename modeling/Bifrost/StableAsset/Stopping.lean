import Bifrost.Lib.Result
import Bifrost.StableAsset.Iterations

/-!
# Why a solver returns nothing

`get_d` and `get_y` once more, with the reason they return nothing for and with whether the loop
was left by its own test. Without the reasons it is the same computation.
-/

namespace Bifrost.StableAsset

open Result
set_option autoImplicit false

inductive Stop where
  | overflow
  | underflow
  | zeroDivisor
deriving DecidableEq, Repr

namespace Stopping

def add (a b : ℕ) : Except Stop ℕ := okOr (U512.checkedAdd a b) .overflow

def sub (a b : ℕ) : Except Stop ℕ := okOr (U512.checkedSub a b) .underflow

def mul (a b : ℕ) : Except Stop ℕ := okOr (U512.checkedMul a b) .overflow

def div (a b : ℕ) : Except Stop ℕ := okOr (U512.checkedDiv a b) .zeroDivisor

def toU128 (a : ℕ) : Except Stop ℕ := okOr (U512.toU128 a) .overflow

/-- With the value, whether the loop was left by its own test. -/
def converge (next : ℕ → Except Stop ℕ) : ℕ → ℕ → Except Stop (ℕ × Bool)
  | 0, x => pure (x, false)
  | fuel + 1, x => do
    let x' ← next x
    if x' ≤ x + 1 ∧ x ≤ x' + 1 then pure (x', true) else converge next fuel x'

def sumAndAnn (balances : List ℕ) (a : ℕ) : Except Stop (ℕ × ℕ) :=
  balances.foldlM (fun (sum, ann) balance => do
    let sum ← add sum balance
    let ann ← mul ann balances.length
    pure (sum, ann)) (0, a)

def prodD (balances : List ℕ) (d : ℕ) : Except Stop ℕ :=
  balances.foldlM (fun p balance => do
    let divOp ← mul balance balances.length
    let p ← mul p d
    div p divOp) d

def nextD (aPrecision : ℕ) (balances : List ℕ) (sum ann d : ℕ) : Except Stop ℕ := do
  let p ← prodD balances d
  let t1 ← mul p balances.length
  let t2 ← mul (balances.length + 1) p
  let excess ← sub ann aPrecision
  let t3 ← mul excess d
  let t3 ← div t3 aPrecision
  let t3 ← add t3 t2
  let numerator ← mul ann sum
  let numerator ← div numerator aPrecision
  let numerator ← add numerator t1
  let numerator ← mul numerator d
  div numerator t3

def getD (aPrecision : ℕ) (balances : List ℕ) (a : ℕ) : Except Stop (ℕ × Bool) := do
  let (sum, ann) ← sumAndAnn balances a
  if sum = 0 then pure (0, true)
  else
    let (d, left) ← converge (nextD aPrecision balances sum ann) numberOfIterationsToConverge sum
    let d ← toU128 d
    pure (d, left)

def othersOf (balances : List ℕ) (tokenIndex targetD amplitude : ℕ) :
    Except Stop (ℕ × ℕ × ℕ) :=
  balances.zipIdx.foldlM (fun (c, sum, ann) (balance, i) => do
    let ann ← mul ann balances.length
    if i = tokenIndex then pure (c, sum, ann)
    else
      let sum ← add sum balance
      let divOp ← mul balance balances.length
      let c ← mul c targetD
      let c ← div c divOp
      pure (c, sum, ann)) (targetD, 0, amplitude)

def coefficients (aPrecision : ℕ) (balances : List ℕ) (tokenIndex targetD amplitude : ℕ) :
    Except Stop (ℕ × ℕ) := do
  let (c, sum, ann) ← othersOf balances tokenIndex targetD amplitude
  let c ← mul c targetD
  let c ← mul c aPrecision
  let divOp ← mul ann balances.length
  let c ← div c divOp
  let scaledD ← mul targetD aPrecision
  let quotient ← div scaledD ann
  let b ← add sum quotient
  pure (c, b)

def nextY (c b targetD y : ℕ) : Except Stop ℕ := do
  let square ← mul y y
  let numerator ← add square c
  let double ← mul y 2
  let slope ← add double b
  let slope ← sub slope targetD
  div numerator slope

def getY (aPrecision : ℕ) (balances : List ℕ) (tokenIndex targetD amplitude : ℕ) :
    Except Stop (ℕ × Bool) := do
  let (c, b) ← coefficients aPrecision balances tokenIndex targetD amplitude
  let (y, left) ← converge (nextY c b targetD) numberOfIterationsToConverge targetD
  let y ← toU128 y
  pure (y, left)

end Stopping

/-! Without the reasons it is the same computation. -/

section Agreement

variable {α β γ : Type} {ε : Type}

theorem toOption_okOr (o : Option α) (e : ε) : (okOr o e).toOption = o := by
  cases o <;> rfl

theorem toOption_eq_some {x : Except ε α} {a : α} : x.toOption = some a ↔ x = .ok a := by
  cases x <;> simp [Except.toOption]

theorem toOption_pure (a : α) : (pure a : Except ε α).toOption = some a := rfl

theorem toOption_bind {x : Except ε α} {f : α → Except ε β} :
    (x >>= f).toOption = x.toOption.bind fun a => (f a).toOption := by
  cases x <;> rfl

theorem toOption_ite {p : Prop} [Decidable p] {x y : Except ε α} :
    (if p then x else y).toOption = if p then x.toOption else y.toOption := by
  split <;> rfl

theorem toOption_foldlM {f : β → α → Except ε β} {g : β → α → Option β}
    (hfg : ∀ b a, (f b a).toOption = g b a) (l : List α) (b : β) :
    (l.foldlM f b).toOption = l.foldlM g b := by
  induction l generalizing b with
  | nil => rfl
  | cons a l ih =>
    rw [List.foldlM_cons, List.foldlM_cons, toOption_bind, hfg]
    exact Option.bind_congr fun b' _ => ih b'

theorem Stopping.converge_toOption {next : ℕ → Except Stop ℕ} {next' : ℕ → Option ℕ}
    (hnext : ∀ x, (next x).toOption = next' x) (fuel x : ℕ) :
    (Stopping.converge next fuel x).toOption.map Prod.fst = StableAsset.converge next' fuel x := by
  induction fuel generalizing x with
  | zero => rfl
  | succ fuel ih =>
    rw [Stopping.converge, StableAsset.converge, toOption_bind, hnext, Option.map_bind]
    apply Option.bind_congr
    intro y hy
    rw [Function.comp_apply, toOption_ite]
    split
    · rfl
    · exact ih y

theorem Stopping.sumAndAnn_toOption (balances : List ℕ) (a : ℕ) :
    (Stopping.sumAndAnn balances a).toOption = StableAsset.sumAndAnn balances a := by
  apply toOption_foldlM
  rintro ⟨sum, ann⟩ balance
  simp only [Stopping.add, Stopping.mul, toOption_bind, toOption_okOr, toOption_pure]
  rfl

theorem Stopping.prodD_toOption (balances : List ℕ) (d : ℕ) :
    (Stopping.prodD balances d).toOption = StableAsset.prodD balances d := by
  apply toOption_foldlM
  intro p balance
  simp only [Stopping.mul, Stopping.div, toOption_bind, toOption_okOr]
  rfl

theorem Stopping.nextD_toOption (aPrecision : ℕ) (balances : List ℕ) (sum ann d : ℕ) :
    (Stopping.nextD aPrecision balances sum ann d).toOption
      = StableAsset.nextD aPrecision balances sum ann d := by
  simp only [Stopping.nextD, Stopping.add, Stopping.sub, Stopping.mul, Stopping.div,
    toOption_bind, toOption_okOr, Stopping.prodD_toOption]
  rfl

theorem Stopping.getD_toOption (aPrecision : ℕ) (balances : List ℕ) (a : ℕ) :
    (Stopping.getD aPrecision balances a).toOption.map Prod.fst
      = StableAsset.getD aPrecision balances a := by
  rw [Stopping.getD, StableAsset.getD, toOption_bind, Stopping.sumAndAnn_toOption, Option.map_bind]
  apply Option.bind_congr
  rintro ⟨sum, ann⟩ -
  simp only [Function.comp_apply]
  split
  · rfl
  · rw [toOption_bind, Option.map_bind, Option.bind_eq_bind, ← Stopping.converge_toOption
      (Stopping.nextD_toOption aPrecision balances sum ann), Option.bind_map]
    apply Option.bind_congr
    rintro ⟨d, left⟩ -
    simp only [Function.comp_apply, Stopping.toU128, toOption_bind, toOption_okOr, toOption_pure]
    cases U512.toU128 d <;> rfl

theorem Stopping.othersOf_toOption (balances : List ℕ) (tokenIndex targetD amplitude : ℕ) :
    (Stopping.othersOf balances tokenIndex targetD amplitude).toOption
      = StableAsset.othersOf balances tokenIndex targetD amplitude := by
  apply toOption_foldlM
  rintro ⟨c, sum, ann⟩ ⟨balance, i⟩
  simp only [Stopping.add, Stopping.mul, Stopping.div, toOption_bind, toOption_okOr,
    toOption_ite, toOption_pure]
  rfl

theorem Stopping.coefficients_toOption (aPrecision : ℕ) (balances : List ℕ)
    (tokenIndex targetD amplitude : ℕ) :
    (Stopping.coefficients aPrecision balances tokenIndex targetD amplitude).toOption
      = StableAsset.coefficients aPrecision balances tokenIndex targetD amplitude := by
  simp only [Stopping.coefficients, Stopping.add, Stopping.mul, Stopping.div, toOption_bind,
    toOption_okOr, toOption_pure, Stopping.othersOf_toOption]
  rfl

theorem Stopping.nextY_toOption (c b targetD y : ℕ) :
    (Stopping.nextY c b targetD y).toOption = StableAsset.nextY c b targetD y := by
  simp only [Stopping.nextY, Stopping.add, Stopping.sub, Stopping.mul, Stopping.div,
    toOption_bind, toOption_okOr]
  rfl

theorem Stopping.getY_toOption (aPrecision : ℕ) (balances : List ℕ)
    (tokenIndex targetD amplitude : ℕ) :
    (Stopping.getY aPrecision balances tokenIndex targetD amplitude).toOption.map Prod.fst
      = StableAsset.getY aPrecision balances tokenIndex targetD amplitude := by
  rw [Stopping.getY, StableAsset.getY, toOption_bind, Stopping.coefficients_toOption,
    Option.map_bind]
  apply Option.bind_congr
  rintro ⟨c, b⟩ -
  simp only [Function.comp_apply]
  rw [toOption_bind, Option.map_bind, Option.bind_eq_bind, ← Stopping.converge_toOption
    (Stopping.nextY_toOption c b targetD), Option.bind_map]
  apply Option.bind_congr
  rintro ⟨y, left⟩ -
  simp only [Function.comp_apply, Stopping.toU128, toOption_bind, toOption_okOr, toOption_pure]
  cases U512.toU128 y <;> rfl

end Agreement

/-! ## Which reasons there are -/

namespace Stopping

variable {e : Stop}

theorem add_eq_error {a b : ℕ} (h : add a b = .error e) : e = .overflow :=
  (okOr_eq_error.mp h).2.symm

theorem mul_eq_error {a b : ℕ} (h : mul a b = .error e) : e = .overflow :=
  (okOr_eq_error.mp h).2.symm

theorem toU128_eq_error {a : ℕ} (h : toU128 a = .error e) : e = .overflow :=
  (okOr_eq_error.mp h).2.symm

theorem sub_eq_error {a b : ℕ} (h : sub a b = .error e) : a < b ∧ e = .underflow := by
  obtain ⟨hnone, rfl⟩ := okOr_eq_error.mp h
  unfold U512.checkedSub at hnone
  split at hnone
  · cases hnone
  · exact ⟨by omega, rfl⟩

theorem div_eq_error {a b : ℕ} (h : div a b = .error e) : b = 0 ∧ e = .zeroDivisor := by
  obtain ⟨hnone, rfl⟩ := okOr_eq_error.mp h
  unfold U512.checkedDiv at hnone
  split at hnone
  · exact ⟨by assumption, rfl⟩
  · cases hnone

theorem mul_eq_ok {a b c : ℕ} (h : mul a b = .ok c) : a * b = c :=
  (U512.checkedMul_eq_some.mp (okOr_eq_ok.mp h)).2

theorem add_eq_ok {a b c : ℕ} (h : add a b = .ok c) : a + b = c :=
  (U512.checkedAdd_eq_some.mp (okOr_eq_ok.mp h)).2

theorem div_eq_ok {a b c : ℕ} (h : div a b = .ok c) : a / b = c :=
  (U512.checkedDiv_eq_some.mp (okOr_eq_ok.mp h)).2

theorem sub_eq_ok {a b c : ℕ} (h : sub a b = .ok c) : b ≤ a ∧ a - b = c :=
  U512.checkedSub_eq_some.mp (okOr_eq_ok.mp h)

theorem converge_eq_error {next : ℕ → Except Stop ℕ} {I : ℕ → Prop}
    (hstep : ∀ x y, I x → next x = .ok y → ¬(y ≤ x + 1 ∧ x ≤ y + 1) → I y) {fuel x : ℕ}
    (hI : I x) (h : converge next fuel x = .error e) : ∃ y, I y ∧ next y = .error e := by
  induction fuel generalizing x with
  | zero => cases h
  | succ fuel ih =>
    rw [converge, bind_eq_error] at h
    rcases h with h | ⟨y, hy, h⟩
    · exact ⟨x, hI, h⟩
    · split at h
      next => cases h
      next hfar => exact ih (hstep x y hI hy hfar) h

theorem converge_settled {next : ℕ → Except Stop ℕ} {I : ℕ → Prop}
    (hstep : ∀ x y, I x → next x = .ok y → I y) {fuel x z : ℕ} (hI : I x)
    (h : converge next fuel x = .ok (z, true)) :
    ∃ y, I y ∧ next y = .ok z ∧ z ≤ y + 1 ∧ y ≤ z + 1 := by
  induction fuel generalizing x with
  | zero => cases h
  | succ fuel ih =>
    rw [converge, bind_eq_ok] at h
    obtain ⟨y, hy, h⟩ := h
    split at h
    next hnear =>
      cases h
      exact ⟨x, hI, hy, hnear⟩
    next => exact ih (hstep x y hI hy) h

theorem sumAndAnn_eq_error {balances : List ℕ} {a : ℕ}
    (h : sumAndAnn balances a = .error e) : e = .overflow := by
  obtain ⟨balance, -, ⟨sum, ann⟩, h⟩ := foldlM_eq_error h
  simp only [bind_eq_error] at h
  rcases h with h | ⟨_, -, h | ⟨_, -, h⟩⟩
  · exact add_eq_error h
  · exact mul_eq_error h
  · cases h

theorem prodD_eq_error {balances : List ℕ} {d : ℕ} (hpos : ∀ x ∈ balances, 0 < x)
    (h : prodD balances d = .error e) : e = .overflow := by
  obtain ⟨balance, hmem, p, h⟩ := foldlM_eq_error h
  simp only [bind_eq_error] at h
  rcases h with h | ⟨divOp, hdivOp, h | ⟨_, -, h⟩⟩
  · exact mul_eq_error h
  · exact mul_eq_error h
  · have hzero := (div_eq_error h).1
    have hprod := mul_eq_ok hdivOp
    have hbalance := hpos balance hmem
    have hlength := List.length_pos_of_mem hmem
    have := Nat.mul_pos hbalance hlength
    omega

/-- A pass of `get_d` has something to divide as long as `d` is positive, and by something as long
as the amplification is twice its precision. -/
theorem nextD_eq_error {aPrecision : ℕ} {balances : List ℕ} {sum ann d : ℕ}
    (hprecision : 0 < aPrecision) (hpos : ∀ x ∈ balances, 0 < x) (hd : 0 < d)
    (h : nextD aPrecision balances sum ann d = .error e) :
    e = .overflow ∨ e = .underflow ∧ ann < aPrecision ∨
      e = .zeroDivisor ∧ ann < 2 * aPrecision := by
  simp only [nextD, bind_eq_error] at h
  rcases h with h | ⟨p, -, h | ⟨_, -, h | ⟨_, -, h | ⟨excess, hexcess, h | ⟨scaled, hscaled,
    h | ⟨quotient, hquotient, h | ⟨t3, ht3, h | ⟨_, -, h | ⟨_, -, h | ⟨_, -, h | ⟨_, -, h⟩⟩⟩⟩⟩⟩⟩⟩⟩⟩⟩
  · exact .inl (prodD_eq_error hpos h)
  · exact .inl (mul_eq_error h)
  · exact .inl (mul_eq_error h)
  · obtain ⟨hlt, rfl⟩ := sub_eq_error h
    exact .inr (.inl ⟨rfl, hlt⟩)
  · exact .inl (mul_eq_error h)
  · exact absurd (div_eq_error h).1 hprecision.ne'
  · exact .inl (add_eq_error h)
  · exact .inl (mul_eq_error h)
  · exact absurd (div_eq_error h).1 hprecision.ne'
  · exact .inl (add_eq_error h)
  · exact .inl (mul_eq_error h)
  · obtain ⟨hzero, rfl⟩ := div_eq_error h
    obtain ⟨hle, rfl⟩ := sub_eq_ok hexcess
    obtain rfl := mul_eq_ok hscaled
    obtain rfl := div_eq_ok hquotient
    have hsum := add_eq_ok ht3
    have hsmall := (Nat.add_eq_zero_iff.mp (hsum.trans hzero)).1
    have hlt : (ann - aPrecision) * d < aPrecision := (Nat.div_eq_zero_iff_lt hprecision).mp hsmall
    have hexcess := (Nat.le_mul_of_pos_right (ann - aPrecision) hd).trans_lt hlt
    have hann : ann < 2 * aPrecision := by omega
    exact .inr (.inr ⟨rfl, hann⟩)

end Stopping

theorem scaled_pos {balances : List ℕ} (hne : balances ≠ []) (hpos : ∀ x ∈ balances, 0 < x) :
    ∀ w ∈ balances.map (· * balances.length), 0 < w := by
  intro w hw
  obtain ⟨x, hx, rfl⟩ := List.mem_map.mp hw
  exact Nat.mul_pos (hpos x hx) (List.length_pos_iff.mpr hne)

theorem nextD_pos {aPrecision : ℕ} {balances : List ℕ} {sum ann d d' : ℕ} (hne : balances ≠ [])
    (hsum : 0 < sum) (hpos : ∀ x ∈ balances, 0 < x) (hd : 0 < d)
    (h : nextD aPrecision balances sum ann d = some d') : 0 < d' := by
  obtain ⟨p, hp, hle, hprecision, hdiv, rfl⟩ := nextD_eq h
  apply Nat.div_pos _ (Nat.pos_of_ne_zero hdiv)
  have hprecision' := Nat.pos_of_ne_zero hprecision
  have hlength := List.length_pos_iff.mpr hne
  have hquotient : ann / aPrecision ≤ ann * sum / aPrecision :=
    Nat.div_le_div_right (Nat.le_mul_of_pos_right ann hsum)
  rcases (show 1 ≤ d from hd).eq_or_lt with heq | htwo
  · -- from one on the product term is one at most
    have hprod := Newton.truncated_mul_prod_le d (balances.map (· * balances.length)) d
    have hscale := List.prod_pos (scaled_pos hne hpos)
    rw [← prodD_eq hp, ← heq, one_pow, one_mul] at hprod
    have hp1 := (Nat.le_mul_of_pos_right p hscale).trans hprod
    have hwhole := Nat.div_eq_sub_div hprecision' hle
    rw [← heq, mul_one, mul_one, Nat.succ_mul, mul_comm balances.length p]
    omega
  · have hlinear : (ann - aPrecision) * d / aPrecision ≤ ann / aPrecision * d := by
      apply Nat.div_le_of_le_mul
      have hlt : ann < aPrecision * (ann / aPrecision) + aPrecision :=
        Nat.lt_mul_div_succ ann hprecision'
      calc (ann - aPrecision) * d ≤ aPrecision * (ann / aPrecision) * d :=
            Nat.mul_le_mul_right d (by omega)
        _ = aPrecision * (ann / aPrecision * d) := Nat.mul_assoc ..
    have hproduct : (balances.length + 1) * p ≤ p * balances.length * d := by
      calc (balances.length + 1) * p ≤ balances.length * 2 * p :=
            Nat.mul_le_mul_right p (by omega)
        _ = p * balances.length * 2 := by ring
        _ ≤ p * balances.length * d := Nat.mul_le_mul_left _ htwo
    rw [Nat.add_mul (ann * sum / aPrecision)]
    exact Nat.add_le_add (hlinear.trans (Nat.mul_le_mul_right d hquotient)) hproduct

namespace Stopping

variable {e : Stop}

theorem nextD_eq_ok {aPrecision : ℕ} {balances : List ℕ} {sum ann d d' : ℕ}
    (h : nextD aPrecision balances sum ann d = .ok d') :
    StableAsset.nextD aPrecision balances sum ann d = some d' := by
  rw [← nextD_toOption, h]
  rfl

theorem sumAndAnn_eq_ok {balances : List ℕ} {a sum ann : ℕ}
    (h : sumAndAnn balances a = .ok (sum, ann)) :
    sum = balances.sum ∧ ann = a * balances.length ^ balances.length := by
  apply sumAndAnn_eq
  rw [← sumAndAnn_toOption, h]
  rfl

/-- Beside an overflow, `get_d` stops only at an amplification below its precision, or on a zero
divisor at one below twice the precision. -/
theorem getD_eq_error {aPrecision : ℕ} {balances : List ℕ} {a : ℕ} (hprecision : 0 < aPrecision)
    (hpos : ∀ x ∈ balances, 0 < x) (h : getD aPrecision balances a = .error e) :
    e = .overflow ∨
      e = .underflow ∧ a * balances.length ^ balances.length < aPrecision ∨
      e = .zeroDivisor ∧ a * balances.length ^ balances.length < 2 * aPrecision := by
  simp only [getD, bind_eq_error] at h
  rcases h with h | ⟨⟨sum, ann⟩, hsum, h⟩
  · exact .inl (sumAndAnn_eq_error h)
  · obtain ⟨rfl, rfl⟩ := sumAndAnn_eq_ok hsum
    split at h
    next => cases h
    next hzero =>
      have hsum := Nat.pos_of_ne_zero hzero
      have hne : balances ≠ [] := by
        rintro rfl
        exact hzero rfl
      simp only [bind_eq_error] at h
      rcases h with h | ⟨⟨d, left⟩, -, h | ⟨_, -, h⟩⟩
      · obtain ⟨d, hd, h⟩ := converge_eq_error (I := (0 < ·))
          (fun x y hx hy _ => nextD_pos hne hsum hpos hx (nextD_eq_ok hy)) hsum h
        exact nextD_eq_error hprecision hpos hd h
      · exact .inl (toU128_eq_error h)
      · cases h

theorem getD_settled {aPrecision : ℕ} {balances : List ℕ} {a D : ℕ} (hne : balances ≠ [])
    (hpos : ∀ x ∈ balances, 0 < x) (h : getD aPrecision balances a = .ok (D, true)) :
    ∃ d, 0 < d ∧ StableAsset.nextD aPrecision balances balances.sum
      (a * balances.length ^ balances.length) d = some D ∧ D ≤ d + 1 ∧ d ≤ D + 1 := by
  simp only [getD, bind_eq_ok] at h
  obtain ⟨⟨sum, ann⟩, hsum, h⟩ := h
  obtain ⟨rfl, rfl⟩ := sumAndAnn_eq_ok hsum
  have hpositive : 0 < balances.sum := List.sum_pos balances hpos hne
  simp only [hpositive.ne', if_false, bind_eq_ok] at h
  obtain ⟨⟨d, left⟩, hconverge, d', hd', h⟩ := h
  cases h
  obtain rfl := (U512.toU128_eq_some.mp (okOr_eq_ok.mp hd')).2
  obtain ⟨y, hy, hnext, hnear⟩ := converge_settled (I := (0 < ·))
    (fun x y hx hxy => nextD_pos hne hpositive hpos hx (nextD_eq_ok hxy)) hpositive hconverge
  exact ⟨y, hy, nextD_eq_ok hnext, hnear⟩

theorem nextY_eq_ok {c b targetD y y' : ℕ} (h : nextY c b targetD y = .ok y') :
    StableAsset.nextY c b targetD y = some y' := by
  rw [← nextY_toOption, h]
  rfl

theorem nextY_eq_error {c b targetD y : ℕ} (hslope : targetD < y * 2 + b)
    (h : nextY c b targetD y = .error e) : e = .overflow := by
  simp only [nextY, bind_eq_error] at h
  rcases h with h | ⟨_, -, h | ⟨_, -, h | ⟨double, hdouble, h | ⟨sum, hsum, h | ⟨slope, hslope',
    h⟩⟩⟩⟩⟩
  · exact mul_eq_error h
  · exact add_eq_error h
  · exact mul_eq_error h
  · exact add_eq_error h
  · obtain rfl := add_eq_ok hsum
    obtain rfl := mul_eq_ok hdouble
    have := (sub_eq_error h).1
    omega
  · obtain rfl := add_eq_ok hsum
    obtain rfl := mul_eq_ok hdouble
    have hsub := sub_eq_ok hslope'
    have := (div_eq_error h).1
    omega

end Stopping

/-- A pass of `get_y` that moves the value by more than one leaves a slope to divide by. -/
theorem nextY_slope {c b targetD y y' : ℕ} (h : nextY c b targetD y = some y')
    (hfar : ¬(y' ≤ y + 1 ∧ y ≤ y' + 1)) : targetD < y' * 2 + b := by
  obtain ⟨hslope, rfl⟩ := nextY_eq h
  rcases lt_trichotomy b targetD with hlt | rfl | hgt
  · have hpos : 0 < y * 2 + b - targetD := by omega
    have hreach : targetD - b ≤ (y * y + c) / (y * 2 + b - targetD) := by
      rw [Nat.le_div_iff_mul_le hpos]
      have hsplit : (targetD - b) + (y * 2 + b - targetD) = 2 * y := by omega
      generalize targetD - b = j at hsplit ⊢
      generalize y * 2 + b - targetD = t at hsplit ⊢
      have hsquare : 4 * (j * t) ≤ 4 * (y * y) := by
        calc 4 * (j * t) = 4 * j * t := by ring
          _ ≤ (j + t) ^ 2 := four_mul_le_sq_add j t
          _ = 4 * (y * y) := by rw [hsplit]; ring
      omega
    omega
  · rcases Nat.eq_zero_or_pos ((y * y + c) / (y * 2 + b - b)) with hzero | hpos
    · have hy : y < 2 := by
        by_contra hge
        have hsquare : y * 2 ≤ y * y := Nat.mul_le_mul_left y (by omega)
        have hpos : 0 < y * 2 + b - b := by omega
        have hlt := (Nat.div_eq_zero_iff_lt hpos).mp hzero
        omega
      omega
    · omega
  · omega

namespace Stopping

variable {e : Stop}

theorem othersOf_eq_error {balances : List ℕ} {tokenIndex targetD amplitude : ℕ}
    (hpos : ∀ x ∈ balances, 0 < x)
    (h : othersOf balances tokenIndex targetD amplitude = .error e) : e = .overflow := by
  obtain ⟨⟨balance, i⟩, hmem, ⟨c, sum, ann⟩, h⟩ := foldlM_eq_error h
  have hbalance := hpos balance (List.fst_mem_of_mem_zipIdx hmem)
  have hlength := List.length_pos_of_mem (List.fst_mem_of_mem_zipIdx hmem)
  simp only [bind_eq_error] at h
  rcases h with h | ⟨_, -, h⟩
  · exact mul_eq_error h
  · split at h
    next => cases h
    next =>
      simp only [bind_eq_error] at h
      rcases h with h | ⟨_, -, h | ⟨divOp, hdivOp, h | ⟨_, -, h | ⟨_, -, h⟩⟩⟩⟩
      · exact add_eq_error h
      · exact mul_eq_error h
      · exact mul_eq_error h
      · have hzero := (div_eq_error h).1
        have hprod := mul_eq_ok hdivOp
        have := Nat.mul_pos hbalance hlength
        omega
      · cases h

theorem othersOf_ann {balances : List ℕ} {tokenIndex targetD amplitude c sum ann : ℕ}
    (h : othersOf balances tokenIndex targetD amplitude = .ok (c, sum, ann)) :
    ann = amplitude * balances.length ^ balances.length := by
  have hfold : (balances.zipIdx 0).foldlM (otherStep balances.length (0 + tokenIndex) targetD)
      (targetD, 0, amplitude) = some (c, sum, ann) := by
    rw [Nat.zero_add]
    exact (othersOf_toOption ..).symm.trans (by rw [h]; rfl)
  exact (others_fold hfold).2.2

theorem coefficients_eq_error {aPrecision : ℕ} {balances : List ℕ}
    {tokenIndex targetD amplitude : ℕ} (hne : balances ≠ []) (hpos : ∀ x ∈ balances, 0 < x)
    (hamplitude : 0 < amplitude)
    (h : coefficients aPrecision balances tokenIndex targetD amplitude = .error e) :
    e = .overflow := by
  have hlength := List.length_pos_iff.mpr hne
  simp only [coefficients, bind_eq_error] at h
  rcases h with h | ⟨⟨c, sum, ann⟩, hothers, h⟩
  · exact othersOf_eq_error hpos h
  · have hann : 0 < ann := by
      rw [othersOf_ann hothers]
      positivity
    dsimp only at h
    rcases h with h | ⟨_, -, h | ⟨_, -, h | ⟨divOp, hdivOp, h | ⟨_, -, h | ⟨_, -, h | ⟨_, -,
      h | ⟨_, -, h⟩⟩⟩⟩⟩⟩⟩
    · exact mul_eq_error h
    · exact mul_eq_error h
    · exact mul_eq_error h
    · have hzero := (div_eq_error h).1
      have hprod := mul_eq_ok hdivOp
      have := Nat.mul_pos hann hlength
      omega
    · exact mul_eq_error h
    · have hzero := (div_eq_error h).1
      omega
    · exact add_eq_error h
    · cases h

theorem getY_eq_error {aPrecision : ℕ} {balances : List ℕ} {tokenIndex targetD amplitude : ℕ}
    (hne : balances ≠ []) (hpos : ∀ x ∈ balances, 0 < x) (hamplitude : 0 < amplitude)
    (hd : 0 < targetD)
    (h : getY aPrecision balances tokenIndex targetD amplitude = .error e) : e = .overflow := by
  simp only [getY, bind_eq_error] at h
  rcases h with h | ⟨⟨c, b⟩, -, h | ⟨⟨y, left⟩, -, h | ⟨_, -, h⟩⟩⟩
  · exact coefficients_eq_error hne hpos hamplitude h
  · obtain ⟨y, hy, h⟩ := converge_eq_error (I := fun y => targetD < y * 2 + b)
      (fun x y _ hy hfar => nextY_slope (nextY_eq_ok hy) hfar) (by omega) h
    exact nextY_eq_error hy h
  · exact toU128_eq_error h
  · cases h

end Stopping

end Bifrost.StableAsset
