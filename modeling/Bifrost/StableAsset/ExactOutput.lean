import Bifrost.StableAsset.Solvers
import Bifrost.StableAsset.Supply

/-!
# Quotes for an exact output

`get_swap_amount_exact` against `get_swap_amount`. The two solve for one balance each, and their
roundings need not agree; `SwapExactOverAmount` is added to the input to make up for that.
-/

namespace Bifrost.StableAsset

open Machine Result
set_option autoImplicit false

/-! ## What the quote reads off the curve -/

section Curve

variable {aPrecision a d y y' X i j rest : ℕ} {balances : List ℕ} {margin : ℝ}

/-- The exact input for the output is `near` at least, and `far` at most for four units more; a
margin covers the difference, and what the roundings of the constant take of the first. -/
def MarginCovers (aPrecision a d : ℕ) (balances : List ℕ) (i j rest : ℕ) (margin : ℝ) : Prop :=
  4 < rest ∧ ∃ near far : ℝ, 0 < near ∧ 0 < far ∧
    AtMost (annOf aPrecision a balances.length)
      ((exactBalances (balances.set j rest)).set i near) d ∧
    AtLeast (annOf aPrecision a balances.length)
      (((exactBalances balances).set j (rest - 4)).set i far) d ∧
    far + 1 + (curveConstant (annOf aPrecision a balances.length) balances.length
        (exactBalances ((balances.set j rest).eraseIdx i)) d
        * (lossOf balances.length ((balances.set j rest).eraseIdx i) d / d) + 1) / near
      ≤ near + margin

theorem exactBalances_set (balances : List ℕ) (i x : ℕ) :
    exactBalances (balances.set i x) = (exactBalances balances).set i (x : ℝ) :=
  List.map_set ..

theorem set_pos {x : ℕ} (hpos : ∀ x ∈ balances, 0 < x) (hx : 0 < x) (i : ℕ) :
    ∀ z ∈ balances.set i x, 0 < z := by
  intro z hz
  rcases List.mem_or_eq_of_mem_set hz with hz | rfl
  · exact hpos z hz
  · exact hx

theorem exact_erase_pos (hpos : ∀ x ∈ balances, 0 < x) (i : ℕ) :
    ∀ x ∈ (exactBalances balances).eraseIdx i, 0 < x :=
  fun x hx => exactBalances_pos hpos x (List.mem_of_mem_eraseIdx hx)

theorem exact_set_pos {x : ℝ} (hpos : ∀ x ∈ balances, 0 < x) (hx : 0 < x) (i j : ℕ) :
    ∀ z ∈ ((exactBalances balances).set i x).eraseIdx j, 0 < z := by
  intro z hz
  rcases List.mem_or_eq_of_mem_set (List.mem_of_mem_eraseIdx hz) with hz | rfl
  · exact exactBalances_pos hpos z hz
  · exact hx

/-- What the input side solves for, with the margin, reaches the exact input for four units more;
the margin is at least one. -/
theorem MarginCovers.far_le (h : MarginCovers aPrecision a d balances i j rest margin)
    (hprecision : 0 < aPrecision) (ha : 0 < a) (hi : i < balances.length)
    (hj : j < balances.length) (hij : i ≠ j) (hpos : ∀ x ∈ balances, 0 < x) (hd : 0 < d)
    (hd' : d ≤ u128Max) (hy : getY aPrecision (balances.set j rest) i d a = some y) :
    1 ≤ margin ∧ ∃ far : ℝ, 0 < far ∧ far ≤ y + margin ∧
      AtLeast (annOf aPrecision a balances.length)
        (((exactBalances balances).set j (rest - 4)).set i far) d := by
  obtain ⟨hrest, near, far, hnear, hfar, hmost, hleast, hcover⟩ := h
  have hpos' := set_pos hpos (by omega : 0 < rest) j
  have hi' : i < (balances.set j rest).length := by rwa [List.length_set]
  have hothers : ∀ x ∈ (balances.set j rest).eraseIdx i, 0 < x :=
    fun x hx => hpos' x (List.mem_of_mem_eraseIdx hx)
  have hann := annOf_pos hprecision ha (Nat.zero_lt_of_lt hi)
  have hdR : (0 : ℝ) < d := by exact_mod_cast hd
  obtain ⟨r, hr, hroot⟩ := (solvesY hprecision ha hpos' hi' hd hd').root
  have hbound := (getY_bounds hprecision ha hi' hothers hd hd' hy hr hroot).2
  rw [List.length_set] at hroot hbound
  have hle := hmost.le_root hann (by simpa using hi') (exact_erase_pos hpos' i) hdR hr hroot
  have hconstant := curveConstant_pos hann (Nat.zero_lt_of_lt hi) (exactBalances_pos hothers) hdR
  have hloss : 0 ≤ lossOf balances.length ((balances.set j rest).eraseIdx i) d :=
    Newton.loss_nonneg hdR _
  have hshort : (curveConstant (annOf aPrecision a balances.length) balances.length
        (exactBalances ((balances.set j rest).eraseIdx i)) d
        * (lossOf balances.length ((balances.set j rest).eraseIdx i) d / d) + 1) / r
      ≤ (curveConstant (annOf aPrecision a balances.length) balances.length
        (exactBalances ((balances.set j rest).eraseIdx i)) d
        * (lossOf balances.length ((balances.set j rest).eraseIdx i) d / d) + 1) / near := by
    gcongr
  have hnonneg : 0 ≤ (curveConstant (annOf aPrecision a balances.length) balances.length
        (exactBalances ((balances.set j rest).eraseIdx i)) d
        * (lossOf balances.length ((balances.set j rest).eraseIdx i) d / d) + 1) / near := by
    positivity
  -- with four units more left in the pool, `far` is still enough
  have hrestR : (0 : ℝ) < rest - 4 := by
    have : (4 : ℝ) < rest := by exact_mod_cast hrest
    linarith
  have hstill := hleast
  rw [List.set_comm _ _ hij.symm] at hstill
  have hmore := hstill.mono hann (by simpa using hj) (exact_set_pos hpos hfar i j) hdR hrestR
    (by linarith : (rest : ℝ) - 4 ≤ rest)
  rw [List.set_comm _ _ hij, ← exactBalances_set] at hmore
  have hroot_le := hmore.root_le hann (by simpa using hi') (exact_erase_pos hpos' i) hdR hfar hroot
  exact ⟨by linarith, far, hfar, by linarith, hleast⟩

/-- From an input that the exact curve pays four units more for, the output side leaves what it has
to pay. -/
theorem getY_lt_rest (hprecision : 0 < aPrecision) (ha : 0 < a) (hi : i < balances.length)
    (hj : j < balances.length) (hij : i ≠ j) (hpos : ∀ x ∈ balances, 0 < x) (hd : 0 < d)
    (hd' : d ≤ u128Max) (hrest : 4 < rest) {far : ℝ} (hfar : 0 < far) (hX : far ≤ X)
    (hleast : AtLeast (annOf aPrecision a balances.length)
      (((exactBalances balances).set j (rest - 4)).set i far) d)
    (hy : getY aPrecision (balances.set i X) j d a = some y') : y' < rest := by
  have hXpos : 0 < X := by exact_mod_cast hfar.trans_le hX
  have hpos' := set_pos hpos hXpos i
  have hj' : j < (balances.set i X).length := by rwa [List.length_set]
  have hann := annOf_pos hprecision ha (Nat.zero_lt_of_lt hi)
  have hdR : (0 : ℝ) < d := by exact_mod_cast hd
  have hrestR : (0 : ℝ) < rest - 4 := by
    have : (4 : ℝ) < rest := by exact_mod_cast hrest
    linarith
  obtain ⟨r, hr, hroot⟩ := (solvesY hprecision ha hpos' hj' hd hd').root
  have hbound := (getY_bounds hprecision ha hj'
    (fun x hx => hpos' x (List.mem_of_mem_eraseIdx hx)) hd hd' hy hr hroot).1
  rw [List.length_set] at hroot
  have hmore := hleast.mono hann (by simpa using hi) (exact_set_pos hpos hrestR j i) hdR hfar hX
  rw [List.set_comm _ _ hij.symm, ← exactBalances_set] at hmore
  have hle := hmore.root_le hann (by simpa using hj') (exact_erase_pos hpos' j) hdR hrestR hroot
  have : (y' : ℝ) < rest := by linarith
  exact_mod_cast this

end Curve

/-! ## What the fee leaves -/

theorem le_sub_fee {dy fee precision paid : ℕ} (hfee : fee < precision)
    (hpaid : dy * precision / (precision - fee) ≤ paid) :
    dy ≤ paid - paid * fee / precision := by
  have hprecision : 0 < precision := Nat.zero_lt_of_lt hfee
  obtain ⟨g, rfl⟩ := Nat.exists_eq_add_of_lt hfee
  rw [show fee + g + 1 - fee = g + 1 by omega] at hpaid
  have hlt := Nat.lt_mul_div_succ (dy * (fee + g + 1)) (Nat.succ_pos g)
  have hbefore : dy * (fee + g + 1) < (g + 1) * (paid + 1) :=
    hlt.trans_le (Nat.mul_le_mul_left _ (Nat.succ_le_succ hpaid))
  have hle : dy ≤ paid := by
    have hwide : (g + 1) * (paid + 1) ≤ (fee + g + 1) * (paid + 1) :=
      Nat.mul_le_mul_right _ (by omega)
    rw [Nat.mul_comm dy] at hbefore
    exact Nat.le_of_lt_succ (Nat.lt_of_mul_lt_mul_left (hbefore.trans_le hwide))
  obtain ⟨k, rfl⟩ := Nat.exists_eq_add_of_le hle
  have hfees : (dy + k) * fee / (fee + g + 1) < k + 1 := by
    rw [Nat.div_lt_iff_lt_mul hprecision]
    linarith [show dy * (fee + g + 1) = dy * fee + (g + 1) * dy by ring,
      show (g + 1) * (dy + k + 1) = (g + 1) * dy + (g + 1) * (k + 1) by ring,
      show (dy + k) * fee = dy * fee + k * fee by ring,
      show (k + 1) * (fee + g + 1) = k * fee + fee + (g + 1) * (k + 1) by ring]
  omega

section Quotes

variable {AccountId : Type} {cfg : Config AccountId} {s : State cfg} {info : PoolInfo AccountId}
  {overAmount i j dy dx : ℕ} {r r' : SwapResult}

theorem beforeSwapFee_eq {swapFee paid : ℕ} (h : beforeSwapFee cfg swapFee dy = some paid) :
    (swapFee = 0 ∧ paid = dy) ∨
      0 < swapFee ∧ swapFee < cfg.feePrecision ∧
        paid = dy * cfg.feePrecision / (cfg.feePrecision - swapFee) := by
  unfold beforeSwapFee at h
  split at h
  next hfee =>
    simp only [Option.bind_eq_bind, Option.bind_eq_some_iff, U128.checkedSub_eq_some,
      U128.mulDiv_eq_some] at h
    obtain ⟨_, ⟨hle, rfl⟩, hpos, rfl, -⟩ := h
    exact .inr ⟨hfee, by omega, rfl⟩
  next hfee =>
    cases h
    exact .inl ⟨by omega, rfl⟩

theorem le_of_paid {swapFee paid out : ℕ} (h : beforeSwapFee cfg swapFee dy = some paid)
    (hle : paid ≤ out) (hout : out ≤ u128Max) :
    ∃ fee, feeOn cfg swapFee out = .ok fee ∧ fee ≤ out ∧ dy ≤ out - fee := by
  rcases beforeSwapFee_eq h with ⟨rfl, rfl⟩ | ⟨hpos, hlt, rfl⟩
  · exact ⟨0, rfl, Nat.zero_le _, hle⟩
  · have hfee : out * swapFee / cfg.feePrecision ≤ out := by
      apply Nat.div_le_of_le_mul
      rw [Nat.mul_comm]
      exact Nat.mul_le_mul_right _ hlt.le
    refine ⟨out * swapFee / cfg.feePrecision, ?_, hfee, le_sub_fee hlt hle⟩
    rw [feeOn, if_pos hpos, okOr_eq_ok, U128.mulDiv_eq_some]
    exact ⟨Nat.zero_lt_of_lt hlt, rfl, hfee.trans hout⟩

theorem getSwapAmountExact_eq (h : getSwapAmountExact s info overAmount i j dy = some r) :
    ∃ balances d a balanceIn precisionIn balanceOut precisionOut paid y,
      s.Valued info balances d ∧ s.currentA info = .ok a ∧ i ≠ j ∧ 0 < dy ∧
      balances[i]? = some balanceIn ∧ info.precisions[i]? = some precisionIn ∧
      balances[j]? = some balanceOut ∧ info.precisions[j]? = some precisionOut ∧
      beforeSwapFee cfg info.swapFee dy = some paid ∧ paid * precisionOut ≤ balanceOut ∧
      getY cfg.aPrecision (balances.set j (balanceOut - paid * precisionOut)) i d a = some y ∧
      balanceIn < y ∧ 0 < precisionIn ∧ r.dx = (y - balanceIn - 1) / precisionIn + overAmount := by
  rw [getSwapAmountExact, Option.bind_eq_bind, Option.bind_eq_some_iff] at h
  obtain ⟨_, hrefresh, h⟩ := h
  obtain ⟨balances, d, hvalued, rfl⟩ := refresh_ok.mp (toOption_eq_some.mp hrefresh)
  split at h
  next => cases h
  next hargs =>
    simp only [Option.bind_eq_bind, Option.bind_eq_some_iff, U128.checkedMul_eq_some,
      U128.checkedSub_eq_some, U128.checkedDiv_eq_some, U128.checkedAdd_eq_some, Option.pure_def,
      Option.some_inj] at h
    obtain ⟨bi, hbi, pi, hpi, bj, hbj, pj, hpj, paid, hpaid, a, ha, _, ⟨rfl, -⟩, _, ⟨htaken, rfl⟩,
      y, hy, _, ⟨hle, rfl⟩, _, ⟨hone, rfl⟩, _, ⟨hprecision, rfl⟩, _, ⟨rfl, -⟩, rfl⟩ := h
    have hcurrent : s.currentA info = .ok a := okOr_eq_ok.mpr ha
    exact ⟨balances, d, a, bi, pi, bj, pj, paid, y, hvalued, hcurrent, fun h => hargs (.inl h),
      by omega, hbi, hpi, hbj, hpj, hpaid, htaken, hy, by omega, hprecision, rfl⟩

theorem mapM_getElem? {α β : Type} {f : α → Option β} {l : List α} {bs : List β}
    (h : l.mapM f = some bs) (k : ℕ) : bs[k]? = l[k]?.bind f := by
  induction l generalizing bs k with
  | nil =>
    cases h
    rfl
  | cons x l ih =>
    simp only [List.mapM_cons, Option.bind_eq_bind, Option.bind_eq_some_iff, Option.pure_def,
      Option.some_inj] at h
    obtain ⟨y, hy, ys, hys, rfl⟩ := h
    cases k with
    | zero => exact hy.symm
    | succ k => exact ih hys k

theorem Valued.balance {balances : List ℕ} {d k balance precision : ℕ}
    (h : s.Valued info balances d) (hbalance : balances[k]? = some balance)
    (hprecision : info.precisions[k]? = some precision) :
    balance ≤ u128Max ∧ (precision = 0 → balance = 0) := by
  rw [mapM_getElem? h.1, Option.bind_eq_some_iff] at hbalance
  obtain ⟨⟨asset, precision'⟩, hzip, hbalance⟩ := hbalance
  obtain ⟨-, hprecision'⟩ := List.getElem?_zip_eq_some.mp hzip
  obtain rfl : precision' = precision := Option.some_inj.mp (hprecision'.symm.trans hprecision)
  simp only [State.balanceOf] at hbalance
  split at hbalance
  all_goals
    simp only [Option.bind_eq_bind, Option.bind_eq_some_iff, U128.checkedMul_eq_some] at hbalance
    obtain ⟨_, -, rfl, hle⟩ := hbalance
    exact ⟨hle, fun hzero => by rw [hzero, Nat.mul_zero]⟩

theorem getSwapAmount_eq {balances : List ℕ} {d a balanceIn precisionIn balanceOut precisionOut
    y fee : ℕ} (hvalued : s.Valued info balances d) (ha : s.currentA info = .ok a) (hij : i ≠ j)
    (hdx : 0 < dx) (hbi : balances[i]? = some balanceIn)
    (hpi : info.precisions[i]? = some precisionIn) (hbj : balances[j]? = some balanceOut)
    (hpj : info.precisions[j]? = some precisionOut) (hprecision : 0 < precisionOut)
    (hin : balanceIn + dx * precisionIn ≤ u128Max)
    (hy : getY cfg.aPrecision (balances.set i (balanceIn + dx * precisionIn)) j d a = some y)
    (hlt : y < balanceOut)
    (hfee : feeOn cfg info.swapFee ((balanceOut - y - 1) / precisionOut) = .ok fee)
    (hle : fee ≤ (balanceOut - y - 1) / precisionOut) :
    getSwapAmount s info i j dx = .ok ⟨dx, (balanceOut - y - 1) / precisionOut - fee, y,
      balanceIn + dx * precisionIn⟩ := by
  have hrefresh := refresh_ok.mpr ⟨balances, d, hvalued, rfl⟩
  have hbalance := (Valued.balance hvalued hbj hpj).1
  have hpaid : paidOut balanceOut y precisionOut = .ok ((balanceOut - y - 1) / precisionOut) := by
    simp only [paidOut, bind_eq_ok, okOr_eq_ok, U128.checkedSub_eq_some, U128.checkedDiv_eq_some]
    exact ⟨_, ⟨hlt.le, rfl⟩, _, ⟨by omega, rfl⟩, hprecision, rfl⟩
  simp only [getSwapAmount, bind_eq_ok, ensure_eq_ok, okOr_eq_ok, pure_eq_ok,
    Option.bind_eq_some_iff, U128.checkedMul_eq_some, U128.checkedAdd_eq_some,
    U128.checkedSub_eq_some]
  exact ⟨_, hrefresh, ⟨⟩, hij, ⟨⟩, hdx, _, hbi, _, hpi, _, hbj, _, hpj, a, ha, _,
    ⟨_, ⟨rfl, by omega⟩, rfl, hin⟩, y, hy, _, hpaid, fee, hfee, _, ⟨hle, rfl⟩, rfl⟩

/-- `SwapExactOverAmount`, beyond the unit that the division takes, covers the roundings of a quote
and the exact input for four units more. -/
def CoversRounding (s : State cfg) (info : PoolInfo AccountId) (overAmount i j dy : ℕ) : Prop :=
  ∀ balances d a precisionIn balanceOut precisionOut paid, s.Valued info balances d →
    s.currentA info = .ok a → info.precisions[i]? = some precisionIn →
    balances[j]? = some balanceOut → info.precisions[j]? = some precisionOut →
    beforeSwapFee cfg info.swapFee dy = some paid →
    MarginCovers cfg.aPrecision a d balances i j (balanceOut - paid * precisionOut)
      (((overAmount : ℝ) - 1) * precisionIn)

/-- A number of the swap, or of its solver, does not fit its type. -/
def SwapOverflows (s : State cfg) (info : PoolInfo AccountId) (i j dx : ℕ) : Prop :=
  ∃ balances d a balanceIn precisionIn, s.Valued info balances d ∧ s.currentA info = .ok a ∧
    balances[i]? = some balanceIn ∧ info.precisions[i]? = some precisionIn ∧
    (u128Max < balanceIn + dx * precisionIn ∨
      Stopping.getY cfg.aPrecision (balances.set i (balanceIn + dx * precisionIn)) j d a
        = .error .overflow)

/-- The quote for an exact output suffices where its margin covers the roundings: the swap pays the
output, unless a number overflows. -/
theorem exact_quote_suffices (hcovers : CoversRounding s info overAmount i j dy)
    (hquote : getSwapAmountExact s info overAmount i j dy = some r) :
    (∃ r', getSwapAmount s info i j r.dx = .ok r' ∧ dy ≤ r'.dy) ∨
      SwapOverflows s info i j r.dx := by
  obtain ⟨balances, d, a, bi, pi, bj, pj, paid, y, hvalued, ha, hij, hdy, hbi, hpi, hbj, hpj, hpaid,
    htaken, hy, hlt, hprecision, hdx⟩ := getSwapAmountExact_eq hquote
  have hmargin := hcovers balances d a pi bj pj paid hvalued ha hpi hbj hpj hpaid
  have hrest := hmargin.1
  obtain ⟨hi, -⟩ := List.getElem?_eq_some_iff.mp hbi
  obtain ⟨hj, -⟩ := List.getElem?_eq_some_iff.mp hbj
  obtain ⟨hmax, hzero⟩ := Valued.balance hvalued hbj hpj
  have hpj0 : 0 < pj := Nat.pos_of_ne_zero fun h => by
    have := hzero h
    omega
  have hgetD : getD cfg.aPrecision balances a = some d := by
    have h := hvalued.2
    rw [State.invariantOf, ha] at h
    exact okOr_eq_ok.mp h
  have hsum : 0 < balances.sum := by
    have := List.single_le_sum (fun x _ => Nat.zero_le x) bj (List.mem_of_getElem? hbj)
    omega
  obtain ⟨haPrecision, hpos, hd⟩ := getD_pos hsum hgetD
  have hd' := (getD_eq hsum hgetD).2
  have ha0 : 0 < a := by
    obtain ⟨c, b, hcoefficients, -⟩ := getY_eq hy
    exact (coefficients_pos hcoefficients).2
  obtain ⟨hone, far, hfar, hreach, hleast⟩ :=
    hmargin.far_le haPrecision ha0 hi hj hij hpos hd hd' hy
  -- the input that the quote asks for
  have hX : far ≤ ((bi + r.dx * pi : ℕ) : ℝ) := by
    have hquotient : y ≤ bi + pi * ((y - bi - 1) / pi) + pi := by
      have := Nat.lt_mul_div_succ (y - bi - 1) hprecision
      rw [Nat.mul_succ] at this
      omega
    have hquotientR : (y : ℝ) ≤ bi + pi * ((y - bi - 1) / pi : ℕ) + pi := by
      exact_mod_cast hquotient
    rw [hdx]
    push_cast at hquotientR ⊢
    linarith
  have hover : 0 < overAmount := by
    by_contra hzero
    obtain rfl : overAmount = 0 := by omega
    have : (0 : ℝ) ≤ pi := Nat.cast_nonneg pi
    push_cast at hone
    linarith
  rcases lt_or_ge u128Max (bi + r.dx * pi) with hbig | hin
  · exact .inr ⟨balances, d, a, bi, pi, hvalued, ha, hbi, hpi, .inl hbig⟩
  have hXpos : 0 < bi + r.dx * pi := by exact_mod_cast hfar.trans_le hX
  cases hsolve : getY cfg.aPrecision (balances.set i (bi + r.dx * pi)) j d a with
  | none =>
    have hstop := (solvesY haPrecision ha0 (set_pos hpos hXpos i)
      (by rwa [List.length_set]) hd hd').stops hsolve
    exact .inr ⟨balances, d, a, bi, pi, hvalued, ha, hbi, hpi, .inr hstop⟩
  | some y' =>
    have hy' := getY_lt_rest haPrecision ha0 hi hj hij hpos hd hd' hrest hfar hX hleast hsolve
    have hpaid' : paid ≤ (bj - y' - 1) / pj := by
      rw [Nat.le_div_iff_mul_le hpj0]
      omega
    have hout : (bj - y' - 1) / pj ≤ u128Max := (Nat.div_le_self _ _).trans (by omega)
    obtain ⟨fee, hfee, hfeele, hle⟩ := le_of_paid hpaid hpaid' hout
    have hdx0 : 0 < r.dx := by
      rw [hdx]
      exact Nat.add_pos_right _ hover
    have hswap := getSwapAmount_eq hvalued ha hij hdx0 hbi hpi hbj hpj hpj0 hin hsolve (by omega)
      hfee hfeele
    exact .inl ⟨_, hswap, hle⟩

end Quotes

namespace Sample

/-- Accounts that hold ten million of everything, and a pool of balances far apart. -/
def rich : State config :=
  genesis config ⟨fun _ who => if who < 10 then 10000000 else 0, fun _ => 0⟩ 1

def lopsided : List (Call config) :=
  [created [1, 1, 1, 1] 100, .operate 1 0 (.mint [15430, 2187490, 2, 8] 0)]

/-- The first pool, as its first mint leaves it. -/
def pool (precisions balances : List ℕ) (totalSupply a : ℕ) : PoolInfo ℕ where
  poolId := 0
  poolAsset := lpToken
  assets := tokens precisions.length
  precisions := precisions
  mintFee := 0
  swapFee := 0
  redeemFee := 0
  totalSupply := totalSupply
  a := a
  aBlock := 1
  futureA := a
  futureABlock := 1
  balances := balances
  feeRecipient := 100
  accountId := 1000
  yieldRecipient := 101

def balanced : PoolInfo ℕ := pool [1, 1] [100000, 100000] 200000 1000

theorem balanced_margin : MarginCovers 100 1000 200000 [100000, 100000] 0 1 99000 99 := by
  refine ⟨by decide, 101000, 101010, by norm_num, by norm_num, ?_, ?_, ?_⟩
  · norm_num [AtMost, annOf, exactBalances, productTerm]
  · norm_num [AtLeast, annOf, exactBalances, productTerm]
  · norm_num [annOf, exactBalances, curveConstant, lossOf, Newton.loss]

theorem balanced_covers : CoversRounding (run step start minted) balanced 100 0 1 1000 := by
  rintro balances d a pi bj pj paid ⟨hbalances, hd⟩ ha hpi hbj hpj hpaid
  have hcurrent : (run step start minted).currentBalances balanced = some [100000, 100000] := by
    decide +kernel
  obtain rfl := Option.some_inj.mp (hcurrent.symm.trans hbalances)
  have hgetA : getA (run step start minted).blockNumber 1000 1 1000 1 = some 1000 := by
    decide +kernel
  obtain rfl := Option.some_inj.mp (hgetA.symm.trans (okOr_eq_ok.mp ha))
  have hgetD : getD config.aPrecision [100000, 100000] 1000 = some 200000 := by decide +kernel
  simp only [State.invariantOf, bind_eq_ok, okOr_eq_ok] at hd
  obtain ⟨_, ha', hd⟩ := hd
  obtain rfl := Except.ok.inj (ha.symm.trans ha')
  rw [hgetD] at hd
  obtain rfl := Option.some_inj.mp hd
  cases hpi
  cases hbj
  cases hpj
  cases hpaid
  have h := balanced_margin
  norm_num
  exact h

end Sample

theorem exact_quote_suffices_balanced :
    let s := run step Sample.start Sample.minted
    s.pools 0 = some Sample.balanced ∧
      ((∃ r', getSwapAmount s Sample.balanced 0 1 1099 = .ok r' ∧ 1000 ≤ r'.dy) ∨
        SwapOverflows s Sample.balanced 0 1 1099) := by
  have hquote :
      getSwapAmountExact (run step Sample.start Sample.minted) Sample.balanced 100 0 1 1000
        = some ⟨1099, 1000, 101000, 100000⟩ := by decide +kernel
  have hsuffices := exact_quote_suffices Sample.balanced_covers hquote
  dsimp only at hsuffices
  exact ⟨by decide +kernel, hsuffices⟩

/-- A pool of balances far apart: the input quoted for seven pays six, for all the margin of a
hundred. -/
theorem exact_quote_falls_short :
    let s := run step Sample.rich Sample.lopsided
    let info := Sample.pool [1, 1, 1, 1] [15430, 2187490, 2, 8] 37819 100
    s.pools 0 = some info ∧
      getSwapAmountExact s info 100 0 3 7 = some ⟨103284, 7, 118615, 15430⟩ ∧
      getSwapAmount s info 0 3 103284 = .ok ⟨103284, 6, 1, 118714⟩ := by
  decide +kernel

end Bifrost.StableAsset
