import Bifrost.StableAsset.ExactOutput

/-!
# What a swap and a redemption leave in a pool

`get_y` may end below the exact balance of the asset that is paid out. What the fee keeps back makes
up for that, and then the pool is worth no less than the supply the swap has found. A redemption of
a share of everything leaves no less for each unit of the supply.
-/

namespace Bifrost.StableAsset

open Machine Result
set_option autoImplicit false

section Rounding

variable {aPrecision a d y left j : ℕ} {balances : List ℕ}

/-- What is left above the balance that was solved for, and one unit more, covers what the roundings
of the constant take; the exact balance is `near` at least. -/
def RoundingCovered (aPrecision a d : ℕ) (balances : List ℕ) (j y left : ℕ) : Prop :=
  ∃ near : ℝ, 0 < near ∧
    AtMost (annOf aPrecision a balances.length) ((exactBalances balances).set j near) d ∧
    (curveConstant (annOf aPrecision a balances.length) balances.length
        (exactBalances (balances.eraseIdx j)) d
        * (lossOf balances.length (balances.eraseIdx j) d / d) + 1) / near ≤ left - y - 1

theorem RoundingCovered.atLeast (h : RoundingCovered aPrecision a d balances j y left)
    (hprecision : 0 < aPrecision) (ha : 0 < a) (hj : j < balances.length)
    (hpos : ∀ x ∈ balances, 0 < x) (hd : 0 < d) (hd' : d ≤ u128Max)
    (hy : getY aPrecision balances j d a = some y) :
    AtLeast (annOf aPrecision a balances.length) (exactBalances (balances.set j left)) d := by
  obtain ⟨near, hnear, hmost, hcovers⟩ := h
  have hann := annOf_pos hprecision ha (Nat.zero_lt_of_lt hj)
  have hothers : ∀ x ∈ balances.eraseIdx j, 0 < x :=
    fun x hx => hpos x (List.mem_of_mem_eraseIdx hx)
  have hdR : (0 : ℝ) < d := by exact_mod_cast hd
  obtain ⟨root, hroot0, hroot⟩ := (solvesY hprecision ha hpos hj hd hd').root
  have hbelow := (getY_bounds hprecision ha hj hothers hd hd' hy hroot0 hroot).2
  have hle := hmost.le_root hann (by simpa using hj) (exact_erase_pos hpos j) hdR hroot0 hroot
  have hconstant := curveConstant_pos hann (Nat.zero_lt_of_lt hj) (exactBalances_pos hothers) hdR
  have hloss : 0 ≤ lossOf balances.length (balances.eraseIdx j) d := Newton.loss_nonneg hdR _
  have hshort : (curveConstant (annOf aPrecision a balances.length) balances.length
        (exactBalances (balances.eraseIdx j)) d
        * (lossOf balances.length (balances.eraseIdx j) d / d) + 1) / root
      ≤ left - y - 1 := by
    refine le_trans ?_ hcovers
    gcongr
  have hexact : AtLeast (annOf aPrecision a balances.length)
      ((exactBalances balances).set j root) d := hroot.ge
  rw [exactBalances_set]
  exact hexact.mono hann (by simpa using hj) (exact_erase_pos hpos j) hdR hroot0 (by linarith)

/-- Of each balance a part `t` or more is left. -/
theorem OnCurve.rests {ann D t : ℝ} {rests : List ℕ} (h : OnCurve ann (exactBalances balances) D)
    (hann : 0 ≤ ann) (ht : 0 < t) (hD : 0 < D) (hne : balances ≠ [])
    (hpos : ∀ x ∈ balances, 0 < x) (hlength : rests.length = balances.length)
    (hrests : ∀ e ∈ balances.zip rests, t * (e.1 : ℝ) ≤ e.2) :
    AtLeast ann (exactBalances rests) (t * D) := by
  have hscaled : (exactBalances balances).map (t * ·) =
      (balances.zip rests).map fun e => t * (e.1 : ℝ) := by
    calc (exactBalances balances).map (t * ·)
        = balances.map fun x : ℕ => t * (x : ℝ) := List.map_map
      _ = ((balances.zip rests).map Prod.fst).map fun x : ℕ => t * (x : ℝ) := by
          rw [List.map_fst_zip hlength.ge]
      _ = (balances.zip rests).map fun e => t * (e.1 : ℝ) := List.map_map
  have hleft : exactBalances rests = (balances.zip rests).map fun e => (e.2 : ℝ) := by
    calc exactBalances rests
        = ((balances.zip rests).map Prod.snd).map Nat.cast := by
          rw [List.map_snd_zip hlength.le, exactBalances]
      _ = (balances.zip rests).map fun e => (e.2 : ℝ) := List.map_map
  have hleast := (h.scale ht).ge
  rw [hscaled] at hleast
  rw [hleft]
  refine AtLeast.of_le hleast hann (by positivity) ?_ ?_ hrests
  · rw [← List.length_pos_iff, List.length_zip, hlength, Nat.min_self]
    exact List.length_pos_iff.mpr hne
  · intro e he
    have : 0 < e.1 := hpos e.1 (List.of_mem_zip he).1
    positivity

theorem getD_sum_pos (hd : 0 < d) (h : getD aPrecision balances a = some d) :
    0 < balances.sum := by
  by_contra hzero
  simp only [getD, Option.bind_eq_bind, Option.bind_eq_some_iff] at h
  obtain ⟨⟨sum, ann⟩, hsum, h⟩ := h
  obtain ⟨rfl, -⟩ := sumAndAnn_eq hsum
  rw [if_pos (by omega)] at h
  cases h
  omega

end Rounding

theorem mapM_length {α β : Type} {f : α → Option β} {l : List α} {bs : List β}
    (h : l.mapM f = some bs) : l.length = bs.length := by
  induction l generalizing bs with
  | nil =>
    cases h
    rfl
  | cons x l ih =>
    simp only [List.mapM_cons, Option.bind_eq_bind, Option.bind_eq_some_iff, Option.pure_def,
      Option.some_inj] at h
    obtain ⟨y, -, ys, hys, rfl⟩ := h
    exact congrArg (· + 1) (ih hys)

variable {AccountId : Type} {cfg : Config AccountId} {s : State cfg} {info : PoolInfo AccountId}
  {i j dx d a : ℕ} {balances : List ℕ} {r : SwapResult}

theorem Valued.getD_eq (hvalued : s.Valued info balances d) (ha : s.currentA info = .ok a) :
    getD cfg.aPrecision balances a = some d := by
  have h := hvalued.2
  rw [State.invariantOf, ha] at h
  exact okOr_eq_ok.mp h

/-- The balances of the pool once the input is in and the output is paid. -/
def SwapResult.leaves (r : SwapResult) (info : PoolInfo AccountId) (balances : List ℕ)
    (i j : ℕ) : List ℕ :=
  (balances.set i r.balanceI).set j (balances.getD j 0 - r.dy * info.precisions.getD j 0)

theorem getSwapAmount_ok (hvalued : s.Valued info balances d) (ha : s.currentA info = .ok a)
    (h : getSwapAmount s info i j dx = .ok r) :
    ∃ balanceOut precisionOut, balances[j]? = some balanceOut ∧
      info.precisions[j]? = some precisionOut ∧ (∃ x ∈ balances, x ≤ r.balanceI) ∧
      getY cfg.aPrecision (balances.set i r.balanceI) j d a = some r.y ∧
      r.y + r.dy * precisionOut < balanceOut := by
  rw [getSwapAmount, bind_eq_ok] at h
  obtain ⟨_, hrefresh, h⟩ := h
  obtain ⟨balances', d', ⟨hbalances, hd⟩, rfl⟩ := refresh_ok.mp hrefresh
  obtain rfl := Option.some_inj.mp (hbalances.symm.trans hvalued.1)
  obtain rfl := Except.ok.inj (hd.symm.trans hvalued.2)
  simp only [bind_eq_ok, ensure_eq_ok, okOr_eq_ok, pure_eq_ok, paidOut, Option.bind_eq_some_iff,
    U128.checkedMul_eq_some, U128.checkedAdd_eq_some, U128.checkedSub_eq_some,
    U128.checkedDiv_eq_some] at h
  obtain ⟨_, -, _, hdx, bi, hbi, pi, -, bj, hbj, pj, hpj, a', ha', _, ⟨_, ⟨rfl, -⟩, rfl, -⟩, y, hy, _,
    ⟨_, ⟨hle, rfl⟩, _, ⟨hone, rfl⟩, hpos, rfl⟩, fee, -, _, ⟨-, rfl⟩, rfl⟩ := h
  obtain rfl := Except.ok.inj (ha'.symm.trans ha)
  have hin : ∃ x ∈ balances', x ≤ bi + dx * pi :=
    ⟨bi, List.mem_of_getElem? hbi, Nat.le_add_right _ _⟩
  refine ⟨bj, pj, hbj, hpj, hin, hy, ?_⟩
  have hpaid := Nat.div_mul_le_self (bj - y - 1) pj
  have hfee := Nat.mul_le_mul_right pj (Nat.sub_le ((bj - y - 1) / pj) fee)
  show y + ((bj - y - 1) / pj - fee) * pj < bj
  omega

/-- Wherever what is kept back covers the roundings of the solver, a swap leaves its pool worth the
supply it has found, or more, and `get_d` finds at most one less. -/
theorem swap_keeps_value (hvalued : s.Valued info balances d) (ha : s.currentA info = .ok a)
    (hlarge : cfg.aPrecision ≤ a * balances.length ^ balances.length)
    (hquote : getSwapAmount s info i j dx = .ok r)
    (hcovered : RoundingCovered cfg.aPrecision a d (balances.set i r.balanceI) j r.y
      (balances.getD j 0 - r.dy * info.precisions.getD j 0)) :
    (∀ D : ℝ, 0 < D → OnCurve (annOf cfg.aPrecision a balances.length)
      (exactBalances (r.leaves info balances i j)) D → d ≤ D) ∧
      ∀ d', getD cfg.aPrecision (r.leaves info balances i j) a = some d' → d ≤ d' + 1 := by
  obtain ⟨bj, pj, hbj, hpj, ⟨bi, hbi, hin⟩, hy, hlt⟩ := getSwapAmount_ok hvalued ha hquote
  obtain ⟨hj, -⟩ := List.getElem?_eq_some_iff.mp hbj
  have hgetD := Valued.getD_eq hvalued ha
  have hsum : 0 < balances.sum := by
    have := List.single_le_sum (fun x _ => Nat.zero_le x) bj (List.mem_of_getElem? hbj)
    omega
  obtain ⟨hprecision, hpos, hd⟩ := getD_pos hsum hgetD
  obtain ⟨_, _, hcoefficients, -⟩ := getY_eq hy
  have ha0 := (coefficients_pos hcoefficients).2
  have hpos' := set_pos hpos ((hpos bi hbi).trans_le hin) i
  have hj' : j < (balances.set i r.balanceI).length := by rwa [List.length_set]
  have hleast := hcovered.atLeast hprecision ha0 hj' hpos' hd (getD_eq hsum hgetD).2 hy
  have hleft : balances.getD j 0 - r.dy * info.precisions.getD j 0 = bj - r.dy * pj := by
    rw [List.getD_eq_getElem?_getD, List.getD_eq_getElem?_getD, hbj, hpj]
    rfl
  have hpositive : ∀ x ∈ r.leaves info balances i j, 0 < x := by
    refine set_pos hpos' ?_ j
    rw [hleft]
    omega
  have hlength : (r.leaves info balances i j).length = balances.length := by
    simp [SwapResult.leaves]
  have hne : r.leaves info balances i j ≠ [] :=
    List.ne_nil_of_length_pos (hlength ▸ Nat.zero_lt_of_lt hj)
  rw [List.length_set] at hleast
  have hworth (D : ℝ) (hD : 0 < D) (hvalue : OnCurve (annOf cfg.aPrecision a balances.length)
      (exactBalances (r.leaves info balances i j)) D) : d ≤ D :=
    hleast.le_value (one_le_annOf hprecision hlarge) (exactBalances_ne_nil hne)
      (exactBalances_pos hpositive) hD hvalue
  refine ⟨hworth, fun d' hd' => ?_⟩
  have hsolves := solvesD hprecision ha0 hne hpositive
  obtain ⟨D, hD, hvalue⟩ := hsolves.root
  have hnear := hsolves.lower d' D hd' hD hvalue
  have hfound : (d : ℝ) < d' + 2 := by
    have := hworth D hD (hlength ▸ hvalue)
    linarith
  have : d < d' + 2 := by exact_mod_cast hfound
  omega

theorem balanced_covered : RoundingCovered 100 1000 200000 [101000, 100000] 1 99000 99010 := by
  refine ⟨99000, by norm_num, ?_, ?_⟩
  · norm_num [AtMost, annOf, exactBalances, productTerm]
  · norm_num [annOf, exactBalances, curveConstant, lossOf, Newton.loss]

/-- At a fee of a hundredth. -/
theorem swap_keeps_value_balanced :
    let s := run step Sample.start (Sample.minted ++ [.modifyFees 0 none (some 100000000) none])
    let info := { Sample.balanced with swapFee := 100000000 }
    s.pools 0 = some info ∧ getSwapAmount s info 0 1 1000 = .ok ⟨1000, 990, 99000, 101000⟩ ∧
      (∀ D : ℝ, 0 < D → OnCurve (annOf 100 1000 2) (exactBalances [101000, 99010]) D →
        (200000 : ℕ) ≤ D) ∧
      ∀ d', getD 100 [101000, 99010] 1000 = some d' → 200000 ≤ d' + 1 := by
  intro s info
  have hvalued : s.Valued info [100000, 100000] 200000 := by
    exact ⟨by decide +kernel, by decide +kernel⟩
  have hquote : getSwapAmount s info 0 1 1000 = .ok ⟨1000, 990, 99000, 101000⟩ := by
    decide +kernel
  have ha : s.currentA info = .ok 1000 := by decide +kernel
  have hkeeps := swap_keeps_value hvalued ha (by decide) hquote balanced_covered
  have hleaves : SwapResult.leaves ⟨1000, 990, 99000, 101000⟩ info [100000, 100000] 0 1
      = [101000, 99010] := by decide
  rw [hleaves] at hkeeps
  exact ⟨by decide +kernel, hquote, hkeeps⟩

/-! A share of everything. -/

theorem redeemProportion_rests {amount : ℕ} {q : RedeemProportionResult}
    (hvalued : s.Valued info balances d)
    (h : getRedeemProportionAmount s info amount = .ok q) :
    q.balances.length = balances.length ∧ q.totalSupply ≤ d ∧
      ∀ e ∈ balances.zip q.balances, e.1 * q.totalSupply ≤ e.2 * d := by
  obtain ⟨balances', d', hvalued', -, -, -, hshares, hlengths, rfl⟩ := getRedeemProportionAmount_ok h
  obtain rfl := Option.some_inj.mp (hvalued'.1.symm.trans hvalued.1)
  obtain rfl := Except.ok.inj (hvalued'.2.symm.trans hvalued.2)
  have hlength := mapM_length hshares
  have hprecisions := mapM_length hvalued.1
  rw [List.length_zip] at hlength hprecisions
  rw [List.length_zip] at hlength
  refine ⟨by omega, Nat.le_add_right _ _, fun e he => ?_⟩
  obtain ⟨k, hk⟩ := List.mem_iff_getElem?.mp he
  obtain ⟨hbalance, hrest⟩ := List.getElem?_zip_eq_some.mp hk
  obtain ⟨hk, -⟩ := List.getElem?_eq_some_iff.mp hbalance
  obtain ⟨precision, hprecision⟩ : ∃ x, info.precisions[k]? = some x :=
    ⟨_, List.getElem?_eq_getElem (by omega)⟩
  obtain ⟨paid, hpaid⟩ : ∃ x, q.amounts[k]? = some x := ⟨_, List.getElem?_eq_getElem (by omega)⟩
  have hshare := mapM_getElem? hshares k
  have hleft : (q.balances.zip q.amounts)[k]? = some (e.2, paid) :=
    List.getElem?_zip_eq_some.mpr ⟨hrest, hpaid⟩
  have hzip : (balances'.zip info.precisions)[k]? = some (e.1, precision) :=
    List.getElem?_zip_eq_some.mpr ⟨hbalance, hprecision⟩
  rw [hleft, hzip, Option.bind_some, eq_comm] at hshare
  simp only [shareOf, Option.bind_eq_bind, Option.pure_def, Option.bind_eq_some_iff,
    U128.mulDiv_eq_some, U128.checkedSub_eq_some, Option.some_inj, Prod.mk.injEq] at hshare
  obtain ⟨_, ⟨-, rfl, -⟩, _, ⟨-, rfl⟩, _, -, hkept, -⟩ := hshare
  have hdiff := Nat.div_mul_le_self (e.1 * q.redeemAmount) (q.totalSupply + q.redeemAmount)
  rw [← hkept, Nat.sub_mul]
  have : e.1 * (q.totalSupply + q.redeemAmount) = e.1 * q.totalSupply + e.1 * q.redeemAmount :=
    Nat.mul_add ..
  omega

/-- A redemption of a share of everything takes no more than its part of the value: what the pool is
worth for each unit of the supply does not fall. -/
theorem redeem_proportion_keeps_value {amount : ℕ} {q : RedeemProportionResult}
    (hvalued : s.Valued info balances d) (ha : s.currentA info = .ok a)
    (hlarge : cfg.aPrecision ≤ a * balances.length ^ balances.length)
    (h : getRedeemProportionAmount s info amount = .ok q) {D D' : ℝ} (hD : 0 < D) (hD' : 0 < D')
    (hvalue : OnCurve (annOf cfg.aPrecision a balances.length) (exactBalances balances) D)
    (hvalue' : OnCurve (annOf cfg.aPrecision a balances.length) (exactBalances q.balances) D') :
    D * q.totalSupply ≤ D' * d := by
  obtain ⟨hlength, hsupply, hrests⟩ := redeemProportion_rests hvalued h
  rcases Nat.eq_zero_or_pos q.totalSupply with hzero | hpositive
  · rw [hzero, Nat.cast_zero, mul_zero]
    positivity
  have hgetD := Valued.getD_eq hvalued ha
  have hd0 := hpositive.trans_le hsupply
  have hd : (0 : ℝ) < d := by exact_mod_cast hd0
  obtain ⟨hprecision, hpos, -⟩ := getD_pos (getD_sum_pos hd0 hgetD) hgetD
  have hann := one_le_annOf hprecision hlarge
  have hrest : ∀ x ∈ q.balances, 0 < x := by
    intro x hx
    rw [← List.map_snd_zip hlength.le, List.mem_map] at hx
    obtain ⟨e, he, rfl⟩ := hx
    have hleft := hrests e he
    have hheld := Nat.mul_pos (hpos e.1 (List.of_mem_zip he).1) hpositive
    exact Nat.pos_of_mul_pos_right (hheld.trans_le hleft)
  have hne : balances ≠ [] := by
    rintro rfl
    exact absurd (getD_sum_pos hd0 hgetD) (lt_irrefl 0)
  have hne' : q.balances ≠ [] := List.ne_nil_of_length_pos (hlength ▸ List.length_pos_iff.mpr hne)
  obtain ⟨t, ht, htd⟩ : ∃ t : ℝ, 0 < t ∧ t * d = q.totalSupply :=
    ⟨q.totalSupply / d, div_pos (by exact_mod_cast hpositive) hd, div_mul_cancel₀ _ hd.ne'⟩
  have hworth : AtLeast (annOf cfg.aPrecision a balances.length) (exactBalances q.balances)
      (t * D) := by
    refine hvalue.rests (by linarith) ht hD hne hpos hlength fun e he => ?_
    have hkept : (e.1 : ℝ) * q.totalSupply ≤ e.2 * d := by exact_mod_cast hrests e he
    rw [← htd, ← mul_assoc, mul_comm (e.1 : ℝ)] at hkept
    exact le_of_mul_le_mul_right hkept hd
  have hle := hworth.le_value hann (exactBalances_ne_nil hne') (exactBalances_pos hrest) hD' hvalue'
  calc D * q.totalSupply = t * D * d := by rw [← htd]; ring
    _ ≤ D' * d := mul_le_mul_of_nonneg_right hle hd.le

theorem redeem_proportion_keeps_value_balanced :
    let s := run step Sample.start Sample.minted
    getRedeemProportionAmount s Sample.balanced 50001
        = .ok ⟨[25000, 25000], [75000, 75000], 0, 149999, 50001⟩ ∧
      ∀ D' : ℝ, 0 < D' → OnCurve (annOf 100 1000 2) (exactBalances [75000, 75000]) D' →
        200000 * (149999 : ℕ) ≤ D' * (200000 : ℕ) := by
  intro s
  have hvalued : s.Valued Sample.balanced [100000, 100000] 200000 := by
    exact ⟨by decide +kernel, by decide +kernel⟩
  have ha : s.currentA Sample.balanced = .ok 1000 := by decide +kernel
  have hquote : getRedeemProportionAmount s Sample.balanced 50001
      = .ok ⟨[25000, 25000], [75000, 75000], 0, 149999, 50001⟩ := by decide +kernel
  have hvalue : OnCurve (annOf 100 1000 2) (exactBalances [100000, 100000]) 200000 := by
    norm_num [OnCurve, annOf, exactBalances, productTerm]
  exact ⟨hquote, fun D' hD' hvalue' =>
    redeem_proportion_keeps_value hvalued ha (by decide) hquote (by norm_num) hD' hvalue hvalue'⟩

end Bifrost.StableAsset
