import Bifrost.Prices.Conversion
import Mathlib.Tactic.Linarith
import Mathlib.Tactic.Ring

/-!
# How far the oracle's prices convert

The operators of a conversion panic where a product does not fit its type and where the price that
is divided by is zero. Followed backwards from the last operator, that is one limit for the value
of the amount. Below it the conversion is the exact one, less what its four roundings take away.
-/

namespace Bifrost.Prices

open Result
set_option autoImplicit false

/-! What a rounded product stays below. -/

/-- The least number whose product with `n`, over `d`, is not less than `t`. -/
def below (t n d : ℕ) : ℕ := U128.divCeil (t * d) n

theorem lt_below_iff {x t n d : ℕ} (hn : 0 < n) : x < below t n d ↔ x * n < t * d := by
  have hle : below t n d ≤ x ↔ t * d ≤ x * n := U128.divCeil_le_iff hn
  omega

theorem mulDiv_lt_iff {x n d t : ℕ} :
    (∃ z, U128.mulDiv x n d = some z ∧ z < t) ↔ x * n < min (u128Max + 1) t * d := by
  constructor
  · rintro ⟨z, hz, hlt⟩
    obtain ⟨hd, rfl, hmax⟩ := U128.mulDiv_eq_some.mp hz
    exact (Nat.div_lt_iff_lt_mul hd).mp (lt_min (Nat.lt_succ_of_le hmax) hlt)
  · intro h
    have hd : 0 < d := by
      rcases Nat.eq_zero_or_pos d with rfl | hd
      · exact absurd h (Nat.not_lt_zero _)
      · exact hd
    have hlt := lt_min_iff.mp ((Nat.div_lt_iff_lt_mul hd).mpr h)
    exact ⟨_, U128.mulDiv_eq_some.mpr ⟨hd, rfl, Nat.le_of_lt_succ hlt.1⟩, hlt.2⟩

theorem checkedMul_lt_iff {x y : FixedU128} {t : ℕ} :
    (∃ z, x.checkedMul y = some z ∧ z.inner < t) ↔
      x.inner * y.inner < min (u128Max + 1) t * FixedU128.accuracy := by
  rw [← mulDiv_lt_iff]
  simp [FixedU128.checkedMul]

theorem checkedDiv_lt_iff {x y : FixedU128} {t : ℕ} :
    (∃ z, x.checkedDiv y = some z ∧ z.inner < t) ↔
      x.inner * FixedU128.accuracy < min (u128Max + 1) t * y.inner := by
  rw [← mulDiv_lt_iff]
  simp [FixedU128.checkedDiv]

/-- What the value of an amount must stay below, from the last operator to the first one. -/
def convertLimit (mantissaIn mantissaOut : ℕ) (priceOut : FixedU128) : ℕ :=
  let value := below (u128Max + 1) FixedU128.accuracy priceOut.inner
  let perUnit := below (min (u128Max + 1) value) mantissaOut FixedU128.accuracy
  let units := below (min (u128Max + 1) perUnit) FixedU128.accuracy mantissaIn
  min (u128Max + 1) units * FixedU128.accuracy

theorem accuracy_pos : 0 < FixedU128.accuracy := by decide

theorem convert_isSome_iff {mantissaIn mantissaOut a : ℕ} {priceIn priceOut : FixedU128}
    (hout : 0 < mantissaOut) :
    (∃ out, State.convert mantissaIn a priceIn mantissaOut priceOut = some out) ↔
      priceIn.inner * a < convertLimit mantissaIn mantissaOut priceOut := by
  have hlast (v : FixedU128) : (∃ out, v.checkedDiv priceOut = some out) ↔
      v.inner < below (u128Max + 1) FixedU128.accuracy priceOut.inner := by
    rw [lt_below_iff accuracy_pos, ← Nat.min_self (u128Max + 1), ← checkedDiv_lt_iff]
    constructor
    · rintro ⟨out, h⟩
      obtain ⟨n, hn, rfl⟩ := Option.map_eq_some_iff.mp h
      exact ⟨⟨n⟩, h, Nat.lt_succ_of_le (U128.mulDiv_eq_some.mp hn).2.2⟩
    · rintro ⟨out, h, -⟩
      exact ⟨out, h⟩
  simp only [State.convert, Option.bind_eq_bind, Option.bind_eq_some_iff]
  rw [convertLimit, ← checkedMul_lt_iff (y := ⟨a⟩)]
  simp only [lt_below_iff accuracy_pos, ← checkedDiv_lt_iff (y := ⟨mantissaIn⟩)]
  simp only [lt_below_iff hout, ← checkedMul_lt_iff (y := ⟨mantissaOut⟩), ← hlast]
  constructor
  · rintro ⟨out, v₁, h₁, v₂, h₂, v₃, h₃, h₄⟩
    exact ⟨v₁, h₁, v₂, h₂, v₃, h₃, out, h₄⟩
  · rintro ⟨v₁, h₁, v₂, h₂, v₃, h₃, out, h₄⟩
    exact ⟨out, v₁, h₁, v₂, h₂, v₃, h₃, h₄⟩

/-! The exact amount. -/

namespace State

variable (s : State)

def decimalsOf (c : CurrencyId) : ℕ := (decimals c).getD ((s.metadataDecimals c).getD 12)

/-- What the four roundings take away, in the denominator of the exact amount. -/
def roundings (c d : CurrencyId) : ℕ :=
  FixedU128.accuracy * 10 ^ s.decimalsOf c + 10 ^ s.decimalsOf c * 10 ^ s.decimalsOf d +
    FixedU128.accuracy * 10 ^ s.decimalsOf d

/-- At most the exact amount, and within the roundings of it. -/
structure Near (c : CurrencyId) (a : ℕ) (priceIn : FixedU128) (d : CurrencyId)
    (priceOut : FixedU128) (out : ℕ) : Prop where
  at_most : out * (10 ^ s.decimalsOf c * priceOut.inner) ≤
    a * priceIn.inner * 10 ^ s.decimalsOf d
  within : a * priceIn.inner * 10 ^ s.decimalsOf d ≤
    (out + 1) * (10 ^ s.decimalsOf c * priceOut.inner) + s.roundings c d

/-- No panic, an amount near the exact one, and none that is greater for less. -/
structure SoundByPrices (c : CurrencyId) (a : ℕ) (priceIn : FixedU128) (d : CurrencyId)
    (priceOut : FixedU128) : Prop where
  no_panic : s.getAmountByPrices c a priceIn d priceOut ≠ .error .panic
  near : ∀ out, s.getAmountByPrices c a priceIn d priceOut = .ok out →
    s.Near c a priceIn d priceOut out
  mono : ∀ out a', s.getAmountByPrices c a priceIn d priceOut = .ok out → a' ≤ a →
    ∃ out', s.getAmountByPrices c a' priceIn d priceOut = .ok out' ∧ out' ≤ out

/-- The same at the stored prices. -/
structure SoundByOracle (c : CurrencyId) (a : ℕ) (d : CurrencyId) : Prop where
  no_panic : s.getOracleAmount c a d ≠ .error .panic
  near : ∀ out priceIn priceOut, s.getOracleAmount c a d = .ok (out, priceIn, priceOut) →
    s.getStoragePrice c = some priceIn ∧ s.getStoragePrice d = some priceOut ∧
      s.Near c a priceIn d priceOut out
  mono : ∀ out priceIn priceOut a', s.getOracleAmount c a d = .ok (out, priceIn, priceOut) →
    a' ≤ a → ∃ out', s.getOracleAmount c a' d = .ok (out', priceIn, priceOut) ∧ out' ≤ out

/-- The value of the amount is below the limit, if both currencies have a mantissa. -/
def Fits (c : CurrencyId) (a : ℕ) (priceIn : FixedU128) (d : CurrencyId) (priceOut : FixedU128) :
    Prop :=
  ∀ mantissaIn mantissaOut, s.getAssetMantissa c = some mantissaIn →
    s.getAssetMantissa d = some mantissaOut →
    priceIn.inner * a < convertLimit mantissaIn mantissaOut priceOut

/-- The same at the stored prices, where there are two of them. -/
def FitsOracle (c : CurrencyId) (a : ℕ) (d : CurrencyId) : Prop :=
  ∀ priceIn priceOut, c ≠ d → s.getStoragePrice c = some priceIn →
    s.getStoragePrice d = some priceOut → s.Fits c a priceIn d priceOut

end State

variable {s : State} {c d : CurrencyId} {a m out : ℕ} {priceIn priceOut : FixedU128}

theorem getAssetMantissa_eq (h : s.getAssetMantissa c = some m) : m = 10 ^ s.decimalsOf c := by
  simp only [State.getAssetMantissa, Option.ite_none_right_eq_some, Option.some.injEq] at h
  exact h.2.symm

theorem mulDiv_bounds {x n d z : ℕ} (h : U128.mulDiv x n d = some z) :
    z * d ≤ x * n ∧ x * n ≤ z * d + d := by
  obtain ⟨hd, rfl, -⟩ := U128.mulDiv_eq_some.mp h
  refine ⟨Nat.div_mul_le_self _ _, ?_⟩
  have hlt := Nat.lt_div_mul_add hd (a := x * n)
  exact hlt.le

theorem convert_bounds {mantissaIn mantissaOut : ℕ} {out : FixedU128}
    (h : State.convert mantissaIn a priceIn mantissaOut priceOut = some out) :
    out.inner * (mantissaIn * priceOut.inner) ≤ a * priceIn.inner * mantissaOut ∧
      a * priceIn.inner * mantissaOut ≤ (out.inner + 1) * (mantissaIn * priceOut.inner) +
        (FixedU128.accuracy * mantissaIn + mantissaIn * mantissaOut +
          FixedU128.accuracy * mantissaOut) := by
  simp only [State.convert, Option.bind_eq_bind, Option.bind_eq_some_iff, FixedU128.checkedMul,
    FixedU128.checkedDiv, Option.map_eq_some_iff] at h
  obtain ⟨_, ⟨v₁, h₁, rfl⟩, _, ⟨v₂, h₂, rfl⟩, _, ⟨v₃, h₃, rfl⟩, v₄, h₄, rfl⟩ := h
  obtain ⟨hlow₁, hhigh₁⟩ := mulDiv_bounds h₁
  obtain ⟨hlow₂, hhigh₂⟩ := mulDiv_bounds h₂
  obtain ⟨hlow₃, hhigh₃⟩ := mulDiv_bounds h₃
  obtain ⟨hlow₄, hhigh₄⟩ := mulDiv_bounds h₄
  simp only at hlow₁ hhigh₁ hlow₂ hhigh₂ hlow₃ hhigh₃ hlow₄ hhigh₄ ⊢
  constructor
  · calc v₄ * (mantissaIn * priceOut.inner) = v₄ * priceOut.inner * mantissaIn := by ring
      _ ≤ v₃ * FixedU128.accuracy * mantissaIn := Nat.mul_le_mul_right _ hlow₄
      _ ≤ v₂ * mantissaOut * mantissaIn := Nat.mul_le_mul_right _ hlow₃
      _ = v₂ * mantissaIn * mantissaOut := by ring
      _ ≤ v₁ * FixedU128.accuracy * mantissaOut := Nat.mul_le_mul_right _ hlow₂
      _ ≤ priceIn.inner * a * mantissaOut := Nat.mul_le_mul_right _ hlow₁
      _ = a * priceIn.inner * mantissaOut := by ring
  · calc a * priceIn.inner * mantissaOut = priceIn.inner * a * mantissaOut := by ring
      _ ≤ (v₁ * FixedU128.accuracy + FixedU128.accuracy) * mantissaOut :=
        Nat.mul_le_mul_right _ hhigh₁
      _ = v₁ * FixedU128.accuracy * mantissaOut + FixedU128.accuracy * mantissaOut := by ring
      _ ≤ (v₂ * mantissaIn + mantissaIn) * mantissaOut + FixedU128.accuracy * mantissaOut :=
        Nat.add_le_add_right (Nat.mul_le_mul_right _ hhigh₂) _
      _ = v₂ * mantissaOut * mantissaIn + mantissaIn * mantissaOut +
          FixedU128.accuracy * mantissaOut := by ring
      _ ≤ (v₃ * FixedU128.accuracy + FixedU128.accuracy) * mantissaIn +
          mantissaIn * mantissaOut + FixedU128.accuracy * mantissaOut :=
        Nat.add_le_add_right (Nat.add_le_add_right (Nat.mul_le_mul_right _ hhigh₃) _) _
      _ = v₃ * FixedU128.accuracy * mantissaIn + (FixedU128.accuracy * mantissaIn +
          mantissaIn * mantissaOut + FixedU128.accuracy * mantissaOut) := by ring
      _ ≤ (v₄ * priceOut.inner + priceOut.inner) * mantissaIn + (FixedU128.accuracy * mantissaIn +
          mantissaIn * mantissaOut + FixedU128.accuracy * mantissaOut) :=
        Nat.add_le_add_right (Nat.mul_le_mul_right _ hhigh₄) _
      _ = (v₄ + 1) * (mantissaIn * priceOut.inner) + (FixedU128.accuracy * mantissaIn +
          mantissaIn * mantissaOut + FixedU128.accuracy * mantissaOut) := by ring

theorem near_of_ok (h : s.getAmountByPrices c a priceIn d priceOut = .ok out) :
    s.Near c a priceIn d priceOut out := by
  simp only [State.getAmountByPrices, bind_eq_ok, okOr_eq_ok, pure_eq_ok] at h
  obtain ⟨mantissaIn, hin, mantissaOut, hout, amountOut, hconvert, rfl⟩ := h
  obtain rfl := getAssetMantissa_eq hin
  obtain rfl := getAssetMantissa_eq hout
  obtain ⟨hlow, hhigh⟩ := convert_bounds hconvert
  exact ⟨hlow, hhigh⟩

theorem near_self : s.Near c a priceIn c priceIn a := by
  constructor
  · apply le_of_eq
    ring
  · calc a * priceIn.inner * 10 ^ s.decimalsOf c
        = a * (10 ^ s.decimalsOf c * priceIn.inner) := by ring
      _ ≤ (a + 1) * (10 ^ s.decimalsOf c * priceIn.inner) :=
        Nat.mul_le_mul_right _ (Nat.le_succ a)
      _ ≤ _ := Nat.le_add_right _ _

theorem getAmountByPrices_no_panic_iff :
    s.getAmountByPrices c a priceIn d priceOut ≠ .error .panic ↔
      s.Fits c a priceIn d priceOut := by
  simp only [State.getAmountByPrices, State.Fits, ne_eq, bind_eq_error, okOr_eq_error, okOr_eq_ok,
    reduceCtorEq, and_false, false_or, and_true]
  constructor
  · intro h mantissaIn mantissaOut hin hout
    have hpos : 0 < mantissaOut := by
      rw [getAssetMantissa_eq hout]
      positivity
    rw [← convert_isSome_iff hpos, ← Option.isSome_iff_exists, Option.isSome_iff_ne_none]
    intro hnone
    exact h ⟨mantissaIn, hin, mantissaOut, hout, Or.inl hnone⟩
  · rintro h ⟨mantissaIn, hin, mantissaOut, hout, hnone | ⟨_, _, hpure⟩⟩
    · have hpos : 0 < mantissaOut := by
        rw [getAssetMantissa_eq hout]
        positivity
      obtain ⟨out, hsome⟩ := (convert_isSome_iff hpos).mpr (h mantissaIn mantissaOut hin hout)
      rw [hnone] at hsome
      cases hsome
    · cases hpure

theorem soundByPrices_iff :
    s.SoundByPrices c a priceIn d priceOut ↔ s.Fits c a priceIn d priceOut := by
  rw [← getAmountByPrices_no_panic_iff]
  exact ⟨fun h => h.no_panic,
    fun h => ⟨h, fun _ hok => near_of_ok hok, fun _ _ hok hle => getAmountByPrices_mono hle hok⟩⟩

theorem getOracleAmount_self (h : s.getStoragePrice c = some priceIn) :
    s.getOracleAmount c a c = .ok (a, priceIn, priceIn) := by
  simp only [State.getOracleAmount, h, okOr, if_true]
  rfl

theorem getOracleAmount_ok_iff (hne : c ≠ d) :
    s.getOracleAmount c a d = .ok (out, priceIn, priceOut) ↔
      s.getStoragePrice c = some priceIn ∧ s.getStoragePrice d = some priceOut ∧
        s.getAmountByPrices c a priceIn d priceOut = .ok out := by
  simp only [State.getOracleAmount, if_neg hne, bind_eq_ok, okOr_eq_ok, pure_eq_ok, Prod.mk.injEq]
  constructor
  · rintro ⟨_, hin, _, hout, _, hamount, rfl, rfl, rfl⟩
    exact ⟨hin, hout, hamount⟩
  · rintro ⟨hin, hout, hamount⟩
    exact ⟨_, hin, _, hout, _, hamount, rfl, rfl, rfl⟩

theorem getOracleAmount_panic_iff (hne : c ≠ d) :
    s.getOracleAmount c a d = .error .panic ↔ ∃ priceIn priceOut,
      s.getStoragePrice c = some priceIn ∧ s.getStoragePrice d = some priceOut ∧
        s.getAmountByPrices c a priceIn d priceOut = .error .panic := by
  simp only [State.getOracleAmount, if_neg hne, bind_eq_error, okOr_eq_error, okOr_eq_ok,
    reduceCtorEq, and_false, false_or]
  constructor
  · rintro ⟨priceIn, hin, priceOut, hout, hpanic | ⟨_, _, hpure⟩⟩
    · exact ⟨priceIn, priceOut, hin, hout, hpanic⟩
    · cases hpure
  · rintro ⟨priceIn, priceOut, hin, hout, hpanic⟩
    exact ⟨priceIn, hin, priceOut, hout, Or.inl hpanic⟩

theorem soundByOracle_iff : s.SoundByOracle c a d ↔ s.FitsOracle c a d := by
  by_cases hsame : c = d
  · subst d
    have hfits : s.FitsOracle c a c := fun _ _ hne => absurd rfl hne
    refine iff_of_true ?_ hfits
    cases hprice : s.getStoragePrice c with
    | none =>
      have habsent (n : ℕ) : s.getOracleAmount c n c = .error .absent := by
        simp only [State.getOracleAmount, hprice]
        rfl
      constructor
      · rw [habsent]
        decide
      · intro out priceIn priceOut h
        rw [habsent] at h
        cases h
      · intro out priceIn priceOut a' h
        rw [habsent] at h
        cases h
    | some price =>
      constructor
      · rw [getOracleAmount_self hprice]
        simp
      · intro out priceIn priceOut h
        rw [getOracleAmount_self hprice] at h
        cases h
        exact ⟨hprice, hprice, near_self⟩
      · intro out priceIn priceOut a' h hle
        rw [getOracleAmount_self hprice] at h
        cases h
        exact ⟨a', getOracleAmount_self hprice, hle⟩
  · constructor
    · intro h priceIn priceOut _ hin hout
      rw [← getAmountByPrices_no_panic_iff]
      intro hpanic
      exact h.no_panic ((getOracleAmount_panic_iff hsame).mpr ⟨_, _, hin, hout, hpanic⟩)
    · intro h
      constructor
      · intro hpanic
        obtain ⟨priceIn, priceOut, hin, hout, hamount⟩ :=
          (getOracleAmount_panic_iff hsame).mp hpanic
        exact getAmountByPrices_no_panic_iff.mpr (h priceIn priceOut hsame hin hout) hamount
      · intro out priceIn priceOut hok
        obtain ⟨hin, hout, hamount⟩ := (getOracleAmount_ok_iff hsame).mp hok
        exact ⟨hin, hout, near_of_ok hamount⟩
      · intro out priceIn priceOut a' hok hle
        obtain ⟨hin, hout, hamount⟩ := (getOracleAmount_ok_iff hsame).mp hok
        obtain ⟨out', hamount', hle'⟩ := getAmountByPrices_mono hle hamount
        exact ⟨out', (getOracleAmount_ok_iff hsame).mpr ⟨hin, hout, hamount'⟩, hle'⟩

/-- Both conversions are total and conservative exactly where the value of the amount stays below
the limit of the decimals and the price it is divided by. -/
theorem conversions_sound_iff (s : State) (c d : CurrencyId) (a : ℕ) :
    (∀ priceIn priceOut,
      s.SoundByPrices c a priceIn d priceOut ↔ s.Fits c a priceIn d priceOut) ∧
      (s.SoundByOracle c a d ↔ s.FitsOracle c a d) :=
  ⟨fun _ _ => soundByPrices_iff, soundByOracle_iff⟩

/-- BNC is worth one and KSM, by an emergency price, nothing. -/
def zeroPriced : State where
  emergencyPrice := fun c => if c = .token .KSM then some .zero else none
  source := fun _ => some .one
  metadataDecimals := fun _ => none

/-- A price of zero, and an amount that is worth more than the type holds. -/
theorem conversions_panic :
    ¬zeroPriced.SoundByOracle (.native .BNC) 1 (.token .KSM) ∧
      ¬zeroPriced.SoundByPrices (.native .BNC) (2 ^ 127) ⟨2 * FixedU128.accuracy⟩ (.token .DOT)
        .one := by
  constructor
  · intro h
    exact h.no_panic (by decide +kernel)
  · intro h
    exact h.no_panic (by decide +kernel)

end Bifrost.Prices
