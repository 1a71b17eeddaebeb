import Bifrost.Lib.Result
import Bifrost.Primitives.Arithmetic
import Bifrost.Primitives.Currency

/-!
# Amounts at the oracle's prices

The price pallet turns an amount of one currency into another one by two products and two
quotients of fixed-point numbers, each rounded down. A smaller amount is worth no more, and where
an amount can be converted a smaller one can.
-/

namespace Bifrost.Prices

open Result
set_option autoImplicit false

/-- A conversion gives nothing, or an operator of the fixed-point numbers panics. -/
inductive Failure where
  | absent
  | panic
deriving DecidableEq

/-- `CurrencyIdMapping`'s decimals are only asked for where the currency has none of its own. -/
structure State where
  emergencyPrice : CurrencyId → Option FixedU128
  source : CurrencyId → Option FixedU128
  metadataDecimals : CurrencyId → Option ℕ

def symbolDecimals : TokenSymbol → ℕ
  | .ASG | .BNC | .KUSD | .KSM | .KAR | .PHA => 12
  | .DOT | .RMRK => 10
  | .ETH | .ZLK | .MOVR => 18

def decimals : CurrencyId → Option ℕ
  | .native symbol | .stable symbol | .token symbol | .vToken symbol | .vsToken symbol
  | .vsBond symbol .. => some (symbolDecimals symbol)
  | .lpToken .. | .stableLpToken _ => some 1
  | _ => none

namespace State

variable (s : State)

def getStoragePrice (c : CurrencyId) : Option FixedU128 := (s.emergencyPrice c).or (s.source c)

def getAssetMantissa (c : CurrencyId) : Option ℕ :=
  let mantissa := 10 ^ (decimals c).getD ((s.metadataDecimals c).getD 12)
  if mantissa ≤ u128Max then some mantissa else none

/-- The four operators of `get_amount_by_prices`. -/
def convert (mantissaIn amountIn : ℕ) (priceIn : FixedU128) (mantissaOut : ℕ)
    (priceOut : FixedU128) : Option FixedU128 := do
  let value ← priceIn.checkedMul ⟨amountIn⟩
  let value ← value.checkedDiv ⟨mantissaIn⟩
  let value ← value.checkedMul ⟨mantissaOut⟩
  value.checkedDiv priceOut

def getAmountByPrices (currencyIn : CurrencyId) (amountIn : ℕ) (priceIn : FixedU128)
    (currencyOut : CurrencyId) (priceOut : FixedU128) : Except Failure ℕ := do
  let mantissaIn ← okOr (s.getAssetMantissa currencyIn) .absent
  let mantissaOut ← okOr (s.getAssetMantissa currencyOut) .absent
  let amountOut ← okOr (convert mantissaIn amountIn priceIn mantissaOut priceOut) .panic
  pure amountOut.inner

def getOracleAmount (currencyIn : CurrencyId) (amountIn : ℕ) (currencyOut : CurrencyId) :
    Except Failure (ℕ × FixedU128 × FixedU128) := do
  let priceIn ← okOr (s.getStoragePrice currencyIn) .absent
  if currencyIn = currencyOut then pure (amountIn, priceIn, priceIn)
  else do
    let priceOut ← okOr (s.getStoragePrice currencyOut) .absent
    let amountOut ← s.getAmountByPrices currencyIn amountIn priceIn currencyOut priceOut
    pure (amountOut, priceIn, priceOut)

end State

/-! A smaller amount. -/

theorem mulDiv_mono {a a' b c n : ℕ} (hle : a' ≤ a) (h : U128.mulDiv a b c = some n) :
    ∃ n', U128.mulDiv a' b c = some n' ∧ n' ≤ n := by
  obtain ⟨hpos, rfl, hmax⟩ := U128.mulDiv_eq_some.mp h
  have hdiv : a' * b / c ≤ a * b / c := Nat.div_le_div_right (Nat.mul_le_mul_right b hle)
  exact ⟨a' * b / c, U128.mulDiv_eq_some.mpr ⟨hpos, rfl, hdiv.trans hmax⟩, hdiv⟩

theorem checkedMul_mono {x x' y z : FixedU128} (hle : x'.inner ≤ x.inner)
    (h : x.checkedMul y = some z) : ∃ z', x'.checkedMul y = some z' ∧ z'.inner ≤ z.inner := by
  obtain ⟨n, hn, rfl⟩ := Option.map_eq_some_iff.mp h
  obtain ⟨n', hn', hle'⟩ := mulDiv_mono hle hn
  exact ⟨⟨n'⟩, Option.map_eq_some_iff.mpr ⟨n', hn', rfl⟩, hle'⟩

theorem checkedDiv_mono {x x' y z : FixedU128} (hle : x'.inner ≤ x.inner)
    (h : x.checkedDiv y = some z) : ∃ z', x'.checkedDiv y = some z' ∧ z'.inner ≤ z.inner := by
  obtain ⟨n, hn, rfl⟩ := Option.map_eq_some_iff.mp h
  obtain ⟨n', hn', hle'⟩ := mulDiv_mono hle hn
  exact ⟨⟨n'⟩, Option.map_eq_some_iff.mpr ⟨n', hn', rfl⟩, hle'⟩

theorem checkedMul_comm (x y : FixedU128) : x.checkedMul y = y.checkedMul x := by
  simp only [FixedU128.checkedMul, U128.mulDiv, Nat.mul_comm]

theorem convert_mono {mantissaIn mantissaOut a a' : ℕ} {priceIn priceOut out : FixedU128}
    (hle : a' ≤ a) (h : State.convert mantissaIn a priceIn mantissaOut priceOut = some out) :
    ∃ out', State.convert mantissaIn a' priceIn mantissaOut priceOut = some out' ∧
      out'.inner ≤ out.inner := by
  simp only [State.convert, Option.bind_eq_bind, Option.bind_eq_some_iff] at h ⊢
  obtain ⟨v₁, h₁, v₂, h₂, v₃, h₃, h₄⟩ := h
  rw [checkedMul_comm] at h₁
  have hinner : (FixedU128.mk a').inner ≤ (FixedU128.mk a).inner := hle
  obtain ⟨w₁, h₁', hle₁⟩ := checkedMul_mono hinner h₁
  rw [checkedMul_comm] at h₁'
  obtain ⟨w₂, h₂', hle₂⟩ := checkedDiv_mono hle₁ h₂
  obtain ⟨w₃, h₃', hle₃⟩ := checkedMul_mono hle₂ h₃
  obtain ⟨w₄, h₄', hle₄⟩ := checkedDiv_mono hle₃ h₄
  exact ⟨w₄, ⟨w₁, h₁', w₂, h₂', w₃, h₃', h₄'⟩, hle₄⟩

theorem getAmountByPrices_mono {s : State} {c d : CurrencyId} {a a' out : ℕ}
    {priceIn priceOut : FixedU128} (hle : a' ≤ a)
    (h : s.getAmountByPrices c a priceIn d priceOut = .ok out) :
    ∃ out', s.getAmountByPrices c a' priceIn d priceOut = .ok out' ∧ out' ≤ out := by
  simp only [State.getAmountByPrices, bind_eq_ok, okOr_eq_ok, pure_eq_ok] at h ⊢
  obtain ⟨m, hm, n, hn, x, hx, rfl⟩ := h
  obtain ⟨x', hx', hle'⟩ := convert_mono hle hx
  exact ⟨x'.inner, ⟨m, hm, n, hn, x', hx', rfl⟩, hle'⟩

end Bifrost.Prices
