import Bifrost.LendMarket.Interest
import Mathlib.Tactic.Ring

/-!
# The rate models that are accepted

`check_model` bounds the rates and orders them, and says nothing about the jump utilization. A
model with a positive one has a rate at every utilization: it grows from the base rate to the full
rate, and the jump rate is met up to the resolution of the slope.
-/

namespace Bifrost.LendMarket

open Result
set_option autoImplicit false

/-! `FixedU128` below its limit. -/

theorem saturatingMul_of_le {a b : FixedU128} {n : ℕ}
    (h : a.inner * b.inner / FixedU128.accuracy ≤ n) (hn : n ≤ u128Max) :
    (a.saturatingMul b).inner = a.inner * b.inner / FixedU128.accuracy := by
  have hscale : FixedU128.accuracy ≠ 0 := by decide
  unfold FixedU128.saturatingMul FixedU128.checkedMul U128.mulDiv
  rw [if_neg hscale, if_pos (h.trans hn)]
  rfl

theorem mul_ofPermill_le (a : FixedU128) (p : Permill) :
    a.inner * (FixedU128.ofPermill p).inner / FixedU128.accuracy ≤ a.inner := by
  apply Nat.div_le_of_le_mul
  rw [Nat.mul_comm FixedU128.accuracy]
  exact Nat.mul_le_mul_left a.inner (Nat.mul_le_mul_right 1000000000000 p.le_one)

theorem mul_ofPermill_eq (a : FixedU128) (p : Permill) :
    a.inner * (FixedU128.ofPermill p).inner / FixedU128.accuracy =
      a.inner * p.parts / 1000000 := by
  have hassoc : a.inner * (FixedU128.ofPermill p).inner =
    a.inner * p.parts * 1000000000000 := (Nat.mul_assoc _ _ _).symm
  have hscale : FixedU128.accuracy = 1000000 * 1000000000000 := rfl
  rw [hassoc, hscale]
  exact Nat.mul_div_mul_right _ _ (by decide)

/-! The slope of a part of the jump model. -/

/-- What a spread comes to `u` parts of the way along `w` parts. -/
def slope (spread u w : ℕ) : ℕ := spread * u / 1000000 * 1000000 / w

theorem slope_mono (spread : ℕ) {u v : ℕ} (h : u ≤ v) (w : ℕ) : slope spread u w ≤ slope spread v w :=
  Nat.div_le_div_right (Nat.mul_le_mul_right _ (Nat.div_le_div_right (Nat.mul_le_mul_left _ h)))

theorem slope_le (spread : ℕ) {u w : ℕ} (h : u ≤ w) : slope spread u w ≤ spread := by
  apply Nat.div_le_of_le_mul
  rw [Nat.mul_comm w]
  exact (Nat.div_mul_le_self _ _).trans (Nat.mul_le_mul_left _ h)

theorem spread_lt_slope {w : ℕ} (spread : ℕ) (hw : 0 < w) :
    spread * w < slope spread w w * w + w + 1000000 := by
  have hparts := Nat.lt_div_mul_add (a := spread * w) (show 0 < 1000000 by decide)
  have hwidth := Nat.lt_div_mul_add (a := spread * w / 1000000 * 1000000) hw
  unfold slope
  omega

theorem rate_along {lower upper : FixedU128} {u w : Permill} (hle : lower.inner ≤ upper.inner)
    (hmax : upper.inner ≤ u128Max) (huw : u.parts ≤ w.parts) (hw : 0 < w.parts) :
    ((upper.checkedSub lower).bind fun spread =>
      ((spread.saturatingMul (.ofPermill u)).checkedDiv (.ofPermill w)).bind fun s =>
        s.checkedAdd lower) =
      some ⟨slope (upper.inner - lower.inner) u.parts w.parts + lower.inner⟩ := by
  have hsub : upper.checkedSub lower = some ⟨upper.inner - lower.inner⟩ := by
    simp [FixedU128.checkedSub, U128.checkedSub, hle]
  have hmul : (FixedU128.saturatingMul ⟨upper.inner - lower.inner⟩ (.ofPermill u)).inner =
      (upper.inner - lower.inner) * u.parts / 1000000 := by
    rw [saturatingMul_of_le (mul_ofPermill_le _ u) (by dsimp only; omega), mul_ofPermill_eq]
  have hscale : (upper.inner - lower.inner) * u.parts / 1000000 * FixedU128.accuracy /
      (FixedU128.ofPermill w).inner = slope (upper.inner - lower.inner) u.parts w.parts := by
    have hassoc : (upper.inner - lower.inner) * u.parts / 1000000 * FixedU128.accuracy =
      (upper.inner - lower.inner) * u.parts / 1000000 * 1000000 * 1000000000000 :=
        (Nat.mul_assoc _ 1000000 1000000000000).symm
    rw [hassoc]
    exact Nat.mul_div_mul_right _ _ (by decide)
  have hpos : 0 < (FixedU128.ofPermill w).inner := Nat.mul_pos hw (by decide)
  have hslope := slope_le (upper.inner - lower.inner) huw
  have hdiv : (FixedU128.saturatingMul ⟨upper.inner - lower.inner⟩ (.ofPermill u)).checkedDiv
      (.ofPermill w) = some ⟨slope (upper.inner - lower.inner) u.parts w.parts⟩ := by
    simp only [FixedU128.checkedDiv, Option.map_eq_some_iff, U128.mulDiv_eq_some]
    refine ⟨_, ⟨hpos, ?_, ?_⟩, rfl⟩
    · rw [hmul, hscale]
    · omega
  rw [hsub, Option.bind_some, hdiv, Option.bind_some]
  simp only [FixedU128.checkedAdd, Option.map_eq_some_iff, U128.checkedAdd_eq_some]
  exact ⟨_, ⟨rfl, by omega⟩, rfl⟩

namespace JumpModel

theorem checkModel_ok {m : JumpModel} (h : m.checkModel = true) :
    m.baseRate.inner ≤ m.jumpRate.inner ∧ m.jumpRate.inner ≤ m.fullRate.inner ∧
      m.fullRate.inner ≤ u128Max := by
  have hmax : maxFullRate.inner ≤ u128Max := by decide
  unfold checkModel at h
  split at h
  · cases h
  · split at h
    · cases h
    · omega

def rateAt (m : JumpModel) (utilization : Permill) : ℕ :=
  if utilization.parts ≤ m.jumpUtilization.parts then
    slope (m.jumpRate.inner - m.baseRate.inner) utilization.parts m.jumpUtilization.parts +
      m.baseRate.inner
  else
    slope (m.fullRate.inner - m.jumpRate.inner)
        (utilization.saturatingSub m.jumpUtilization).parts
        (Permill.one.saturatingSub m.jumpUtilization).parts + m.jumpRate.inner

theorem getBorrowRate_eq {m : JumpModel} (h : m.checkModel = true)
    (hpos : 0 < m.jumpUtilization.parts) (u : Permill) :
    m.getBorrowRate u = some ⟨m.rateAt u⟩ := by
  obtain ⟨hbase, hjump, hfull⟩ := checkModel_ok h
  unfold getBorrowRate rateAt
  split
  · rename_i hle
    exact rate_along hbase (by omega) hle hpos
  · rename_i hgt
    have hone := u.le_one
    have hle : (u.saturatingSub m.jumpUtilization).parts ≤
        (Permill.one.saturatingSub m.jumpUtilization).parts := Nat.sub_le_sub_right u.le_one _
    have hwidth : 0 < (Permill.one.saturatingSub m.jumpUtilization).parts := by
      show 0 < 1000000 - m.jumpUtilization.parts
      omega
    exact rate_along hjump hfull hle hwidth

theorem rateAt_bounds {m : JumpModel} (h : m.checkModel = true) (u : Permill) :
    m.baseRate.inner ≤ m.rateAt u ∧ m.rateAt u ≤ m.fullRate.inner := by
  obtain ⟨hbase, hjump, -⟩ := checkModel_ok h
  unfold rateAt
  split
  · rename_i hle
    have hslope := slope_le (m.jumpRate.inner - m.baseRate.inner) hle
    omega
  · have hle : (u.saturatingSub m.jumpUtilization).parts ≤
        (Permill.one.saturatingSub m.jumpUtilization).parts := Nat.sub_le_sub_right u.le_one _
    have hslope := slope_le (m.fullRate.inner - m.jumpRate.inner) hle
    omega

theorem rateAt_mono {m : JumpModel} (h : m.checkModel = true) {u v : Permill}
    (huv : u.parts ≤ v.parts) : m.rateAt u ≤ m.rateAt v := by
  obtain ⟨hbase, hjump, -⟩ := checkModel_ok h
  unfold rateAt
  split
  · rename_i hu
    split
    · have hslope := slope_mono (m.jumpRate.inner - m.baseRate.inner) huv
        m.jumpUtilization.parts
      omega
    · have hslope := slope_le (m.jumpRate.inner - m.baseRate.inner) hu
      omega
  · rw [if_neg (by omega)]
    have hexcess : (u.saturatingSub m.jumpUtilization).parts ≤
        (v.saturatingSub m.jumpUtilization).parts := Nat.sub_le_sub_right huv _
    have hslope := slope_mono (m.fullRate.inner - m.jumpRate.inner) hexcess
      (Permill.one.saturatingSub m.jumpUtilization).parts
    omega

theorem rateAt_jump {m : JumpModel} (h : m.checkModel = true)
    (hpos : 0 < m.jumpUtilization.parts) :
    m.rateAt m.jumpUtilization ≤ m.jumpRate.inner ∧
      (m.jumpRate.inner - m.rateAt m.jumpUtilization) * m.jumpUtilization.parts <
        m.jumpUtilization.parts + 1000000 := by
  obtain ⟨hbase, -, -⟩ := checkModel_ok h
  have hrate : m.rateAt m.jumpUtilization = slope (m.jumpRate.inner - m.baseRate.inner)
      m.jumpUtilization.parts m.jumpUtilization.parts + m.baseRate.inner :=
    if_pos (Nat.le_refl _)
  have hle := slope_le (m.jumpRate.inner - m.baseRate.inner)
    (Nat.le_refl m.jumpUtilization.parts)
  have hmissing := spread_lt_slope (m.jumpRate.inner - m.baseRate.inner) hpos
  rw [hrate]
  refine ⟨by omega, ?_⟩
  have hsplit : m.jumpRate.inner - (slope (m.jumpRate.inner - m.baseRate.inner)
      m.jumpUtilization.parts m.jumpUtilization.parts + m.baseRate.inner) =
        (m.jumpRate.inner - m.baseRate.inner) - slope (m.jumpRate.inner - m.baseRate.inner)
          m.jumpUtilization.parts m.jumpUtilization.parts := by omega
  rw [hsplit, Nat.sub_mul]
  omega

end JumpModel

/-! Powers of a part of one. -/

theorem saturatingMul_mono {a b a' b' : FixedU128} (ha : a.inner ≤ a'.inner)
    (hb : b.inner ≤ b'.inner) (ha' : a'.inner ≤ FixedU128.accuracy)
    (hb' : b'.inner ≤ FixedU128.accuracy) :
    (a.saturatingMul b).inner ≤ (a'.saturatingMul b').inner ∧
      (a'.saturatingMul b').inner ≤ FixedU128.accuracy := by
  have hmax : FixedU128.accuracy ≤ u128Max := by decide
  have hle : a'.inner * b'.inner / FixedU128.accuracy ≤ FixedU128.accuracy :=
    Nat.div_le_of_le_mul (Nat.mul_le_mul ha' hb')
  have hmono : a.inner * b.inner / FixedU128.accuracy ≤
      a'.inner * b'.inner / FixedU128.accuracy := Nat.div_le_div_right (Nat.mul_le_mul ha hb)
  rw [saturatingMul_of_le hle hmax, saturatingMul_of_le (hmono.trans hle) hmax]
  exact ⟨hmono, hle⟩

/-- One bit of the exponent. -/
def powStep (exp : ℕ) (acc : FixedU128 × FixedU128) (i : ℕ) : FixedU128 × FixedU128 :=
  (if exp.testBit i then acc.1.saturatingMul acc.2 else acc.1, acc.2.saturatingMul acc.2)

theorem powStep_mono (exp : ℕ) (is : List ℕ) {r s p q : FixedU128} (hr : r.inner ≤ s.inner)
    (hp : p.inner ≤ q.inner) (hs : s.inner ≤ FixedU128.accuracy)
    (hq : q.inner ≤ FixedU128.accuracy) :
    (is.foldl (powStep exp) (r, p)).1.inner ≤ (is.foldl (powStep exp) (s, q)).1.inner ∧
      (is.foldl (powStep exp) (s, q)).1.inner ≤ FixedU128.accuracy := by
  induction is generalizing r s p q with
  | nil => exact ⟨hr, hs⟩
  | cons i is ih =>
    have hsquare := saturatingMul_mono hp hp hq hq
    have hmul := saturatingMul_mono hr hp hs hq
    rw [List.foldl_cons, List.foldl_cons]
    unfold powStep
    split
    · exact ih hmul.1 hsquare.1 hmul.2 hsquare.2
    · exact ih hr hsquare.1 hs hsquare.2

theorem saturatingPow_mono {a b : FixedU128} (h : a.inner ≤ b.inner)
    (hb : b.inner ≤ FixedU128.accuracy) (exp : ℕ) :
    (a.saturatingPow exp).inner ≤ (b.saturatingPow exp).inner ∧
      (b.saturatingPow exp).inner ≤ FixedU128.accuracy := by
  have hone : FixedU128.one.inner ≤ FixedU128.accuracy := Nat.le_refl _
  exact powStep_mono exp _ (Nat.le_refl _) h hone hb

theorem ofPermill_le (p : Permill) : (FixedU128.ofPermill p).inner ≤ FixedU128.accuracy :=
  Nat.mul_le_mul_right 1000000000000 p.le_one

namespace CurveModel

def rateAt (m : CurveModel) (utilization : Permill) : ℕ :=
  ((FixedU128.ofPermill utilization).saturatingPow 9).inner + m.baseRate.inner

theorem rateAt_le (m : CurveModel) (u : Permill) :
    m.rateAt u ≤ m.baseRate.inner + FixedU128.accuracy := by
  have hpow := (saturatingPow_mono (Nat.le_refl _) (ofPermill_le u) 9).2
  unfold rateAt
  omega

theorem getBorrowRate_eq {m : CurveModel} (h : m.checkModel = true) (u : Permill) :
    m.getBorrowRate u = some ⟨m.rateAt u⟩ := by
  have hbase : m.baseRate.inner ≤ maxBaseRate.inner := of_decide_eq_true h
  have hle := m.rateAt_le u
  have hmax : maxBaseRate.inner + FixedU128.accuracy ≤ u128Max := by decide
  simp only [getBorrowRate, FixedU128.checkedAdd, Option.map_eq_some_iff,
    U128.checkedAdd_eq_some]
  exact ⟨_, ⟨rfl, by unfold rateAt at hle; omega⟩, rfl⟩

theorem rateAt_mono (m : CurveModel) {u v : Permill} (h : u.parts ≤ v.parts) :
    m.rateAt u ≤ m.rateAt v := by
  have huv : (FixedU128.ofPermill u).inner ≤ (FixedU128.ofPermill v).inner :=
    Nat.mul_le_mul_right 1000000000000 h
  exact Nat.add_le_add_right (saturatingPow_mono huv (ofPermill_le v) 9).1 _

end CurveModel

/-! Any model. -/

namespace InterestRateModel

def baseRate : InterestRateModel → ℕ
  | jump m => m.baseRate.inner
  | curve m => m.baseRate.inner

/-- The full rate; the curve reaches one above its base rate. -/
def ceiling : InterestRateModel → ℕ
  | jump m => m.fullRate.inner
  | curve m => m.baseRate.inner + FixedU128.accuracy

/-- The slope below the jump has a width. -/
def Sloped : InterestRateModel → Prop
  | jump m => 0 < m.jumpUtilization.parts
  | curve _ => True

def rateAt : InterestRateModel → Permill → ℕ
  | jump m => m.rateAt
  | curve m => m.rateAt

variable {m : InterestRateModel}

theorem getBorrowRate_eq (h : m.checkModel = true) (hsloped : m.Sloped) (u : Permill) :
    m.getBorrowRate u = some ⟨m.rateAt u⟩ := by
  cases m with
  | jump m => exact JumpModel.getBorrowRate_eq h hsloped u
  | curve m => exact CurveModel.getBorrowRate_eq h u

theorem rateAt_bounds (h : m.checkModel = true) (u : Permill) :
    m.baseRate ≤ m.rateAt u ∧ m.rateAt u ≤ m.ceiling := by
  cases m with
  | jump m => exact JumpModel.rateAt_bounds h u
  | curve m => exact ⟨Nat.le_add_left _ _, m.rateAt_le u⟩

theorem rateAt_mono (h : m.checkModel = true) {u v : Permill} (huv : u.parts ≤ v.parts) :
    m.rateAt u ≤ m.rateAt v := by
  cases m with
  | jump m => exact JumpModel.rateAt_mono h huv
  | curve m => exact m.rateAt_mono huv

end InterestRateModel

/-- `get_market_status` once the borrow rate is known. -/
def State.statusAt {AccountId : Type} {cfg : Config AccountId} (s : State cfg) (asset : CurrencyId)
    (market : Market) (util : Permill) (borrowRate : FixedU128) : Except Fault MarketStatus := do
  let supplyRate := InterestRateModel.getSupplyRate borrowRate util market.reserveFactor
  let last := s.lastAccruedInterestTime asset
  let (totalBorrows, totalReserves, borrowIndex) ←
    if last < s.now then s.addInterest asset market borrowRate (s.now - last)
    else pure (s.totalBorrows asset, s.totalReserves asset, s.borrowIndex asset)
  let exchangeRate ← calculateExchangeRate (s.totalSupply asset) (s.getTotalCash asset)
    totalBorrows totalReserves
  pure ⟨borrowRate, supplyRate, exchangeRate, util, totalBorrows, totalReserves, borrowIndex⟩

/-- A model that is accepted and has a slope below its jump gives a rate at every utilization, with
which the status of a market goes on. -/
theorem accepted_model_usable {m : InterestRateModel} (haccepted : m.checkModel = true)
    (hsloped : m.Sloped) :
    (∀ u, ∃ rate, m.getBorrowRate u = some rate ∧ m.baseRate ≤ rate.inner ∧
        rate.inner ≤ m.ceiling) ∧
      (∀ u v rate rate', u.parts ≤ v.parts → m.getBorrowRate u = some rate →
        m.getBorrowRate v = some rate' → rate.inner ≤ rate'.inner) ∧
      (∀ j rate, m = .jump j → j.getBorrowRate j.jumpUtilization = some rate →
        rate.inner ≤ j.jumpRate.inner ∧ (j.jumpRate.inner - rate.inner) *
          j.jumpUtilization.parts < j.jumpUtilization.parts + 1000000) ∧
      ∀ (AccountId : Type) (cfg : Config AccountId) (s : State cfg) (asset : CurrencyId)
        (market : Market) (util : Permill), s.market asset = .ok market → market.rateModel = m →
        calcUtilizationRatio (s.getTotalCash asset) (s.totalBorrows asset)
          (s.totalReserves asset) = .ok util →
        ∃ rate, m.getBorrowRate util = some rate ∧
          s.getMarketStatus asset = s.statusAt asset market util rate := by
  have hrate := InterestRateModel.getBorrowRate_eq haccepted hsloped
  refine ⟨?_, ?_, ?_, ?_⟩
  · intro u
    obtain ⟨hleast, hmost⟩ := InterestRateModel.rateAt_bounds haccepted u
    exact ⟨_, hrate u, hleast, hmost⟩
  · intro u v rate rate' huv hu hv
    obtain rfl := Option.some_inj.mp ((hrate u).symm.trans hu)
    obtain rfl := Option.some_inj.mp ((hrate v).symm.trans hv)
    exact InterestRateModel.rateAt_mono haccepted huv
  · rintro j rate rfl hj
    rw [JumpModel.getBorrowRate_eq haccepted hsloped] at hj
    obtain rfl := Option.some_inj.mp hj
    exact JumpModel.rateAt_jump haccepted hsloped
  · rintro AccountId cfg s asset market util hmarket rfl hutil
    refine ⟨_, hrate util, ?_⟩
    have hok : okOr (market.rateModel.getBorrowRate util) Fault.overflow =
        .ok ⟨market.rateModel.rateAt util⟩ := by
      rw [hrate util]
      rfl
    unfold State.getMarketStatus
    rw [hmarket, hutil]
    change (okOr (market.rateModel.getBorrowRate util) Fault.overflow >>= fun rate =>
      s.statusAt asset market util rate) = _
    rw [hok]
    rfl

/-- The default model. -/
theorem accepted_model_usable_sample :
    let m := InterestRateModel.jump ⟨⟨20000000000000000⟩, ⟨100000000000000000⟩,
      ⟨320000000000000000⟩, .fromPercent 80⟩
    ∀ u, ∃ rate, m.getBorrowRate u = some rate ∧ 20000000000000000 ≤ rate.inner ∧
      rate.inner ≤ 320000000000000000 := by
  intro m
  have hsloped : m.Sloped := show 0 < 800000 by decide
  exact (accepted_model_usable (m := m) (by decide) hsloped).1

/-- A jump at one millionth is met at the base rate, 999999 units below the jump rate; with a jump
at zero an idle market has no rate. -/
theorem accepted_model_off :
    let m : JumpModel := ⟨⟨0⟩, ⟨999999⟩, ⟨999999⟩, ⟨1, by decide⟩⟩
    let idle : JumpModel := ⟨⟨0⟩, ⟨0⟩, ⟨0⟩, .zero⟩
    m.checkModel = true ∧ m.getBorrowRate m.jumpUtilization = some ⟨0⟩ ∧
      m.jumpRate.inner = 999999 ∧ idle.checkModel = true ∧ idle.getBorrowRate .zero = none := by
  decide

end Bifrost.LendMarket
