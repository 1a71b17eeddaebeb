import Bifrost.Lib.Rounding
import Bifrost.Primitives.PerThing
import Bifrost.StableAsset.Supply

/-!
# Token rates of the stable pools

A pool counts a token at a stored rate, a denominator and a numerator. After a swap of a vToken
with a hard cap against its token, `refresh_token_rate` moves the rate towards what a vToken is
worth, by the hard cap at most. Prices are compared in units of `1 / FeePrecision`, rounded down,
and a capped rate is rounded down once more, to an amount of tokens for the issued vTokens.
-/

namespace Bifrost

set_option autoImplicit false

namespace U256

def limit : ℕ := 2 ^ 256 - 1

def checkedAdd (a b : ℕ) : Option ℕ := if a + b ≤ limit then some (a + b) else none

/-- `checked_mul`, then `checked_div`. -/
def mulDiv (a b c : ℕ) : Option ℕ := if a * b ≤ limit ∧ c ≠ 0 then some (a * b / c) else none

theorem checkedAdd_eq_some {a b c : ℕ} : checkedAdd a b = some c ↔ a + b = c ∧ c ≤ limit := by
  unfold checkedAdd
  split
  · rw [Option.some_inj]
    constructor
    · rintro rfl
      exact ⟨rfl, by assumption⟩
    · exact And.left
  · simp only [reduceCtorEq, false_iff]
    rintro ⟨rfl, hle⟩
    contradiction

theorem mulDiv_eq_some {a b c d : ℕ} :
    mulDiv a b c = some d ↔ a * b ≤ limit ∧ 0 < c ∧ a * b / c = d := by
  unfold mulDiv
  split
  · rename_i h
    rw [Option.some_inj]
    exact ⟨fun hd => ⟨h.1, Nat.pos_of_ne_zero h.2, hd⟩, fun hd => hd.2.2⟩
  · rename_i h
    simp only [reduceCtorEq, false_iff]
    rintro ⟨hle, hpos, -⟩
    exact h ⟨hle, hpos.ne'⟩

theorem mul_le_limit {a b : ℕ} (ha : a ≤ u128Max) (hb : b ≤ u128Max) : a * b ≤ limit :=
  (Nat.mul_le_mul ha hb).trans (by decide)

end U256

namespace StablePool

open StableAsset Result Rounding

inductive Error where
  | swapUnderMin
  | mintUnderMin
  | cantMint
  | redeemOverMax
  | tokenRateNotSet
deriving DecidableEq, Repr

variable {AccountId : Type} {cfg : Config AccountId}

/-- What the pallet is told of vTokens: their tokens, how many are issued, and how much of a
token stands behind its vToken. -/
structure Minting where
  convertToToken : CurrencyId → Option CurrencyId
  vCurrencyIssuance : CurrencyId → Option ℕ
  tokenPool : CurrencyId → ℕ

/-- The entry for the rate of `vtoken`, if it is swapped against its token. -/
def rateEntry (m : Minting) (vtoken token : CurrencyId) (hardcap : Permill) :
    Option (CurrencyId × ℕ × ℕ × Permill) :=
  if m.convertToToken vtoken = some token then do
    let issuance ← m.vCurrencyIssuance vtoken
    some (vtoken, issuance, m.tokenPool token, hardcap)
  else none

/-- A hard cap of the incoming token is the only one that is read, if there is one. -/
def ensureCanRefresh (m : Minting) (tokenRateHardcap : CurrencyId → Option Permill)
    (tokenIn tokenOut : CurrencyId) : Option (CurrencyId × ℕ × ℕ × Permill) :=
  match tokenRateHardcap tokenIn with
  | some hardcap => rateEntry m tokenIn tokenOut hardcap
  | none =>
    match tokenRateHardcap tokenOut with
    | some hardcap => rateEntry m tokenOut tokenIn hardcap
    | none => none

def refreshTokenRate (s : State cfg) (poolId : ℕ) (vtoken : CurrencyId)
    (vtokenIssuance tokenPoolAmount : ℕ) (hardcap : Permill) : Option (State cfg) := do
  let (denominator, numerator) ← s.tokenRateCaches poolId vtoken
  let delta ← U256.mulDiv (hardcap.mul cfg.feePrecision) numerator denominator
  let newPrice ← U256.mulDiv cfg.feePrecision tokenPoolAmount vtokenIssuance
  let oldPrice ← U256.mulDiv cfg.feePrecision numerator denominator
  if newPrice ≤ oldPrice then some s
  else
    let maxAllowedPrice ← U256.checkedAdd delta oldPrice
    if newPrice ≤ maxAllowedPrice then
      (setTokenRate s poolId [(vtoken, vtokenIssuance, tokenPoolAmount)]).toOption
    else
      let adjusted ← U256.mulDiv maxAllowedPrice vtokenIssuance cfg.feePrecision
      (setTokenRate s poolId [(vtoken, vtokenIssuance, min adjusted u128Max)]).toOption

/-- A refresh that fails leaves the rate and is reported by an event. -/
def refreshed (poolId : ℕ) (vtoken : CurrencyId) (vtokenIssuance tokenPoolAmount : ℕ)
    (hardcap : Permill) (s : State cfg) : State cfg :=
  (refreshTokenRate s poolId vtoken vtokenIssuance tokenPoolAmount hardcap).getD s

def afterSwap (m : Minting) (tokenRateHardcap : CurrencyId → Option Permill) (poolId : ℕ)
    (tokenIn tokenOut : CurrencyId) (s : State cfg) : State cfg :=
  match ensureCanRefresh m tokenRateHardcap tokenIn tokenOut with
  | some (vtoken, issuance, tokenPool, hardcap) =>
    refreshed poolId vtoken issuance tokenPool hardcap s
  | none => s

/-- An amount that is out of range, and a division by zero, give zero. -/
def calculateScaling (amount numerator denominator : ℕ) : ℕ :=
  ((U256.mulDiv amount numerator denominator).bind fun n =>
    if n ≤ u128Max then some n else none).getD 0

def upscale (s : State cfg) (amount poolId : ℕ) (currencyId : CurrencyId) : Except Error ℕ := do
  let (denominator, numerator) ← okOr (s.tokenRateCaches poolId currencyId) .tokenRateNotSet
  pure (calculateScaling amount numerator denominator)

def downscale (s : State cfg) (amount poolId : ℕ) (currencyId : CurrencyId) : Except Error ℕ := do
  let (numerator, denominator) ← okOr (s.tokenRateCaches poolId currencyId) .tokenRateNotSet
  pure (calculateScaling amount numerator denominator)

/-! What a refresh does to the rate. -/

def setRate (s : State cfg) (poolId : ℕ) (vtoken : CurrencyId) (rate : ℕ × ℕ) : State cfg :=
  { s with
    tokenRateCaches := Function.update s.tokenRateCaches poolId
      (Function.update (s.tokenRateCaches poolId) vtoken (some rate)) }

theorem setTokenRate_one {s s' : State cfg} {poolId : ℕ} {vtoken : CurrencyId} {rate : ℕ × ℕ} :
    (setTokenRate s poolId [(vtoken, rate)]).toOption = some s' ↔
      poolId < s.poolCount ∧ s' = setRate s poolId vtoken rate := by
  have hok : (setTokenRate s poolId [(vtoken, rate)]).toOption = some s' ↔
      setTokenRate s poolId [(vtoken, rate)] = .ok s' := by
    cases setTokenRate s poolId [(vtoken, rate)] <;> simp [Except.toOption]
  rw [hok]
  simp only [setTokenRate, bind_eq_ok, ensure_eq_ok, pure_eq_ok]
  constructor
  · rintro ⟨_, hpool, rfl⟩
    exact ⟨hpool, rfl⟩
  · rintro ⟨hpool, rfl⟩
    exact ⟨(), hpool, rfl⟩

/-- The prices that a refresh compares, in units of `1 / scale`. -/
structure Prices where
  delta : ℕ
  new : ℕ
  old : ℕ

/-- The most that a refresh may move the price to. -/
def Prices.allowed (p : Prices) : ℕ := p.delta + p.old

def pricesOf (scale : ℕ) (hardcap : Permill) (rate : ℕ × ℕ) (issuance tokenPool : ℕ) : Prices :=
  ⟨hardcap.mul scale * rate.2 / rate.1, scale * tokenPool / issuance, scale * rate.2 / rate.1⟩

section Refresh

variable {s s' : State cfg} {poolId issuance tokenPool : ℕ} {vtoken : CurrencyId}
  {hardcap : Permill} {rate : ℕ × ℕ}

theorem refreshTokenRate_ok
    (h : refreshTokenRate s poolId vtoken issuance tokenPool hardcap = some s')
    (hrate : s.tokenRateCaches poolId vtoken = some rate) :
    let p := pricesOf cfg.feePrecision hardcap rate issuance tokenPool
    0 < rate.1 ∧ 0 < issuance ∧
      ((p.new ≤ p.old ∧ s' = s) ∨
        (p.old < p.new ∧ p.new ≤ p.allowed ∧
          s' = setRate s poolId vtoken (issuance, tokenPool)) ∨
        (p.allowed < p.new ∧ 0 < cfg.feePrecision ∧ s' = setRate s poolId vtoken
          (issuance, min (p.allowed * issuance / cfg.feePrecision) u128Max))) := by
  obtain ⟨denominator, numerator⟩ := rate
  simp only [refreshTokenRate, hrate, Option.bind_eq_bind, Option.bind_some,
    Option.bind_eq_some_iff, U256.mulDiv_eq_some] at h
  obtain ⟨_, ⟨-, hd, rfl⟩, _, ⟨-, hissuance, rfl⟩, _, ⟨-, -, rfl⟩, h⟩ := h
  refine ⟨hd, hissuance, ?_⟩
  split at h
  · exact Or.inl ⟨by assumption, (Option.some.inj h).symm⟩
  · rename_i hnew
    rw [not_le] at hnew
    right
    simp only [Option.bind_eq_some_iff, U256.checkedAdd_eq_some] at h
    obtain ⟨_, ⟨rfl, -⟩, h⟩ := h
    split at h
    · exact Or.inl ⟨hnew, by assumption, (setTokenRate_one.mp h).2⟩
    · rename_i hallowed
      simp only [Option.bind_eq_some_iff, U256.mulDiv_eq_some] at h
      obtain ⟨_, ⟨-, hscale, rfl⟩, h⟩ := h
      exact Or.inr ⟨not_le.mp hallowed, hscale, (setTokenRate_one.mp h).2⟩

theorem refreshTokenRate_defined (hardcap : Permill)
    (hrate : s.tokenRateCaches poolId vtoken = some rate)
    (hpool : poolId < s.poolCount) (hscale : 0 < cfg.feePrecision)
    (hscale' : 2 * cfg.feePrecision ≤ u128Max) (hd : 0 < rate.1) (hn : rate.2 ≤ u128Max)
    (hissuance : 0 < issuance) (htokens : tokenPool ≤ u128Max) :
    ∃ s', refreshTokenRate s poolId vtoken issuance tokenPool hardcap = some s' := by
  obtain ⟨denominator, numerator⟩ := rate
  have hcap : hardcap.mul cfg.feePrecision ≤ cfg.feePrecision := hardcap.mul_le _
  have hdelta : U256.mulDiv (hardcap.mul cfg.feePrecision) numerator denominator =
      some (hardcap.mul cfg.feePrecision * numerator / denominator) :=
    U256.mulDiv_eq_some.mpr ⟨U256.mul_le_limit (by omega) hn, hd, rfl⟩
  have hnew : U256.mulDiv cfg.feePrecision tokenPool issuance =
      some (cfg.feePrecision * tokenPool / issuance) :=
    U256.mulDiv_eq_some.mpr ⟨U256.mul_le_limit (by omega) htokens, hissuance, rfl⟩
  have hold : U256.mulDiv cfg.feePrecision numerator denominator =
      some (cfg.feePrecision * numerator / denominator) :=
    U256.mulDiv_eq_some.mpr ⟨U256.mul_le_limit (by omega) hn, hd, rfl⟩
  have hallowed : U256.checkedAdd (hardcap.mul cfg.feePrecision * numerator / denominator)
      (cfg.feePrecision * numerator / denominator) =
        some (hardcap.mul cfg.feePrecision * numerator / denominator +
          cfg.feePrecision * numerator / denominator) := by
    refine U256.checkedAdd_eq_some.mpr ⟨rfl, ?_⟩
    have hsum : 2 * cfg.feePrecision * numerator ≤ U256.limit := U256.mul_le_limit hscale' hn
    have hcapped := Nat.mul_le_mul_right numerator hcap
    have hfirst := Nat.div_le_self (hardcap.mul cfg.feePrecision * numerator) denominator
    have hsecond := Nat.div_le_self (cfg.feePrecision * numerator) denominator
    rw [Nat.mul_assoc] at hsum
    omega
  have hset : ∀ rate : ℕ × ℕ,
      (setTokenRate s poolId [(vtoken, rate)]).toOption = some (setRate s poolId vtoken rate) :=
    fun rate => setTokenRate_one.mpr ⟨hpool, rfl⟩
  simp only [refreshTokenRate, hrate, hdelta, hnew, hold, Option.bind_eq_bind, Option.bind_some]
  split
  · exact ⟨s, rfl⟩
  · rename_i hmore
    rw [hallowed]
    simp only [Option.bind_some]
    split
    · exact ⟨_, hset _⟩
    · rename_i hfar
      rw [not_le] at hfar
      have hadjusted : U256.mulDiv (hardcap.mul cfg.feePrecision * numerator / denominator +
          cfg.feePrecision * numerator / denominator) issuance cfg.feePrecision =
            some ((hardcap.mul cfg.feePrecision * numerator / denominator +
              cfg.feePrecision * numerator / denominator) * issuance / cfg.feePrecision) := by
        refine U256.mulDiv_eq_some.mpr ⟨?_, hscale, rfl⟩
        calc _ ≤ cfg.feePrecision * tokenPool / issuance * issuance :=
              Nat.mul_le_mul_right _ hfar.le
          _ ≤ cfg.feePrecision * tokenPool := Nat.div_mul_le_self _ _
          _ ≤ U256.limit := U256.mul_le_limit (by omega) htokens
      rw [hadjusted]
      simp only [Option.bind_some]
      exact ⟨_, hset _⟩

end Refresh

/-! How far the rate moves. -/

def price (rate : ℕ × ℕ) : ℚ := rate.2 / rate.1

theorem scaled_price_bounds (scale : ℕ) (rate : ℕ × ℕ) (hd : 0 < rate.1) :
    ((scale * rate.2 / rate.1 : ℕ) : ℚ) ≤ scale * price rate ∧
      scale * price rate < ((scale * rate.2 / rate.1 : ℕ) : ℚ) + 1 := by
  have hbounds := cast_div_bounds hd (scale * rate.2)
  rw [Nat.cast_mul, mul_div_assoc] at hbounds
  exact hbounds

theorem capped_price_bounds {scale issuance : ℕ} (allowed : ℕ) (hscale : 0 < scale)
    (hissuance : 0 < issuance) :
    price (issuance, allowed * issuance / scale) ≤ allowed / scale ∧
      (allowed : ℚ) / scale - 1 / issuance < price (issuance, allowed * issuance / scale) := by
  have hissuance' : (0 : ℚ) < issuance := Nat.cast_pos.mpr hissuance
  have hbounds := cast_div_bounds hscale (allowed * issuance)
  have hproduct : ((allowed * issuance : ℕ) : ℚ) / scale = allowed / scale * issuance := by
    rw [Nat.cast_mul]
    ring
  rw [hproduct] at hbounds
  unfold price
  simp only
  constructor
  · rw [div_le_iff₀ hissuance']
    exact hbounds.1
  · rw [lt_div_iff₀ hissuance', sub_mul, one_div_mul_cancel hissuance'.ne']
    linarith [hbounds.2]

/-- Where a refresh takes a rate: up by the hard cap and less than a unit of `1 / scale` at most,
down by less than such a unit and a token at most, and not down at all where the hard cap is
worth a unit and a token. The hard cap is taken in units of `1 / scale`. -/
structure RateMoves (scale : ℕ) (hardcap : Permill) (issuance : ℕ) (rate rate' : ℕ × ℕ) :
    Prop where
  capped : price rate' < price rate * (1 + hardcap.mul scale / scale) + 1 / scale
  near : price rate - (1 / scale + 1 / issuance) < price rate'
  kept : scale + issuance ≤ hardcap.mul scale * rate.2 / rate.1 * issuance →
    price rate ≤ price rate'

section Moves

variable {scale issuance tokenPool : ℕ} {hardcap : Permill} {rate : ℕ × ℕ}

theorem price_nonneg (rate : ℕ × ℕ) : 0 ≤ price rate := by
  unfold price
  positivity

theorem RateMoves.refl (hscale : 0 < scale) : RateMoves scale hardcap issuance rate rate := by
  have hscale' : (0 : ℚ) < 1 / scale := by positivity
  have hissuance : (0 : ℚ) ≤ 1 / issuance := by positivity
  have hgrown : 0 ≤ price rate * (hardcap.mul scale / scale) :=
    mul_nonneg (price_nonneg rate) (by positivity)
  refine ⟨?_, ?_, fun _ => le_refl _⟩
  · rw [mul_add, mul_one]
    linarith
  · linarith

theorem allowed_bounds (hardcap : Permill) (issuance tokenPool : ℕ) (hscale : 0 < scale)
    (hd : 0 < rate.1) :
    ((pricesOf scale hardcap rate issuance tokenPool).allowed : ℚ) / scale ≤
        price rate * (1 + hardcap.mul scale / scale) ∧
      price rate + ((hardcap.mul scale * rate.2 / rate.1 : ℕ) - 1) / scale <
        ((pricesOf scale hardcap rate issuance tokenPool).allowed : ℚ) / scale := by
  have hscale' : (0 : ℚ) < scale := Nat.cast_pos.mpr hscale
  obtain ⟨hdelta, -⟩ := scaled_price_bounds (hardcap.mul scale) rate hd
  obtain ⟨hold, hold'⟩ := scaled_price_bounds scale rate hd
  have hallowed : ((pricesOf scale hardcap rate issuance tokenPool).allowed : ℚ) =
      (hardcap.mul scale * rate.2 / rate.1 : ℕ) + (scale * rate.2 / rate.1 : ℕ) := by
    rw [← Nat.cast_add]
    rfl
  rw [hallowed]
  constructor
  · rw [div_le_iff₀ hscale', mul_assoc, add_mul, div_mul_cancel₀ _ hscale'.ne']
    linarith
  · rw [lt_div_iff₀ hscale', add_mul, div_mul_cancel₀ _ hscale'.ne']
    linarith

theorem RateMoves.of_set (hscale : 0 < scale) (hd : 0 < rate.1) (hissuance : 0 < issuance)
    (hnew : (pricesOf scale hardcap rate issuance tokenPool).old <
      (pricesOf scale hardcap rate issuance tokenPool).new)
    (hle : (pricesOf scale hardcap rate issuance tokenPool).new ≤
      (pricesOf scale hardcap rate issuance tokenPool).allowed) :
    price rate < price (issuance, tokenPool) ∧
      RateMoves scale hardcap issuance rate (issuance, tokenPool) := by
  have hscale' : (0 : ℚ) < scale := Nat.cast_pos.mpr hscale
  obtain ⟨hprice, hprice'⟩ := scaled_price_bounds scale (issuance, tokenPool) hissuance
  obtain ⟨-, hold⟩ := scaled_price_bounds scale rate hd
  obtain ⟨hallowed, -⟩ := allowed_bounds hardcap issuance tokenPool hscale hd
  have hstep : ((scale * rate.2 / rate.1 : ℕ) : ℚ) + 1 ≤ (scale * tokenPool / issuance : ℕ) := by
    exact_mod_cast hnew
  have hle' : ((scale * tokenPool / issuance : ℕ) : ℚ) ≤
      (pricesOf scale hardcap rate issuance tokenPool).allowed := by
    exact_mod_cast hle
  have hrises : price rate < price (issuance, tokenPool) := by
    apply lt_of_mul_lt_mul_left _ hscale'.le
    linarith
  refine ⟨hrises, ?_, ?_, fun _ => hrises.le⟩
  · have hbelow : price (issuance, tokenPool) <
        ((pricesOf scale hardcap rate issuance tokenPool).allowed + 1 : ℚ) / scale := by
      rw [lt_div_iff₀ hscale', mul_comm]
      linarith
    rw [add_div] at hbelow
    linarith
  · have hunits : (0 : ℚ) ≤ 1 / scale + 1 / issuance := by positivity
    linarith

theorem RateMoves.of_capped (hardcap : Permill) (tokenPool : ℕ) (hscale : 0 < scale)
    (hd : 0 < rate.1) (hissuance : 0 < issuance) :
    RateMoves scale hardcap issuance rate (issuance,
        (pricesOf scale hardcap rate issuance tokenPool).allowed * issuance / scale) ∧
      (scale + issuance ≤ hardcap.mul scale * rate.2 / rate.1 * issuance →
        price rate < price (issuance,
          (pricesOf scale hardcap rate issuance tokenPool).allowed * issuance / scale)) := by
  have hscale' : (0 : ℚ) < scale := Nat.cast_pos.mpr hscale
  have hissuance' : (0 : ℚ) < issuance := Nat.cast_pos.mpr hissuance
  obtain ⟨hallowed, hallowed'⟩ := allowed_bounds hardcap issuance tokenPool hscale hd
  obtain ⟨hcapped, hcapped'⟩ := capped_price_bounds
    (pricesOf scale hardcap rate issuance tokenPool).allowed hscale hissuance
  have hunit : (0 : ℚ) < 1 / scale := by positivity
  have hdelta : (0 : ℚ) ≤ (hardcap.mul scale * rate.2 / rate.1 : ℕ) / scale := by positivity
  rw [sub_div] at hallowed'
  have hrises : scale + issuance ≤ hardcap.mul scale * rate.2 / rate.1 * issuance →
      price rate < price (issuance,
        (pricesOf scale hardcap rate issuance tokenPool).allowed * issuance / scale) := by
    intro hstep
    have hstep' : (scale : ℚ) + issuance ≤
        (hardcap.mul scale * rate.2 / rate.1 : ℕ) * issuance := by
      exact_mod_cast hstep
    have hworth : (1 : ℚ) / issuance ≤
        (hardcap.mul scale * rate.2 / rate.1 : ℕ) / scale - 1 / scale := by
      rw [← sub_div, div_le_div_iff₀ hissuance' hscale']
      linarith
    linarith
  exact ⟨⟨by linarith, by linarith, fun hstep => (hrises hstep).le⟩, hrises⟩

theorem capped_le (hless : (pricesOf scale hardcap rate issuance tokenPool).allowed <
    (pricesOf scale hardcap rate issuance tokenPool).new) :
    (pricesOf scale hardcap rate issuance tokenPool).allowed * issuance / scale ≤ tokenPool := by
  apply Nat.div_le_of_le_mul
  calc _ ≤ scale * tokenPool / issuance * issuance := Nat.mul_le_mul_right _ hless.le
    _ ≤ scale * tokenPool := Nat.div_mul_le_self _ _

theorem scaled_div_le_of_price_lt {n : ℕ} {rate' : ℕ × ℕ} (hd : 0 < rate.1) (hd' : 0 < rate'.1)
    (h : price rate < price rate') : n * rate.2 / rate.1 ≤ n * rate'.2 / rate'.1 := by
  have hcross : rate.2 * rate'.1 ≤ rate'.2 * rate.1 := by
    unfold price at h
    rw [div_lt_div_iff₀ (Nat.cast_pos.mpr hd) (Nat.cast_pos.mpr hd')] at h
    exact_mod_cast h.le
  rw [Nat.le_div_iff_mul_le hd']
  have hquotient : n * rate.2 / rate.1 * rate.1 ≤ n * rate.2 := Nat.div_mul_le_self _ _
  apply Nat.le_of_mul_le_mul_right _ hd
  calc n * rate.2 / rate.1 * rate'.1 * rate.1 = n * rate.2 / rate.1 * rate.1 * rate'.1 := by ring
    _ ≤ n * rate.2 * rate'.1 := Nat.mul_le_mul_right _ hquotient
    _ ≤ n * rate'.2 * rate.1 := by
      rw [Nat.mul_assoc, Nat.mul_assoc]
      exact Nat.mul_le_mul_left n hcross

end Moves

/-! Repeated refreshes. -/

/-- A refresh of a rate that is lower than the vTokens are worth by a unit at least, with a hard
cap that is worth a unit and a token. -/
structure Rising (s : State cfg) (poolId : ℕ) (vtoken : CurrencyId) (issuance tokenPool : ℕ)
    (hardcap : Permill) (rate : ℕ × ℕ) : Prop where
  stored : s.tokenRateCaches poolId vtoken = some rate
  pool : poolId < s.poolCount
  denominator : 0 < rate.1
  numerator : rate.2 ≤ u128Max
  lower : cfg.feePrecision * rate.2 / rate.1 < cfg.feePrecision * tokenPool / issuance
  step : cfg.feePrecision + issuance ≤
    hardcap.mul cfg.feePrecision * rate.2 / rate.1 * issuance

section Repeated

variable {s s' : State cfg} {poolId issuance tokenPool : ℕ} {vtoken : CurrencyId}
  {hardcap : Permill} {rate : ℕ × ℕ}

theorem setRate_stored (s : State cfg) (poolId : ℕ) (vtoken : CurrencyId) (rate : ℕ × ℕ) :
    (setRate s poolId vtoken rate).tokenRateCaches poolId vtoken = some rate := by
  simp [setRate]

theorem setRate_others {id : ℕ} {c : CurrencyId} (hother : ¬ (id = poolId ∧ c = vtoken)) :
    (setRate s poolId vtoken rate).tokenRateCaches id c = s.tokenRateCaches id c := by
  unfold setRate
  by_cases hid : id = poolId
  · subst id
    have hc : c ≠ vtoken := fun hc => hother ⟨rfl, hc⟩
    simp [hc]
  · simp [hid]

theorem Rising.refresh (h : Rising s poolId vtoken issuance tokenPool hardcap rate)
    (hscale : 0 < cfg.feePrecision) (hscale' : 2 * cfg.feePrecision ≤ u128Max)
    (hissuance : 0 < issuance) (htokens : tokenPool ≤ u128Max) :
    ∃ s', refreshTokenRate s poolId vtoken issuance tokenPool hardcap = some s' ∧
      (s'.tokenRateCaches poolId vtoken = some (issuance, tokenPool) ∨
        ∃ n, rate.2 * issuance / rate.1 < n ∧ n ≤ tokenPool ∧
          Rising s' poolId vtoken issuance tokenPool hardcap (issuance, n)) := by
  obtain ⟨s', hs'⟩ := refreshTokenRate_defined hardcap h.stored h.pool hscale hscale'
    h.denominator h.numerator hissuance htokens
  refine ⟨s', hs', ?_⟩
  obtain ⟨-, -, ⟨hskip, -⟩ | ⟨-, -, rfl⟩ | ⟨hfar, -, rfl⟩⟩ := refreshTokenRate_ok hs' h.stored
  · exact absurd hskip (not_le.mpr h.lower)
  · exact Or.inl (setRate_stored _ _ _ _)
  · right
    have hcapped := capped_le hfar
    obtain ⟨-, hrises⟩ := RateMoves.of_capped hardcap tokenPool hscale h.denominator hissuance
    have hprice := hrises h.step
    rw [min_eq_left (hcapped.trans htokens)]
    have hunits : cfg.feePrecision * ((pricesOf cfg.feePrecision hardcap rate issuance
        tokenPool).allowed * issuance / cfg.feePrecision) / issuance ≤
          (pricesOf cfg.feePrecision hardcap rate issuance tokenPool).allowed := by
      apply Nat.div_le_of_le_mul
      rw [Nat.mul_comm issuance]
      exact Nat.mul_div_le _ _
    have hdelta := scaled_div_le_of_price_lt (n := hardcap.mul cfg.feePrecision) h.denominator
      hissuance hprice
    refine ⟨_, ?_, hcapped, setRate_stored _ _ _ _, h.pool, hissuance, hcapped.trans htokens,
      hunits.trans_lt hfar, h.step.trans (Nat.mul_le_mul_right _ hdelta)⟩
    rw [Nat.div_lt_iff_lt_mul h.denominator]
    unfold price at hprice
    rw [div_lt_div_iff₀ (Nat.cast_pos.mpr h.denominator) (Nat.cast_pos.mpr hissuance)] at hprice
    exact_mod_cast hprice

theorem refreshed_moves (hscale : 0 < cfg.feePrecision) (htokens : tokenPool ≤ u128Max)
    (hrate : s.tokenRateCaches poolId vtoken = some rate)
    (hs' : refreshed poolId vtoken issuance tokenPool hardcap s = s') :
    (∃ rate', s'.tokenRateCaches poolId vtoken = some rate' ∧
        RateMoves cfg.feePrecision hardcap issuance rate rate') ∧
      ∀ id c, ¬ (id = poolId ∧ c = vtoken) →
        s'.tokenRateCaches id c = s.tokenRateCaches id c := by
  have hkept : s' = s → (∃ rate', s'.tokenRateCaches poolId vtoken = some rate' ∧
      RateMoves cfg.feePrecision hardcap issuance rate rate') ∧
        ∀ id c, ¬ (id = poolId ∧ c = vtoken) →
          s'.tokenRateCaches id c = s.tokenRateCaches id c := by
    rintro rfl
    exact ⟨⟨rate, hrate, .refl hscale⟩, fun _ _ _ => rfl⟩
  have hset : ∀ rate', s' = setRate s poolId vtoken rate' →
      RateMoves cfg.feePrecision hardcap issuance rate rate' →
        (∃ rate', s'.tokenRateCaches poolId vtoken = some rate' ∧
          RateMoves cfg.feePrecision hardcap issuance rate rate') ∧
          ∀ id c, ¬ (id = poolId ∧ c = vtoken) →
            s'.tokenRateCaches id c = s.tokenRateCaches id c := by
    rintro rate' rfl hmoves
    exact ⟨⟨rate', setRate_stored _ _ _ _, hmoves⟩, fun id c hother => setRate_others hother⟩
  unfold refreshed at hs'
  cases hrefresh : refreshTokenRate s poolId vtoken issuance tokenPool hardcap with
  | none =>
    rw [hrefresh] at hs'
    exact hkept hs'.symm
  | some s₁ =>
    rw [hrefresh, Option.getD_some] at hs'
    subst s₁
    obtain ⟨hd, hissuance, ⟨-, hsame⟩ | ⟨hnew, hle, heq⟩ | ⟨hfar, -, heq⟩⟩ :=
      refreshTokenRate_ok hrefresh hrate
    · exact hkept hsame
    · exact hset _ heq (RateMoves.of_set hscale hd hissuance hnew hle).2
    · rw [min_eq_left ((capped_le hfar).trans htokens)] at heq
      exact hset _ heq (RateMoves.of_capped _ _ hscale hd hissuance).1

theorem Rising.reaches (h : Rising s poolId vtoken issuance tokenPool hardcap rate)
    (hscale : 0 < cfg.feePrecision) (hscale' : 2 * cfg.feePrecision ≤ u128Max)
    (hissuance : 0 < issuance) (htokens : tokenPool ≤ u128Max) {left : ℕ}
    (hleft : tokenPool - rate.2 * issuance / rate.1 ≤ left) :
    ∃ k, ((refreshed poolId vtoken issuance tokenPool hardcap)^[k] s).tokenRateCaches
      poolId vtoken = some (issuance, tokenPool) := by
  induction left generalizing s rate with
  | zero =>
    obtain ⟨s', hs', hreached | ⟨n, hmore, hn, -⟩⟩ := h.refresh hscale hscale' hissuance htokens
    · refine ⟨1, ?_⟩
      rw [Function.iterate_one, refreshed, hs']
      exact hreached
    · omega
  | succ left ih =>
    obtain ⟨s', hs', hreached | ⟨n, hmore, hn, hnext⟩⟩ := h.refresh hscale hscale' hissuance htokens
    · refine ⟨1, ?_⟩
      rw [Function.iterate_one, refreshed, hs']
      exact hreached
    · have hleft' : tokenPool - n * issuance / issuance ≤ left := by
        rw [Nat.mul_div_cancel _ hissuance]
        omega
      obtain ⟨k, hk⟩ := ih hnext hleft'
      refine ⟨k + 1, ?_⟩
      rw [Function.iterate_succ_apply, refreshed, hs']
      exact hk

theorem refreshed_reached (hardcap : Permill)
    (h : s.tokenRateCaches poolId vtoken = some (issuance, tokenPool)) :
    refreshed poolId vtoken issuance tokenPool hardcap s = s := by
  unfold refreshed
  cases hs' : refreshTokenRate s poolId vtoken issuance tokenPool hardcap with
  | none => rfl
  | some s' =>
    obtain ⟨-, -, ⟨-, hsame⟩ | ⟨hnew, -⟩ | ⟨hfar, -⟩⟩ := refreshTokenRate_ok hs' h
    · exact hsame
    · exact absurd hnew (lt_irrefl _)
    · exact absurd (Nat.le_add_left _ _) (not_le.mpr hfar)

end Repeated

/-! Scaling there and back. -/

theorem calculateScaling_le (x n d : ℕ) : calculateScaling x n d ≤ x * n / d := by
  unfold calculateScaling
  cases hscaled : U256.mulDiv x n d with
  | none => exact Nat.zero_le _
  | some y =>
    obtain ⟨-, -, rfl⟩ := U256.mulDiv_eq_some.mp hscaled
    rw [Option.bind_some]
    split
    · exact Nat.le_refl _
    · exact Nat.zero_le _

theorem calculateScaling_eq {x n d : ℕ} (hx : x ≤ u128Max) (hn : n ≤ u128Max) (hd : 0 < d)
    (hfits : x * n / d ≤ u128Max) : calculateScaling x n d = x * n / d := by
  have hscaled : U256.mulDiv x n d = some (x * n / d) :=
    U256.mulDiv_eq_some.mpr ⟨U256.mul_le_limit hx hn, hd, rfl⟩
  rw [calculateScaling, hscaled, Option.bind_some, if_pos hfits]
  rfl

theorem calculateScaling_back_le (x n d : ℕ) :
    calculateScaling (calculateScaling x n d) d n ≤ x := by
  calc calculateScaling (calculateScaling x n d) d n
      ≤ calculateScaling x n d * d / n := calculateScaling_le _ _ _
    _ ≤ x * n / d * d / n :=
      Nat.div_le_div_right (Nat.mul_le_mul_right _ (calculateScaling_le x n d))
    _ ≤ x * n / n := Nat.div_le_div_right (Nat.div_mul_le_self _ _)
    _ ≤ x := Nat.div_le_of_le_mul (Nat.mul_comm x n).le

theorem lt_calculateScaling_back {x n d : ℕ} (hx : x ≤ u128Max) (hn : 0 < n)
    (hn' : n ≤ u128Max) (hd : 0 < d) (hd' : d ≤ u128Max) (hfits : x * n / d ≤ u128Max) :
    x * n < calculateScaling (calculateScaling x n d) d n * n + n + d := by
  have hback : x * n / d * d / n ≤ u128Max := by
    have hle : x * n / d * d / n ≤ x := by
      calc x * n / d * d / n ≤ x * n / n := Nat.div_le_div_right (Nat.div_mul_le_self _ _)
        _ = x := Nat.mul_div_cancel x hn
    exact hle.trans hx
  rw [calculateScaling_eq hx hn' hd hfits, calculateScaling_eq hfits hd' hn hback]
  have hup := Nat.lt_div_mul_add (a := x * n) hd
  have hdown := Nat.lt_div_mul_add (a := x * n / d * d) hn
  omega

section Rates

variable {s : State cfg} {m : Minting} {tokenRateHardcap : CurrencyId → Option Permill}
  {poolId issuance tokenPool : ℕ} {tokenIn tokenOut vtoken : CurrencyId} {hardcap : Permill}
  {rate : ℕ × ℕ}

/-- After a swap, the rate of its vToken stays within the hard cap and less than a unit of
`1 / FeePrecision`, does not fall where the hard cap is worth such a unit and a token, and is what
the vTokens are worth after finitely many such swaps from a unit below. Scaling an amount up and
down at any rate gives no more back, and loses less than a unit of either kind where the scaled
amount is in range. -/
theorem token_rate_follows (hscale : 0 < cfg.feePrecision)
    (hentry : ensureCanRefresh m tokenRateHardcap tokenIn tokenOut =
      some (vtoken, issuance, tokenPool, hardcap)) (htokens : tokenPool ≤ u128Max)
    (hrate : s.tokenRateCaches poolId vtoken = some rate) :
    (∃ rate', (afterSwap m tokenRateHardcap poolId tokenIn tokenOut s).tokenRateCaches poolId
        vtoken = some rate' ∧ RateMoves cfg.feePrecision hardcap issuance rate rate') ∧
      (∀ id c, ¬ (id = poolId ∧ c = vtoken) →
        (afterSwap m tokenRateHardcap poolId tokenIn tokenOut s).tokenRateCaches id c =
          s.tokenRateCaches id c) ∧
      (Rising s poolId vtoken issuance tokenPool hardcap rate → 0 < issuance →
        2 * cfg.feePrecision ≤ u128Max → ∃ k, ∀ j, k ≤ j →
          ((afterSwap m tokenRateHardcap poolId tokenIn tokenOut)^[j] s).tokenRateCaches poolId
            vtoken = some (issuance, tokenPool)) ∧
      ∀ id c rate x, s.tokenRateCaches id c = some rate →
        ∃ up back, upscale s x id c = .ok up ∧ downscale s up id c = .ok back ∧ back ≤ x ∧
          (x ≤ u128Max → 0 < rate.1 → rate.1 ≤ u128Max → 0 < rate.2 → rate.2 ≤ u128Max →
            x * rate.2 / rate.1 ≤ u128Max → x * rate.2 < back * rate.2 + rate.2 + rate.1) := by
  have hswap : afterSwap m tokenRateHardcap poolId tokenIn tokenOut =
      @refreshed _ cfg poolId vtoken issuance tokenPool hardcap := by
    funext s
    simp only [afterSwap, hentry]
  have hmoves := refreshed_moves hscale htokens hrate (congrFun hswap s).symm
  refine ⟨hmoves.1, hmoves.2, ?_, ?_⟩
  · intro hrising hissuance hscale'
    obtain ⟨k, hk⟩ := hrising.reaches hscale hscale' hissuance htokens (Nat.le_refl _)
    rw [← hswap] at hk
    have hfixed := (congrFun hswap _).trans (refreshed_reached hardcap hk)
    refine ⟨k, ?_⟩
    intro j hj
    obtain ⟨i, rfl⟩ := Nat.exists_eq_add_of_le' hj
    rw [Function.iterate_add_apply, Function.iterate_fixed hfixed]
    exact hk
  · intro id c rate x hrate
    refine ⟨calculateScaling x rate.2 rate.1, _, ?_, ?_,
      calculateScaling_back_le x rate.2 rate.1, ?_⟩
    · simp only [upscale, hrate, bind_eq_ok, okOr_eq_ok, pure_eq_ok]
      exact ⟨rate, rfl, rfl⟩
    · simp only [downscale, hrate, bind_eq_ok, okOr_eq_ok, pure_eq_ok]
      exact ⟨rate, rfl, rfl⟩
    · intro hx hd hd' hn hn' hfits
      exact lt_calculateScaling_back hx hn hn' hd hd' hfits

end Rates

namespace Sample

open StableAsset.Sample

def token : CurrencyId := .token2 0

def vtoken : CurrencyId := .vToken2 0

/-- A pool that counts the vToken at `rate`. -/
def rated (rate : ℕ × ℕ) : State config :=
  Machine.run step start (opened ++ [.setTokenRate 0 [(vtoken, rate)]])

def minting (issuance tokenPool : ℕ) : Minting where
  convertToToken := fun c => if c = vtoken then some token else none
  vCurrencyIssuance := fun _ => some issuance
  tokenPool := fun _ => tokenPool

/-- A swap of the vToken for its token, with a hard cap of `parts` millionths. -/
def swap (issuance tokenPool : ℕ) (hardcap : Permill) : State config → State config :=
  afterSwap (minting issuance tokenPool) (fun c => if c = vtoken then some hardcap else none) 0
    vtoken token

end Sample

/-- A rate of 1 and a hard cap of 1% follow vTokens that are worth 1.5. -/
theorem token_rate_follows_sample :
    let s := Sample.rated (1000000000000, 1000000000000)
    let swap := Sample.swap 1000000000000 1500000000000 (.fromPercent 1)
    (∃ rate', (swap s).tokenRateCaches 0 Sample.vtoken = some rate' ∧
        RateMoves 10000000000 (.fromPercent 1) 1000000000000 (1000000000000, 1000000000000)
          rate') ∧
      ∃ k, ∀ j, k ≤ j → (swap^[j] s).tokenRateCaches 0 Sample.vtoken =
        some (1000000000000, 1500000000000) := by
  intro s swap
  have hrate : s.tokenRateCaches 0 Sample.vtoken = some (1000000000000, 1000000000000) := by
    decide
  have hentry : ensureCanRefresh (Sample.minting 1000000000000 1500000000000)
      (fun c => if c = Sample.vtoken then some (.fromPercent 1) else none) Sample.vtoken
      Sample.token = some (Sample.vtoken, 1000000000000, 1500000000000, .fromPercent 1) := by
    decide
  have hrising : Rising s 0 Sample.vtoken 1000000000000 1500000000000 (.fromPercent 1)
      (1000000000000, 1000000000000) :=
    ⟨hrate, by decide, by decide, by decide, by decide, by decide⟩
  have hfollows := token_rate_follows (by decide) hentry (by decide) hrate
  exact ⟨hfollows.1, hfollows.2.2.1 hrising (by decide) (by decide)⟩

/-- A cap for three issued vTokens lowers the rate from 1.5 to 4 / 3; a rate within the cap of a
millionth exceeds it; a rate a hundredth of a unit behind stays there; 5 at a tenth and a quarter
of all at the rate 4 scale to nothing. -/
theorem token_rate_strays :
    (Sample.swap 3 30 (.fromPercent 1) (Sample.rated (10, 15))).tokenRateCaches 0
        Sample.vtoken = some (3, 4) ∧ price (3, 4) < price (10, 15) ∧
      (Sample.swap 20000000000 20000020001 ⟨1, by decide⟩
        (Sample.rated (10000000000, 10000000000))).tokenRateCaches 0 Sample.vtoken =
          some (20000000000, 20000020001) ∧
      price (10000000000, 10000000000) * (1 + 1 / 1000000) < price (20000000000, 20000020001) ∧
      (∀ k, ((Sample.swap 1000000000000 1000000000001 (.fromPercent 1))^[k]
        (Sample.rated (1, 1))).tokenRateCaches 0 Sample.vtoken = some (1, 1)) ∧
      price (1, 1) < price (1000000000000, 1000000000001) ∧
      upscale (Sample.rated (10, 1)) 5 0 Sample.vtoken = .ok 0 ∧
      upscale (Sample.rated (1, 4)) (2 ^ 126) 0 Sample.vtoken = .ok 0 := by
  refine ⟨by decide, by norm_num [price], by decide, by norm_num [price], ?_, by norm_num [price],
    by decide, by decide⟩
  have hfixed : Sample.swap 1000000000000 1000000000001 (.fromPercent 1) (Sample.rated (1, 1)) =
      Sample.rated (1, 1) := by
    rfl
  intro k
  rw [Function.iterate_fixed hfixed]
  decide

end StablePool

end Bifrost
