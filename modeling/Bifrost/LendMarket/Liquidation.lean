import Bifrost.LendMarket.Earned
import Bifrost.LendMarket.Shortfall

/-!
# Whether a liquidation completes

Once its checks pass, a liquidation subtracts the repaid amount from the borrower's debt and
from the total borrows, the seized vouchers from the borrower's and the reserved share from the
seized ones. The vouchers always suffice; the total borrows, which accrue interest in another
way than the debts, need not, and a market's incentive may be too small for its reserve factor.
-/

namespace Bifrost.LendMarket

open Result Machine Rounding
set_option autoImplicit false

variable {AccountId : Type} {cfg : Config AccountId} {s s' s₁ s₂ : State cfg}
  {asset collateral : CurrencyId} {n debt amount seized : ℕ} {market : Market}

/-! The vouchers that are seized. -/

theorem mul_div_of_le_mul_div {a p x d : ℕ} (h : x ≤ p * a / d) : x * d / p ≤ a :=
  Nat.div_le_of_le_mul (Nat.mul_le_of_le_div _ _ _ h)

/-- The vouchers that `n` of `asset` with the incentive are worth. -/
def State.vouchersFor (s : State cfg) (asset : CurrencyId) (n : ℕ) (collateral : CurrencyId)
    (incentive : FixedU128) : ℕ :=
  amountOf (s.getAssetValue asset n) * incentive.inner / FixedU128.accuracy *
    FixedU128.accuracy / amountOf (s.getPrice collateral) *
    FixedU128.accuracy / amountOf (s.exchangeRateStored collateral)

/-- The share of the incentive account is defined and within the seized vouchers. -/
def Market.ReservesWithin (market : Market) (seized : ℕ) : Prop :=
  0 < market.liquidateIncentive.inner ∧
    seized * FixedU128.accuracy / market.liquidateIncentive.inner ≤ u128Max ∧
    market.liquidateIncentiveReservedFactor.mulFloor
      (seized * FixedU128.accuracy / market.liquidateIncentive.inner) ≤ seized

theorem incentiveReservedAmount_eq_ok {reserved : ℕ} :
    incentiveReservedAmount market seized = .ok reserved ↔
      0 < market.liquidateIncentive.inner ∧
        seized * FixedU128.accuracy / market.liquidateIncentive.inner ≤ u128Max ∧
        market.liquidateIncentiveReservedFactor.mulFloor
          (seized * FixedU128.accuracy / market.liquidateIncentive.inner) = reserved := by
  simp only [incentiveReservedAmount, FixedU128.checkedDiv, bind_eq_ok, okOr_eq_ok, pure_eq_ok,
    Option.map_eq_some_iff, U128.mulDiv_eq_some]
  constructor
  · rintro ⟨_, ⟨_, ⟨hpos, rfl, hle⟩, rfl⟩, rfl⟩
    exact ⟨hpos, hle, rfl⟩
  · rintro ⟨hpos, hle, rfl⟩
    exact ⟨_, ⟨_, ⟨hpos, rfl, hle⟩, rfl⟩, rfl⟩

theorem reservesWithin_iff : market.ReservesWithin seized ↔
    ∃ reserved, incentiveReservedAmount market seized = .ok reserved ∧ reserved ≤ seized := by
  constructor
  · rintro ⟨hpos, hfits, hle⟩
    exact ⟨_, incentiveReservedAmount_eq_ok.mpr ⟨hpos, hfits, rfl⟩, hle⟩
  · rintro ⟨reserved, h, hle⟩
    obtain ⟨hpos, hfits, rfl⟩ := incentiveReservedAmount_eq_ok.mp h
    exact ⟨hpos, hfits, hle⟩

theorem reservesWithin_of_incentive (hfits : seized ≤ u128Max)
    (hincentive : FixedU128.accuracy ≤ market.liquidateIncentive.inner) :
    market.ReservesWithin seized := by
  have hpos : 0 < FixedU128.accuracy := by decide
  have hdiv : seized * FixedU128.accuracy / market.liquidateIncentive.inner ≤ seized :=
    Nat.div_le_of_le_mul (by rw [Nat.mul_comm]; exact Nat.mul_le_mul_right _ hincentive)
  refine ⟨by omega, by omega, ?_⟩
  exact (market.liquidateIncentiveReservedFactor.mulFloor_le _).trans hdiv

theorem incentiveReservedAmount_le_max {reserved : ℕ}
    (h : incentiveReservedAmount market seized = .ok reserved) : reserved ≤ u128Max := by
  obtain ⟨-, hfits, rfl⟩ := incentiveReservedAmount_eq_ok.mp h
  exact (market.liquidateIncentiveReservedFactor.mulFloor_le _).trans hfits

theorem lt_wrappingSub {a b : ℕ} (hlt : a < b) (hb : b ≤ u128Max) : a < U128.wrappingSub a b := by
  unfold U128.wrappingSub u128Max at *
  rw [Nat.mod_eq_of_lt (by omega)]
  omega

section Checks

theorem exchangeRateStored_pos {rate : FixedU128}
    (h : s.exchangeRateStored collateral = .ok rate) : 0 < rate.inner := by
  have hmin : 0 < minExchangeRate.inner := by decide
  rcases Nat.eq_zero_or_pos (s.totalSupply collateral) with hzero | hpos
  · rw [State.exchangeRateStored, calculateExchangeRate, if_pos hzero] at h
    cases h
    exact hmin
  · obtain ⟨-, -, hle, -⟩ := calculateExchangeRate_ok h hpos
    omega

variable [DecidableEq AccountId] {liquidator borrower : AccountId}

theorem liquidatedUnderlying_ok
    (h : liquidatedUnderlying s borrower asset n collateral market = .ok amount) :
    ∃ rate, s.exchangeRateStored collateral = .ok rate ∧
      s.vouchersFor asset n collateral market.liquidateIncentive =
        amount * FixedU128.accuracy / rate.inner ∧
      s.vouchersFor asset n collateral market.liquidateIncentive ≤
        s.vouchersOf collateral borrower := by
  simp only [liquidatedUnderlying, bind_eq_ok, okOr_eq_ok, pure_eq_ok, FixedU128.checkedMulInt,
    FixedU128.checkedMul, FixedU128.checkedDiv, Option.map_eq_some_iff, U128.mulDiv_eq_some,
    ensure_eq_ok] at h
  obtain ⟨_, -, rate, hrate, deposit, ⟨-, hdeposit, -⟩, value, hvalue, repaid, hrepaid, _,
    ⟨_, ⟨-, rfl, -⟩, rfl⟩, _, hcovered, price, hprice, _, ⟨_, ⟨-, rfl, -⟩, rfl⟩, rfl⟩ := h
  obtain ⟨price', hprice', hworth⟩ := getAssetValue_ok hvalue
  rw [(getPrice_ok hprice).1] at hprice'
  cases hprice'
  have hamount : s.vouchersFor asset n collateral market.liquidateIncentive =
      repaid.inner * market.liquidateIncentive.inner / FixedU128.accuracy * FixedU128.accuracy /
        price.inner * FixedU128.accuracy / rate.inner := by
    rw [State.vouchersFor, hrepaid, hprice, hrate]
    rfl
  refine ⟨rate, hrate, hamount, ?_⟩
  rw [hamount]
  apply mul_div_of_le_mul_div
  rw [hworth, valueAt] at hcovered
  exact (mul_div_of_le_mul_div hcovered).trans hdeposit.symm.le

/-! The two halves. -/

def State.repaid (s : State cfg) (borrower : AccountId) (asset : CurrencyId) (debt n : ℕ) :
    State cfg :=
  (s.setBorrows asset borrower (debt - n)).setTotalBorrows asset (s.totalBorrows asset - n)

theorem repayForBorrower_eq_ok (hsettled : s.settleBorrower asset liquidator = .ok s₁)
    (hpaid : s₁.transfer asset liquidator cfg.accountId n .expendable = .ok s₂)
    (hdebt : s.currentBorrowBalance borrower asset = .ok debt) :
    repayForBorrower s liquidator borrower asset n = .ok s' ↔
      n ≤ debt ∧ n ≤ s.totalBorrows asset ∧ s' = s₂.repaid borrower asset debt n := by
  have hdebt₂ : s₂.currentBorrowBalance borrower asset = .ok debt := by
    obtain ⟨rewards, rfl⟩ := settleBorrower_ok hsettled
    obtain ⟨L, -, rfl⟩ := transfer_ok hpaid
    exact hdebt
  have htotal : s₂.totalBorrows = s.totalBorrows := by
    obtain ⟨rewards, rfl⟩ := settleBorrower_ok hsettled
    obtain ⟨L, -, rfl⟩ := transfer_ok hpaid
    rfl
  constructor
  · intro h
    obtain ⟨_, _, borrows, ⟨_, -, h₁⟩, h₂, hborrows, hle, hle', rfl⟩ := repayForBorrower_ok h
    cases hsettled.symm.trans h₁
    cases hpaid.symm.trans h₂
    cases hdebt₂.symm.trans hborrows
    rw [htotal] at hle'
    exact ⟨hle, hle', rfl⟩
  · rintro ⟨hle, hle', rfl⟩
    simp only [State.settleBorrower, bind_eq_ok] at hsettled
    obtain ⟨t, ht, h₁⟩ := hsettled
    rw [← htotal] at hle'
    simp only [repayForBorrower, bind_eq_ok, okOr_eq_ok, pure_eq_ok, U128.checkedSub_eq_some]
    exact ⟨t, ht, s₁, h₁, s₂, hpaid, debt, hdebt₂, _, ⟨hle, rfl⟩, _, ⟨hle', rfl⟩, rfl⟩

omit [DecidableEq AccountId] in
theorem calculateExchangeRate_sum {supply reserves cash cash' borrows borrows' : ℕ}
    (h : cash' + borrows' = cash + borrows) :
    calculateExchangeRate supply cash' borrows' reserves =
      calculateExchangeRate supply cash borrows reserves := by
  simp only [calculateExchangeRate, U128.checkedAdd, h]

theorem repaid_rate (hliquidator : liquidator ≠ cfg.accountId)
    (hsettled : s.settleBorrower asset liquidator = .ok s₁)
    (hpaid : s₁.transfer asset liquidator cfg.accountId n .expendable = .ok s₂)
    (hle : n ≤ s.totalBorrows asset) (c : CurrencyId) :
    (s₂.repaid borrower asset debt n).exchangeRateStored c = s.exchangeRateStored c := by
  have hcash := (cash_received hpaid).2.1 hliquidator
  have hpool := transfer_poolOf hpaid
  have hcash₁ : s₁.getTotalCash = s.getTotalCash := by
    obtain ⟨rewards, rfl⟩ := settleBorrower_ok hsettled
    rfl
  obtain ⟨hsupply, hborrows, hreserves⟩ : s₂.totalSupply = s.totalSupply ∧
      s₂.totalBorrows = s.totalBorrows ∧ s₂.totalReserves = s.totalReserves := by
    obtain ⟨rewards, rfl⟩ := settleBorrower_ok hsettled
    obtain ⟨L, -, rfl⟩ := transfer_ok hpaid
    exact ⟨rfl, rfl, rfl⟩
  have hsum : s₂.getTotalCash c +
      Function.update s₂.totalBorrows asset (s₂.totalBorrows asset - n) c =
        s.getTotalCash c + s.totalBorrows c := by
    rw [hborrows]
    by_cases hc : c = asset
    · subst c
      rw [Function.update_self, hcash, hcash₁]
      omega
    · have hsame := congrArg Pool.cash (congrFun hpool c)
      rw [Function.update_of_ne hc] at hsame
      have hsame' : s₂.getTotalCash c = s₁.getTotalCash c := hsame
      rw [Function.update_of_ne hc, hsame', hcash₁]
  show calculateExchangeRate (s₂.totalSupply c) (s₂.getTotalCash c) _ (s₂.totalReserves c) = _
  rw [hsupply, hreserves]
  exact calculateExchangeRate_sum hsum

/-! The vouchers of each account. -/

theorem addVouchers_of_room {who : AccountId} (h : s.circulating asset + n ≤ u128Max) :
    ∃ s', s.addVouchers asset who n = .ok s' := by
  have hle := voucherBalance_le_circulating s asset who
  simp only [State.addVouchers, bind_eq_ok, okOr_eq_ok, pure_eq_ok, U128.checkedAdd_eq_some]
  exact ⟨_, _, ⟨rfl, by omega⟩, rfl⟩

theorem seizeVouchers_of_le {who : AccountId} (h : n ≤ s.vouchersOf asset who) :
    ∃ s', s.seizeVouchers asset who n = .ok s' := by
  simp only [State.seizeVouchers, bind_eq_ok, okOr_eq_ok, pure_eq_ok, U128.checkedSub_eq_some]
  exact ⟨_, _, ⟨h, rfl⟩, rfl⟩

/-- What the borrower gives up, and what the liquidator and the incentive account receive. -/
def Seizes (s s' : State cfg) (liquidator borrower : AccountId) (collateral : CurrencyId)
    (seized given reserved : ℕ) : Prop :=
  ∀ x, s'.vouchersOf collateral x + (if x = borrower then seized else 0) =
    s.vouchersOf collateral x + (if x = liquidator then given else 0) +
      if x = cfg.incentiveRewardAccountId then reserved else 0

theorem seizeCollateral_seizes
    (h : seizeCollateral s liquidator borrower collateral amount market = .ok s') :
    ∃ rate seized reserved, s.exchangeRateStored collateral = .ok rate ∧
      calcCollateralAmount amount rate = .ok seized ∧
      incentiveReservedAmount market seized = .ok reserved ∧
      Seizes s s' liquidator borrower collateral seized (U128.wrappingSub seized reserved)
        reserved := by
  obtain ⟨_, s₂, s₃, rate, seized, reserved, ⟨rewards, rfl, -⟩, hrate, hseized, h₂, hreserved, h₃,
    h₄⟩ := seizeCollateral_ok h
  refine ⟨rate, seized, reserved, hrate, hseized, hreserved, ?_⟩
  intro x
  have hsettled : (s.withRewards rewards).vouchersOf collateral x = s.vouchersOf collateral x := rfl
  have htaken := seizeVouchers_vouchersOf h₂ collateral x
  have hgiven := addVouchers_vouchersOf h₃ collateral x
  have hkept := addVouchers_vouchersOf h₄ collateral x
  simp only [true_and] at htaken hgiven hkept
  omega

theorem seizeCollateral_of_le {reserved : ℕ} {rate : FixedU128}
    (hsettled : (s.settleSuppliers collateral
      [liquidator, borrower, cfg.incentiveRewardAccountId]).toBool = true)
    (hrate : s.exchangeRateStored collateral = .ok rate)
    (hseized : calcCollateralAmount amount rate = .ok seized)
    (hheld : seized ≤ s.vouchersOf collateral borrower)
    (hreserved : incentiveReservedAmount market seized = .ok reserved) (hle : reserved ≤ seized)
    (hroom : s.circulating collateral ≤ u128Max) :
    ∃ s', seizeCollateral s liquidator borrower collateral amount market = .ok s' := by
  obtain ⟨s₁, h₁⟩ := exists_of_toBool hsettled
  have hwrap := (U128.wrappingSub_add_iff (calcCollateralAmount_le hseized)).mpr hle
  obtain ⟨rewards, rfl⟩ := settleSuppliers_ok h₁
  have hheld₁ : seized ≤ (s.withRewards rewards).vouchersOf collateral borrower := hheld
  obtain ⟨s₂, h₂⟩ := seizeVouchers_of_le hheld₁
  have htaken : s₂.circulating collateral + seized = s.circulating collateral + 0 :=
    (seizeVouchers_moves h₂).circulating
  obtain ⟨s₃, h₃⟩ : ∃ s₃, s₂.addVouchers collateral liquidator
      (U128.wrappingSub seized reserved) = .ok s₃ := addVouchers_of_room (by omega)
  have hgiven := (addVouchers_moves h₃).circulating
  obtain ⟨s₄, h₄⟩ : ∃ s₄, s₃.addVouchers collateral cfg.incentiveRewardAccountId reserved =
      .ok s₄ := addVouchers_of_room (by omega)
  refine ⟨s₄, ?_⟩
  simp only [State.settleSuppliers, List.foldlM_cons, List.foldlM_nil, bind_eq_ok,
    pure_eq_ok] at h₁
  obtain ⟨t, ht, t₁, ht₁, t₂, ht₂, t₃, ht₃, rfl⟩ := h₁
  simp only [seizeCollateral, bind_eq_ok]
  exact ⟨t, ht, t₁, ht₁, t₂, ht₂, _, ht₃, rate, hrate, seized, hseized, s₂, h₂, reserved, hreserved,
    s₃, h₃, h₄⟩

/-- The checks of a liquidation pass: the markets are active, the borrower has a shortfall, the
close factor allows the amount and the collateral covers it. The liquidator pays and the rewards
are settled; what is left are the subtractions. -/
structure Proceeds (s : State cfg) (liquidator borrower : AccountId) (asset : CurrencyId) (n : ℕ)
    (collateral : CurrencyId) (market : Market) (debt : ℕ) : Prop where
  signed : liquidator ≠ cfg.accountId
  other : borrower ≠ liquidator
  active : (s.ensureActiveMarket asset).toBool = true
  collateralActive : (s.ensureActiveMarket collateral).toBool = true
  terms : s.market asset = .ok market
  allowed : s.liquidateBorrowAllowed borrower asset n market = .ok ()
  covered : (liquidatedUnderlying s borrower asset n collateral market).toBool = true
  owed : s.currentBorrowBalance borrower asset = .ok debt
  paid : ∃ s₁ s₂, s.settleBorrower asset liquidator = .ok s₁ ∧
    s₁.transfer asset liquidator cfg.accountId n .expendable = .ok s₂ ∧
    ((s₂.repaid borrower asset debt n).settleSuppliers collateral
      [liquidator, borrower, cfg.incentiveRewardAccountId]).toBool = true
  room : s.circulating collateral ≤ u128Max

/-- After the checks, the vouchers that the repayment is worth are vouchers the borrower has. The
liquidation completes, and gives what it takes, if and only if the repaid amount is within the
debt and within the total borrows and the market's reserve within the vouchers. -/
theorem liquidation_completes_iff
    (h : Proceeds s liquidator borrower asset n collateral market debt) :
    let seized := s.vouchersFor asset n collateral market.liquidateIncentive
    seized ≤ s.vouchersOf collateral borrower ∧
      ((∃ s' reserved, doLiquidateBorrow s liquidator borrower asset n collateral = .ok s' ∧
          reserved ≤ seized ∧
          Seizes s s' liquidator borrower collateral seized (seized - reserved) reserved) ↔
        n ≤ debt ∧ n ≤ s.totalBorrows asset ∧ market.ReservesWithin seized) := by
  intro seized
  obtain ⟨amount, hamount⟩ := exists_of_toBool h.covered
  obtain ⟨rate, hrate, hvouchers, hheld⟩ := liquidatedUnderlying_ok hamount
  change seized = _ at hvouchers
  change seized ≤ _ at hheld
  clear_value seized
  obtain ⟨s₁, s₂, hsettled, hpaid, hsuppliers⟩ := h.paid
  have hdeposits : (s₂.repaid borrower asset debt n).accountDeposits = s.accountDeposits := by
    obtain ⟨rewards, rfl⟩ := settleBorrower_ok hsettled
    obtain ⟨L, -, rfl⟩ := transfer_ok hpaid
    rfl
  have hsame : ∀ x, (s₂.repaid borrower asset debt n).vouchersOf collateral x =
      s.vouchersOf collateral x := by
    intro x
    simp only [State.vouchersOf, State.depositsOf, hdeposits]
  have hrate' : n ≤ s.totalBorrows asset →
      (s₂.repaid borrower asset debt n).exchangeRateStored collateral = .ok rate :=
    fun hle => (repaid_rate h.signed hsettled hpaid hle collateral).trans hrate
  refine ⟨hheld, ?_⟩
  constructor
  · rintro ⟨s', reserved, hok, hle, hseizes⟩
    simp only [doLiquidateBorrow, bind_eq_ok, ensure_eq_ok] at hok
    obtain ⟨_, -, _, -, _, hmarket, _, -, _, -, _, hamount', t, hrepaid, hseized⟩ := hok
    cases h.terms.symm.trans hmarket
    cases hamount.symm.trans hamount'
    obtain ⟨hdebt, htotal, rfl⟩ := (repayForBorrower_eq_ok hsettled hpaid h.owed).mp hrepaid
    obtain ⟨rate', v, r, hrate₁, hv, hr, hmoved⟩ := seizeCollateral_seizes hseized
    cases (hrate' htotal).symm.trans hrate₁
    obtain rfl := (calcCollateralAmount_ok hv).trans hvouchers.symm
    refine ⟨hdebt, htotal, reservesWithin_iff.mpr ⟨r, hr, ?_⟩⟩
    have hmoved' := hmoved liquidator
    have hseizes' := hseizes liquidator
    rw [hsame, if_neg h.other.symm, if_pos rfl] at hmoved'
    rw [if_neg h.other.symm, if_pos rfl] at hseizes'
    have hmax := calcCollateralAmount_le hv
    by_contra hmore
    have hbig := lt_wrappingSub (Nat.lt_of_not_le hmore) (incentiveReservedAmount_le_max hr)
    have hsum := mt (U128.wrappingSub_add_iff hmax).mp hmore
    split at hmoved'
    · rw [if_pos (by assumption)] at hseizes'
      omega
    · rw [if_neg (by assumption)] at hseizes'
      omega
  · rintro ⟨hdebt, htotal, hwithin⟩
    obtain ⟨reserved, hreserved, hle⟩ := reservesWithin_iff.mp hwithin
    have hrepaid := (repayForBorrower_eq_ok hsettled hpaid h.owed).mpr ⟨hdebt, htotal, rfl⟩
    have hcirculating : (s₂.repaid borrower asset debt n).circulating collateral =
        s.circulating collateral := by
      rw [State.circulating, hdeposits]
      rfl
    have hmax : seized ≤ u128Max :=
      (hheld.trans (voucherBalance_le_circulating s collateral borrower)).trans h.room
    have hseized : calcCollateralAmount amount rate = .ok seized := by
      simp only [calcCollateralAmount, FixedU128.checkedDiv, okOr_eq_ok, Option.map_eq_some_iff,
        U128.mulDiv_eq_some]
      exact ⟨⟨seized⟩, ⟨seized, ⟨exchangeRateStored_pos hrate, hvouchers.symm, hmax⟩, rfl⟩, rfl⟩
    obtain ⟨s', hs'⟩ := seizeCollateral_of_le hsuppliers (hrate' htotal) hseized
      ((hsame borrower).symm ▸ hheld) hreserved hle (hcirculating.le.trans h.room)
    obtain ⟨rate', v, r, hrate₁, hv, hr, hmoved⟩ := seizeCollateral_seizes hs'
    cases (hrate' htotal).symm.trans hrate₁
    cases hseized.symm.trans hv
    cases hreserved.symm.trans hr
    obtain ⟨_, hactive⟩ := exists_of_toBool h.active
    obtain ⟨_, hcollateral⟩ := exists_of_toBool h.collateralActive
    refine ⟨s', reserved, ?_, hle, ?_⟩
    · simp only [doLiquidateBorrow, bind_eq_ok, ensure_eq_ok]
      exact ⟨_, hactive, _, hcollateral, market, h.terms, (), h.other, (), h.allowed, amount,
        hamount, _, hrepaid, hs'⟩
    · intro x
      have hwrap := (U128.wrappingSub_add_iff hmax).mpr hle
      have hgiven : U128.wrappingSub seized reserved = seized - reserved := by omega
      have hx := hmoved x
      rw [hsame, hgiven] at hx
      exact hx

end Checks

namespace Sample

/-- Account 1 borrows 5000 DOT, which can be repaid at once. In two days of 25 hours its debt
gains one, of which the total borrows see nothing. -/
def drifted : List (Call ℕ) :=
  [.addMarket dot { Sample.market with closeFactor := .fromPercent 100 }, .activateMarket dot,
    .addMarket ksm { Sample.market with lendTokenId := .lend 1 }, .activateMarket ksm,
    .addMarketBond dot [ksm], .mint 2 dot 10000, .mint 1 ksm 10000, .collateralAsset 1 ksm true,
    .borrow 1 dot 5000, .advance 90000 1, .accrueInterest dot, .advance 90000 1,
    .accrueInterest dot, .setPrice ksm (some ⟨900000000000000000⟩)]

end Sample

theorem liquidation_completes_sample :
    let s := run step Sample.wealthy (Sample.underwater ⟨1100000000000000000⟩)
    ∃ s' reserved, doLiquidateBorrow s 3 1 Sample.dot 2000 Sample.ksm = .ok s' ∧
      reserved ≤ 122200 ∧ Seizes s s' 3 1 Sample.ksm 122200 (122200 - reserved) reserved := by
  intro s
  let market : Market := { Sample.market with state := .active }
  have hsteps : (do
      let s₁ ← s.settleBorrower Sample.dot 3
      let s₂ ← s₁.transfer Sample.dot 3 100 2000 .expendable
      (s₂.repaid 1 Sample.dot 5000 2000).settleSuppliers Sample.ksm [3, 1, 102]).toBool = true := by
    decide +kernel
  have hproceeds : Proceeds s 3 1 Sample.dot 2000 Sample.ksm market 5000 := by
    refine ⟨by decide, by decide, by decide +kernel, by decide +kernel, by decide +kernel,
      by decide +kernel, by decide +kernel, by decide +kernel, ?_, by decide +kernel⟩
    obtain ⟨_, h⟩ := exists_of_toBool hsteps
    simp only [bind_eq_ok] at h
    obtain ⟨s₁, h₁, s₂, h₂, h₃⟩ := h
    refine ⟨s₁, s₂, h₁, h₂, ?_⟩
    exact congrArg Except.toBool h₃
  have hseized : s.vouchersFor Sample.dot 2000 Sample.ksm market.liquidateIncentive = 122200 := by
    decide +kernel
  have htotal : s.totalBorrows Sample.dot = 5000 := by decide +kernel
  have hcompletes := (liquidation_completes_iff hproceeds).2
  rw [hseized, htotal] at hcompletes
  exact hcompletes.mpr
    ⟨by decide, by decide, reservesWithin_of_incentive (by decide) (by decide)⟩

/-- The borrower owes 5001 of total borrows of 5000. A liquidator who repays the debt passes all
checks and fails with an underflow; the borrower could repay it. -/
theorem liquidation_stuck :
    let s := run step Sample.wealthy Sample.drifted
    s.currentBorrowBalance 1 Sample.dot = .ok 5001 ∧ s.totalBorrows Sample.dot = 5000 ∧
      (s.getAccountLiquidationThresholdLiquidity 1).map (fun l => l.shortfall.inner) = .ok 51 ∧
      (do
        let market ← s.market Sample.dot
        s.liquidateBorrowAllowed 1 Sample.dot 5001 market
        liquidatedUnderlying s 1 Sample.dot 5001 Sample.ksm market) = .ok 6112 ∧
      (doLiquidateBorrow s 3 1 Sample.dot 5001 Sample.ksm).map (fun _ => ()) =
        .error .underflow ∧
      (doLiquidateBorrow s 3 1 Sample.dot 5000 Sample.ksm).toBool = true ∧
      (doRepayBorrow s 1 Sample.dot 5001).toBool = true :=
  ⟨by decide +kernel, by decide +kernel, by decide +kernel, by decide +kernel, by decide +kernel,
    by decide +kernel, by decide +kernel⟩

end Bifrost.LendMarket
