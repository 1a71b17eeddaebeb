import Bifrost.Lib.Rounding
import Bifrost.LendMarket.Conservation

/-!
# What collateral and debts are worth

A deposit counts as collateral with the value of a factor of the underlying asset of its
vouchers, each step rounded. These are the readers of `Liquidity` in terms of such values: what
an account's totals are sums of, and how a value moves with the rate, the factor and the
vouchers.
-/

namespace Bifrost.LendMarket

open Result Rounding
set_option autoImplicit false

def valueAt (price n : ℕ) : ℕ := price * n / FixedU128.accuracy

def underlyingAt (rate vouchers : ℕ) : ℕ := vouchers * rate / FixedU128.accuracy

def worth (price rate : ℕ) (factor : Permill) (vouchers : ℕ) : ℕ :=
  valueAt price (factor.mulCeil (underlyingAt rate vouchers))

section Arithmetic

variable {price rate rate' m n vouchers withdrawn : ℕ} {factor factor' : Permill}

theorem valueAt_mono (h : m ≤ n) : valueAt price m ≤ valueAt price n :=
  Nat.div_le_div_right (Nat.mul_le_mul_left price h)

theorem valueAt_add_le : valueAt price (m + n) ≤ valueAt price m + valueAt price n + 1 := by
  unfold valueAt
  rw [Nat.mul_add]
  exact div_add_le (by decide) _ _

@[simp] theorem valueAt_zero : valueAt price 0 = 0 := by
  simp [valueAt]

@[simp] theorem worth_zero : worth price rate factor 0 = 0 := by
  simp [worth, underlyingAt, Permill.mulCeil, U128.divCeil]

theorem underlyingAt_mono (hrate : rate ≤ rate') (h : m ≤ n) :
    underlyingAt rate m ≤ underlyingAt rate' n :=
  Nat.div_le_div_right (Nat.mul_le_mul h hrate)

theorem worth_mono (hrate : rate ≤ rate') (hfactor : factor.parts ≤ factor'.parts) (h : m ≤ n) :
    worth price rate factor m ≤ worth price rate' factor' n := by
  apply valueAt_mono
  exact (Permill.mulCeil_mono factor (underlyingAt_mono hrate h)).trans
    (Permill.mulCeil_le_mulCeil hfactor _)

/-- Vouchers that are withdrawn take their own worth with them, and the rounding of a minimal
unit and of two values. -/
theorem worth_withdraw (h : withdrawn ≤ vouchers) :
    worth price rate factor vouchers ≤ worth price rate factor (vouchers - withdrawn) +
      worth price rate factor withdrawn + (price / FixedU128.accuracy + 2) := by
  have hunder : underlyingAt rate vouchers ≤
      underlyingAt rate (vouchers - withdrawn) + underlyingAt rate withdrawn + 1 := by
    have hsplit := div_add_le (c := FixedU128.accuracy) (by decide) ((vouchers - withdrawn) * rate)
      (withdrawn * rate)
    rw [← Nat.add_mul, Nat.sub_add_cancel h] at hsplit
    exact hsplit
  have hamount : factor.mulCeil (underlyingAt rate vouchers) ≤
      factor.mulCeil (underlyingAt rate (vouchers - withdrawn)) +
        factor.mulCeil (underlyingAt rate withdrawn) + 1 := by
    calc factor.mulCeil (underlyingAt rate vouchers)
        ≤ factor.mulCeil (underlyingAt rate (vouchers - withdrawn) +
            underlyingAt rate withdrawn + 1) := Permill.mulCeil_mono factor hunder
      _ ≤ factor.mulCeil (underlyingAt rate (vouchers - withdrawn) +
            underlyingAt rate withdrawn) + factor.mulCeil 1 := Permill.mulCeil_add_le factor _ _
      _ ≤ factor.mulCeil (underlyingAt rate (vouchers - withdrawn)) +
            factor.mulCeil (underlyingAt rate withdrawn) + 1 :=
          Nat.add_le_add (Permill.mulCeil_add_le factor _ _) (Permill.mulCeil_le factor 1)
  have hone : valueAt price 1 = price / FixedU128.accuracy := by
    rw [valueAt, Nat.mul_one]
  unfold worth
  calc valueAt price (factor.mulCeil (underlyingAt rate vouchers))
      ≤ valueAt price (factor.mulCeil (underlyingAt rate (vouchers - withdrawn)) +
          factor.mulCeil (underlyingAt rate withdrawn) + 1) := valueAt_mono hamount
    _ ≤ valueAt price (factor.mulCeil (underlyingAt rate (vouchers - withdrawn)) +
          factor.mulCeil (underlyingAt rate withdrawn)) + valueAt price 1 + 1 := valueAt_add_le
    _ ≤ valueAt price (factor.mulCeil (underlyingAt rate (vouchers - withdrawn))) +
          valueAt price (factor.mulCeil (underlyingAt rate withdrawn)) + 1 + valueAt price 1 + 1 :=
        Nat.add_le_add_right (Nat.add_le_add_right valueAt_add_le _) _
    _ = _ := by omega

theorem worth_withdraw_within {amount liquidity : ℕ}
    (hamount : withdrawn * rate ≤ amount * FixedU128.accuracy)
    (hvalue : price * (amount * factor.parts) ≤
      liquidity * (FixedU128.accuracy * Permill.accuracy)) :
    worth price rate factor vouchers ≤ worth price rate factor (vouchers - withdrawn) +
      liquidity + (price / FixedU128.accuracy + 1) := by
  have hunder : underlyingAt rate vouchers ≤ underlyingAt rate (vouchers - withdrawn) + amount := by
    unfold underlyingAt
    rw [← Nat.add_mul_div_right _ _ (by decide : 0 < FixedU128.accuracy), Nat.sub_mul]
    apply Nat.div_le_div_right
    omega
  -- Rounded up, the factor of the old amount exceeds that of both parts by less than a unit.
  have hceil : factor.mulCeil (underlyingAt rate vouchers) * Permill.accuracy ≤
      factor.mulCeil (underlyingAt rate (vouchers - withdrawn)) * Permill.accuracy +
        amount * factor.parts + Permill.accuracy := by
    have hold : factor.mulCeil (underlyingAt rate vouchers) * Permill.accuracy <
        underlyingAt rate vouchers * factor.parts + Permill.accuracy :=
      U128.divCeil_mul_lt (by decide)
    have hnew : underlyingAt rate (vouchers - withdrawn) * factor.parts ≤
        factor.mulCeil (underlyingAt rate (vouchers - withdrawn)) * Permill.accuracy :=
      U128.le_divCeil_mul (by decide)
    have hparts := Nat.mul_le_mul_right factor.parts hunder
    rw [Nat.add_mul] at hparts
    omega
  have hprice := Nat.mul_le_mul_left price hceil
  have hscaled : price * factor.mulCeil (underlyingAt rate vouchers) ≤
      price * factor.mulCeil (underlyingAt rate (vouchers - withdrawn)) +
        liquidity * FixedU128.accuracy + price := by
    apply Nat.le_of_mul_le_mul_right (c := Permill.accuracy) _ (by decide)
    calc price * factor.mulCeil (underlyingAt rate vouchers) * Permill.accuracy
        = price * (factor.mulCeil (underlyingAt rate vouchers) * Permill.accuracy) :=
          Nat.mul_assoc _ _ _
      _ ≤ price * (factor.mulCeil (underlyingAt rate (vouchers - withdrawn)) * Permill.accuracy +
            amount * factor.parts + Permill.accuracy) := hprice
      _ = price * factor.mulCeil (underlyingAt rate (vouchers - withdrawn)) * Permill.accuracy +
            price * (amount * factor.parts) + price * Permill.accuracy := by ring
      _ ≤ price * factor.mulCeil (underlyingAt rate (vouchers - withdrawn)) * Permill.accuracy +
            liquidity * (FixedU128.accuracy * Permill.accuracy) + price * Permill.accuracy := by
          omega
      _ = (price * factor.mulCeil (underlyingAt rate (vouchers - withdrawn)) +
            liquidity * FixedU128.accuracy + price) * Permill.accuracy := by ring
  unfold worth valueAt
  calc price * factor.mulCeil (underlyingAt rate vouchers) / FixedU128.accuracy
      ≤ (price * factor.mulCeil (underlyingAt rate (vouchers - withdrawn)) + price +
          liquidity * FixedU128.accuracy) / FixedU128.accuracy :=
        Nat.div_le_div_right (by omega)
    _ = (price * factor.mulCeil (underlyingAt rate (vouchers - withdrawn)) + price) /
          FixedU128.accuracy + liquidity := Nat.add_mul_div_right _ _ (by decide)
    _ ≤ price * factor.mulCeil (underlyingAt rate (vouchers - withdrawn)) / FixedU128.accuracy +
          price / FixedU128.accuracy + 1 + liquidity :=
        Nat.add_le_add_right (div_add_le (by decide) _ _) _
    _ = _ := by omega

end Arithmetic

/-! The readers. -/

section Readers

variable {AccountId : Type} {cfg : Config AccountId} {s s' : State cfg} {asset : CurrencyId}
  {who : AccountId}

theorem getPrice_ok {price : FixedU128} (h : s.getPrice asset = .ok price) :
    s.prices asset = some price ∧ price.inner ≠ 0 := by
  simp only [State.getPrice, bind_eq_ok, okOr_eq_ok, ensure_eq_ok, pure_eq_ok] at h
  obtain ⟨_, hprice, _, hne, rfl⟩ := h
  exact ⟨hprice, hne⟩

theorem getAssetValue_ok {n : ℕ} {v : FixedU128} (h : s.getAssetValue asset n = .ok v) :
    ∃ price, s.prices asset = some price ∧ v.inner = valueAt price.inner n := by
  simp only [State.getAssetValue, FixedU128.checkedMul, bind_eq_ok, okOr_eq_ok,
    Option.map_eq_some_iff, U128.mulDiv_eq_some] at h
  obtain ⟨price, hprice, _, ⟨-, rfl, -⟩, rfl⟩ := h
  exact ⟨price, (getPrice_ok hprice).1, rfl⟩

theorem market_ok {market : Market} (h : s.market asset = .ok market) :
    s.markets.get asset = some market := by
  simpa only [State.market, okOr_eq_ok] using h

theorem ensureActiveMarket_get [DecidableEq AccountId] {market : Market}
    (h : s.ensureActiveMarket asset = .ok market) : s.markets.get asset = some market := by
  simp only [State.ensureActiveMarket, okOr_eq_ok, Option.map_eq_some_iff] at h
  obtain ⟨⟨c, m⟩, he, rfl⟩ := h
  have hc : c = asset := by simpa using List.find?_some he
  subst c
  have hmem : (asset, m) ∈ s.markets.entries :=
    List.mem_of_mem_filter (List.mem_of_find?_eq_some he)
  exact Table.mem_entries.mp hmem

theorem activeMarkets_nodup (s : State cfg) : (s.activeMarkets.map Prod.fst).Nodup := by
  have hsub : (s.activeMarkets.map Prod.fst).Sublist s.markets.keys :=
    List.filter_sublist.map Prod.fst
  exact hsub.nodup s.markets.keys_nodup

/-- The number of units a value has; 0 where there is none. -/
def amountOf (x : Except Fault FixedU128) : ℕ :=
  match x with
  | .ok v => v.inner
  | .error _ => 0

@[simp] theorem amountOf_ok (v : FixedU128) : amountOf (.ok v) = v.inner := rfl

theorem foldValues_ok {value : CurrencyId → Except Fault FixedU128} {assets : List CurrencyId}
    {start total : FixedU128}
    (h : assets.foldlM (fun (total : FixedU128) asset => do
      let v ← value asset
      okOr (total.checkedAdd v) .overflow) start = .ok total) :
    (∀ a ∈ assets, ∃ v, value a = .ok v) ∧
      total.inner = start.inner + (assets.map fun a => amountOf (value a)).sum := by
  induction assets generalizing start with
  | nil =>
    simp only [List.foldlM_nil, pure_eq_ok] at h
    subst total
    exact ⟨List.forall_mem_nil _, rfl⟩
  | cons a assets ih =>
    simp only [List.foldlM_cons, bind_eq_ok, okOr_eq_ok, FixedU128.checkedAdd,
      Option.map_eq_some_iff, U128.checkedAdd_eq_some] at h
    obtain ⟨_, ⟨v, hv, _, ⟨rfl, -⟩, rfl⟩, hrest⟩ := h
    obtain ⟨hall, hsum⟩ := ih hrest
    refine ⟨List.forall_mem_cons.mpr ⟨⟨v, hv⟩, hall⟩, ?_⟩
    rw [List.map_cons, List.sum_cons, hv, amountOf_ok, hsum]
    exact Nat.add_assoc _ _ _

theorem sumValues_ok {value : CurrencyId → Except Fault FixedU128} {assets : List CurrencyId}
    {total : FixedU128} (h : sumValues value assets = .ok total) :
    (∀ a ∈ assets, ∃ v, value a = .ok v) ∧
      total.inner = (assets.map fun a => amountOf (value a)).sum := by
  obtain ⟨hall, hsum⟩ := foldValues_ok h
  refine ⟨hall, hsum.trans ?_⟩
  exact Nat.zero_add _

theorem surplus_inner (a b : FixedU128) :
    (surplus a b).1.inner = a.inner - b.inner ∧ (surplus a b).2.inner = b.inner - a.inner := by
  unfold surplus
  split
  · exact ⟨rfl, (Nat.sub_eq_zero_of_le (by omega)).symm⟩
  · exact ⟨(Nat.sub_eq_zero_of_le (by omega)).symm, rfl⟩

theorem borrowedValue_ok {v : FixedU128}
    (h : s.borrowedValue who asset = .ok v) : ∃ debt, s.currentBorrowBalance who asset = .ok debt ∧
      ((debt = 0 ∧ v.inner = 0) ∨
        ∃ price, s.prices asset = some price ∧ v.inner = valueAt price.inner debt) := by
  simp only [State.borrowedValue, bind_eq_ok] at h
  obtain ⟨debt, hdebt, h⟩ := h
  refine ⟨debt, hdebt, ?_⟩
  split at h
  · simp only [pure_eq_ok] at h
    subst v
    exact Or.inl ⟨by assumption, rfl⟩
  · exact Or.inr (getAssetValue_ok h)

theorem currentBorrowBalance_congr
    (hdebt : s'.accountBorrows asset who = s.accountBorrows asset who)
    (hindex : s'.borrowIndex asset = s.borrowIndex asset) :
    s'.currentBorrowBalance who asset = s.currentBorrowBalance who asset := by
  simp only [State.currentBorrowBalance, hdebt, hindex]

theorem borrowedValue_congr (hprices : s'.prices = s.prices)
    (hdebt : s'.currentBorrowBalance who asset = s.currentBorrowBalance who asset) :
    s'.borrowedValue who asset = s.borrowedValue who asset := by
  simp only [State.borrowedValue, State.getAssetValue, State.getPrice, hdebt, hprices]

variable [DecidableEq AccountId]

theorem currentBorrowBalance_setBorrows {principal debt : ℕ}
    (h : (s.setBorrows asset who principal).currentBorrowBalance who asset = .ok debt) :
    debt ≤ principal := by
  have hsnapshot : (s.setBorrows asset who principal).accountBorrows asset who =
      ⟨principal, s.borrowIndex asset⟩ := by
    simp [State.setBorrows]
  simp only [State.currentBorrowBalance, hsnapshot] at h
  split at h
  · simp only [pure_eq_ok] at h
    omega
  · rename_i hne
    rw [not_or] at hne
    have hindex : (s.setBorrows asset who principal).borrowIndex = s.borrowIndex := rfl
    simp only [okOr_eq_ok, FixedU128.checkedDiv, FixedU128.checkedMulInt, hindex,
      Option.bind_eq_some_iff, Option.map_eq_some_iff, U128.mulDiv_eq_some] at h
    obtain ⟨_, ⟨_, ⟨hpos, hratio, -⟩, rfl⟩, -, rfl, -⟩ := h
    rw [← hratio, Nat.mul_div_cancel_left _ hpos, Nat.mul_div_cancel_left _ (by decide)]

def State.collateralVouchers (s : State cfg) (asset : CurrencyId) (who : AccountId) : ℕ :=
  if (s.depositsOf asset who).isCollateral then (s.depositsOf asset who).voucherBalance else 0

/-- `w` is what `vouchers` are worth as collateral. No collateral is worth nothing, whether or
not there are a price, a rate and a market. -/
def Worth (s : State cfg) (factor : Market → Permill) (asset : CurrencyId)
    (vouchers w : ℕ) : Prop :=
  (vouchers = 0 ∧ w = 0) ∨ ∃ price rate market, s.prices asset = some price ∧
    s.exchangeRateStored asset = .ok rate ∧ s.markets.get asset = some market ∧
    w = worth price.inner rate.inner (factor market) vouchers

theorem collateralVouchers_eq_zero
    (h : ¬ s.hasDeposits asset who ∨ ¬ (s.depositsOf asset who).isCollateral ∨
      (s.depositsOf asset who).voucherBalance = 0) : s.collateralVouchers asset who = 0 := by
  unfold State.collateralVouchers
  rcases h with hnone | hflag | hzero
  · have hdefault : s.depositsOf asset who = default := by
      simp only [State.hasDeposits, Option.not_isSome_iff_eq_none] at hnone
      simp [State.depositsOf, hnone]
    rw [hdefault]
    rfl
  · exact if_neg hflag
  · rw [hzero]
    exact ite_self 0

theorem collateralVouchers_of_counted
    (h : ¬ (¬ s.hasDeposits asset who ∨ ¬ (s.depositsOf asset who).isCollateral ∨
      (s.depositsOf asset who).voucherBalance = 0)) :
    s.collateralVouchers asset who = (s.depositsOf asset who).voucherBalance := by
  rw [not_or, not_or] at h
  exact if_pos (not_not.mp h.2.1)

theorem collateralVouchers_removeVouchers {n : ℕ} (h : s.removeVouchers asset who n = .ok s') :
    s'.collateralVouchers asset who = s.collateralVouchers asset who - n := by
  obtain ⟨-, o, rfl, ho⟩ := removeVouchers_ok h
  unfold State.collateralVouchers
  rw [depositsOf_setDeposits_self, ho]
  split
  · have hnone : (if (default : Deposits).isCollateral then (default : Deposits).voucherBalance
        else 0) = 0 := rfl
    rw [Option.getD_none, hnone]
    split <;> omega
  · simp only [Option.getD_some]
    split <;> omega

theorem collateralVouchers_setDeposits_ne {c : CurrencyId} {who x : AccountId}
    (o : Option Deposits) (h : c ≠ asset ∨ x ≠ who) :
    (s.setDeposits asset who o).collateralVouchers c x = s.collateralVouchers c x := by
  unfold State.collateralVouchers
  rw [depositsOf_setDeposits_ne o h]

theorem collateralVouchers_addVouchers {n : ℕ}
    (h : s.addVouchers asset who n = .ok s') (x : AccountId) :
    s.collateralVouchers asset x ≤ s'.collateralVouchers asset x := by
  obtain rfl := addVouchers_ok h
  by_cases hx : x = who
  · subst x
    unfold State.collateralVouchers
    rw [depositsOf_setDeposits_self]
    simp only [Option.getD_some]
    split <;> omega
  · exact Nat.le_of_eq (collateralVouchers_setDeposits_ne _ (Or.inr hx)).symm

omit [DecidableEq AccountId] in
theorem effectsAmount_ok {factor : Market → Permill} {vouchers amount : ℕ}
    (h : s.effectsAmount factor asset vouchers = .ok amount) :
    ∃ rate market, s.exchangeRateStored asset = .ok rate ∧ s.markets.get asset = some market ∧
      amount = (factor market).mulCeil (underlyingAt rate.inner vouchers) := by
  simp only [State.effectsAmount, bind_eq_ok, pure_eq_ok] at h
  obtain ⟨rate, hrate, underlying, hunderlying, market, hmarket, rfl⟩ := h
  rw [calcUnderlyingAmount_ok hunderlying]
  exact ⟨rate, market, hrate, market_ok hmarket, rfl⟩

theorem collateralAssetValue_ok {v : FixedU128} (h : s.collateralAssetValue who asset = .ok v) :
    Worth s Market.collateralFactor asset (s.collateralVouchers asset who) v.inner := by
  simp only [State.collateralAssetValue, State.currentCollateralBalance, bind_eq_ok] at h
  obtain ⟨amount, hamount, hvalue⟩ := h
  obtain ⟨price, hprice, hv⟩ := getAssetValue_ok hvalue
  split at hamount
  · simp only [pure_eq_ok] at hamount
    subst amount
    exact Or.inl ⟨collateralVouchers_eq_zero (by assumption), hv.trans valueAt_zero⟩
  · obtain ⟨rate, market, hrate, hmarket, rfl⟩ := effectsAmount_ok hamount
    rw [collateralVouchers_of_counted (by assumption)]
    exact Or.inr ⟨price, rate, market, hprice, hrate, hmarket, hv⟩

theorem liquidationThresholdAssetValue_ok {v : FixedU128}
    (h : s.liquidationThresholdAssetValue who asset = .ok v) :
    Worth s Market.liquidationThreshold asset (s.collateralVouchers asset who) v.inner := by
  simp only [State.liquidationThresholdAssetValue] at h
  split at h
  · simp only [pure_eq_ok] at h
    subst v
    exact Or.inl ⟨collateralVouchers_eq_zero (by assumption), rfl⟩
  · simp only [bind_eq_ok] at h
    obtain ⟨amount, hamount, hvalue⟩ := h
    obtain ⟨price, hprice, hv⟩ := getAssetValue_ok hvalue
    obtain ⟨rate, market, hrate, hmarket, rfl⟩ := effectsAmount_ok hamount
    rw [collateralVouchers_of_counted (by assumption)]
    exact Or.inr ⟨price, rate, market, hprice, hrate, hmarket, hv⟩

theorem getAccountLiquidity_ok {l : AccountLiquidity}
    (h : s.getAccountLiquidity who = .ok l) : ∃ borrowed collateral, s.totalBorrowedValue who =
        .ok borrowed ∧ s.totalCollateralValue who = .ok collateral ∧
      l.liquidity.inner = collateral.inner - borrowed.inner ∧
      l.shortfall.inner = borrowed.inner - collateral.inner := by
  simp only [State.getAccountLiquidity, bind_eq_ok, pure_eq_ok] at h
  obtain ⟨borrowed, hborrowed, collateral, hcollateral, _, -, _, -, rfl⟩ := h
  obtain ⟨hliquidity, hshortfall⟩ := surplus_inner collateral borrowed
  exact ⟨borrowed, collateral, hborrowed, hcollateral, hliquidity, hshortfall⟩

theorem getAccountLiquidationThresholdLiquidity_ok {l : AccountLiquidity}
    (h : s.getAccountLiquidationThresholdLiquidity who = .ok l) : ∃ borrowed collateral,
      s.totalBorrowedValue who = .ok borrowed ∧
      s.totalLiquidationThresholdValue who = .ok collateral ∧
      l.shortfall.inner = borrowed.inner - collateral.inner := by
  simp only [State.getAccountLiquidationThresholdLiquidity, bind_eq_ok, pure_eq_ok] at h
  obtain ⟨borrowed, hborrowed, collateral, hcollateral, _, -, _, -, rfl⟩ := h
  exact ⟨borrowed, collateral, hborrowed, hcollateral, (surplus_inner collateral borrowed).2⟩

end Readers

end Bifrost.LendMarket
