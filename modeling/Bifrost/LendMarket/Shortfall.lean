import Bifrost.LendMarket.Values

/-!
# An account's own operations and its shortfall

Withdrawals and loans are checked against the collateral factors, liquidations against the
liquidation thresholds. Each operation of an account changes its position in one market, so the
shortfall it can bring about is what its debt gained and its collateral lost there, less the
liquidity the check asked for.
-/

namespace Bifrost.LendMarket

open Result Machine Rounding
set_option autoImplicit false

variable {AccountId : Type} {cfg : Config AccountId} {s s' s₁ : State cfg} {asset : CurrencyId}

def FactorsOrdered (s : State cfg) : Prop := ∀ asset market, s.markets.get asset = some market →
  market.collateralFactor.parts ≤ market.liquidationThreshold.parts

/-- The price and the settings of a market are the same and its exchange rate is no lower. -/
structure MarketKept (s s' : State cfg) (asset : CurrencyId) : Prop where
  price : s'.prices asset = s.prices asset
  market : s'.markets.get asset = s.markets.get asset
  rate : ∀ r r', s.exchangeRateStored asset = .ok r → s'.exchangeRateStored asset = .ok r' →
    r.inner ≤ r'.inner

theorem MarketKept.of_grows (hprice : s'.prices asset = s.prices asset)
    (hmarket : s'.markets.get asset = s.markets.get asset)
    (hgrows : (s.poolOf asset).Grows (s'.poolOf asset)) : MarketKept s s' asset := by
  refine ⟨hprice, hmarket, ?_⟩
  intro r r' hr hr'
  have hsupply : s'.totalSupply asset = s.totalSupply asset := hgrows.supply
  rcases Nat.eq_zero_or_pos (s.totalSupply asset) with hzero | hpos
  · -- Without vouchers the rate is the minimum.
    simp only [State.exchangeRateStored, calculateExchangeRate, hsupply, hzero, if_true,
      pure_eq_ok] at hr hr'
    exact Nat.le_of_eq (hr ▸ hr' ▸ rfl)
  · rw [(exchangeRateStored_ok hr hpos).1, (exchangeRateStored_ok hr' (hsupply ▸ hpos)).1]
    exact hgrows.rate

theorem Worth.le {f f' : Market → Permill} {n n' w w' : ℕ} (h : Worth s f asset n w)
    (h' : Worth s' f' asset n' w') (hkept : MarketKept s s' asset)
    (hf : ∀ market, s.markets.get asset = some market → (f market).parts ≤ (f' market).parts)
    (hn : n ≤ n') : w ≤ w' := by
  rcases h with ⟨-, rfl⟩ | ⟨price, rate, market, hprice, hrate, hmarket, rfl⟩
  · exact Nat.zero_le _
  · rcases h' with ⟨rfl, rfl⟩ | ⟨price', rate', market', hprice', hrate', hmarket', rfl⟩
    · obtain rfl : n = 0 := Nat.le_zero.mp hn
      exact Nat.le_of_eq worth_zero
    · rw [hkept.price, hprice] at hprice'
      cases hprice'
      rw [hkept.market, hmarket] at hmarket'
      cases hmarket'
      exact worth_mono (hkept.rate rate rate' hrate hrate') (hf market hmarket) hn

variable [DecidableEq AccountId] {who : AccountId} {l : AccountLiquidity}

/-- `get_account_liquidation_threshold_liquidity` reports no shortfall. -/
def NoShortfall (s : State cfg) (who : AccountId) : Prop :=
  Yields (s.getAccountLiquidationThresholdLiquidity who) fun l => l.shortfall.inner = 0

/-- What a change of one account in one market does: its debt there gained at most `gained` in
value, and what was worth `w` by the factor `f` before is worth at least `w - lost` by the
liquidation threshold after. Its positions in the other markets are the same. -/
structure PositionChange (s s' : State cfg) (who : AccountId) (asset : CurrencyId)
    (f : Market → Permill) (gained lost : ℕ) : Prop where
  active : s'.activeMarkets = s.activeMarkets
  kept : ∀ c, c ≠ asset → MarketKept s s' c
  debts : ∀ c, c ≠ asset → s'.borrowedValue who c = s.borrowedValue who c
  vouchers : ∀ c, c ≠ asset → s'.collateralVouchers c who = s.collateralVouchers c who
  debt : ∀ v v', s.borrowedValue who asset = .ok v → s'.borrowedValue who asset = .ok v' →
    v'.inner ≤ v.inner + gained
  collateral : ∀ w w', Worth s f asset (s.collateralVouchers asset who) w →
    Worth s' Market.liquidationThreshold asset (s'.collateralVouchers asset who) w' →
      w ≤ w' + lost

/-- The shortfall after the change is what was borrowed, gained and lost, less the collateral. -/
theorem PositionChange.shortfall_le {f : Market → Permill} {gained lost : ℕ}
    {value : CurrencyId → Except Fault FixedU128} {borrowed collateral : FixedU128}
    (hchange : PositionChange s s' who asset f gained lost)
    (hf : ∀ c market, s.markets.get c = some market →
      (f market).parts ≤ market.liquidationThreshold.parts)
    (hvalue : ∀ c v, value c = .ok v → Worth s f c (s.collateralVouchers c who) v.inner)
    (hborrowed : s.totalBorrowedValue who = .ok borrowed)
    (hcollateral : sumValues value (s.activeMarkets.map Prod.fst) = .ok collateral)
    (hl : s'.getAccountLiquidationThresholdLiquidity who = .ok l) :
    l.shortfall.inner ≤ borrowed.inner + gained + lost - collateral.inner := by
  obtain ⟨borrowed', collateral', hborrowed', hcollateral', hshortfall⟩ :=
    getAccountLiquidationThresholdLiquidity_ok hl
  have hnodup : (s.activeMarkets.map Prod.fst).Nodup := activeMarkets_nodup s
  obtain ⟨hall, hsum⟩ := sumValues_ok hborrowed
  obtain ⟨hall', hsum'⟩ := sumValues_ok hborrowed'
  obtain ⟨hworth, htotal⟩ := sumValues_ok hcollateral
  obtain ⟨hworth', htotal'⟩ := sumValues_ok hcollateral'
  rw [hchange.active] at hall' hsum' hworth' htotal'
  have hdebts : borrowed'.inner ≤ borrowed.inner + gained := by
    rw [hsum, hsum']
    apply sum_map_le_add hnodup (x := asset)
    · intro c _ hc
      rw [hchange.debts c hc]
    · intro hmem
      obtain ⟨v, hv⟩ := hall asset hmem
      obtain ⟨v', hv'⟩ := hall' asset hmem
      rw [hv, hv', amountOf_ok, amountOf_ok]
      exact hchange.debt v v' hv hv'
  have hcovers : collateral.inner ≤ collateral'.inner + lost := by
    rw [htotal, htotal']
    apply sum_map_le_add hnodup (x := asset)
    · intro c hmem hc
      obtain ⟨v, hv⟩ := hworth c hmem
      obtain ⟨v', hv'⟩ := hworth' c hmem
      rw [hv, hv', amountOf_ok, amountOf_ok]
      apply (hvalue c v hv).le (liquidationThresholdAssetValue_ok hv') (hchange.kept c hc) (hf c)
      exact Nat.le_of_eq (hchange.vouchers c hc).symm
    · intro hmem
      obtain ⟨v, hv⟩ := hworth asset hmem
      obtain ⟨v', hv'⟩ := hworth' asset hmem
      rw [hv, hv', amountOf_ok, amountOf_ok]
      exact hchange.collateral v.inner v'.inner (hvalue asset v hv)
        (liquidationThresholdAssetValue_ok hv')
  rw [hshortfall]
  omega

theorem PositionChange.from_no_shortfall {gained lost : ℕ}
    (hchange : PositionChange s s' who asset Market.liquidationThreshold gained lost)
    (hbefore : NoShortfall s who)
    (hl : s'.getAccountLiquidationThresholdLiquidity who = .ok l) :
    l.shortfall.inner ≤ gained + lost := by
  obtain ⟨before, hok, hzero⟩ := yields_iff.mp hbefore
  obtain ⟨borrowed, collateral, hborrowed, hcollateral, hshortfall⟩ :=
    getAccountLiquidationThresholdLiquidity_ok hok
  have hle := hchange.shortfall_le (fun _ _ _ => Nat.le_refl _)
    (fun _ _ => liquidationThresholdAssetValue_ok) hborrowed hcollateral hl
  omega

theorem PositionChange.from_liquidity {gained lost : ℕ} {before l : AccountLiquidity}
    (hchange : PositionChange s s' who asset Market.collateralFactor gained lost)
    (hfactors : FactorsOrdered s) (hbefore : s.getAccountLiquidity who = .ok before)
    (hl : s'.getAccountLiquidationThresholdLiquidity who = .ok l) :
    l.shortfall.inner ≤ before.shortfall.inner + gained + lost - before.liquidity.inner := by
  obtain ⟨borrowed, collateral, hborrowed, hcollateral, hliquidity, hshortfall⟩ :=
    getAccountLiquidity_ok hbefore
  have hle := hchange.shortfall_le hfactors (fun _ _ => collateralAssetValue_ok) hborrowed
    hcollateral hl
  omega

/-! Borrowing. -/

theorem borrow_change {f : Market → Permill} {n borrows : ℕ} {value : FixedU128}
    (hborrows : s.currentBorrowBalance who asset = .ok borrows)
    (hvalue : s.getAssetValue asset n = .ok value)
    (hdust : cfg.assets.NoDust s.ledger asset cfg.accountId n)
    (hf : ∀ market, s.markets.get asset = some market →
      (f market).parts ≤ market.liquidationThreshold.parts)
    (h : ((s.setBorrows asset who (borrows + n)).setTotalBorrows asset
      (s.totalBorrows asset + n)).transfer asset cfg.accountId who n .expendable = .ok s') :
    PositionChange s s' who asset f (value.inner + 1) 0 := by
  have hkept : ∀ c, MarketKept s s' c := by
    intro c
    have hgrows := lent_grows h hdust c
    obtain ⟨L, -, rfl⟩ := transfer_ok h
    exact .of_grows rfl rfl hgrows
  obtain ⟨L, -, rfl⟩ := transfer_ok h
  refine ⟨rfl, fun c _ => hkept c, ?_, fun _ _ => rfl, ?_, ?_⟩
  · intro c hc
    have hupdate : Function.update s.accountBorrows asset (Function.update (s.accountBorrows asset)
        who ⟨borrows + n, s.borrowIndex asset⟩) c = s.accountBorrows c := Function.update_of_ne hc _ _
    apply borrowedValue_congr
    · rfl
    · apply currentBorrowBalance_congr
      · exact congrFun hupdate who
      · rfl
  · intro v v' hv hv'
    obtain ⟨price, hprice, hn⟩ := getAssetValue_ok hvalue
    obtain ⟨debt, hdebt, hold⟩ := borrowedValue_ok hv
    obtain ⟨debt', hdebt', hnew⟩ := borrowedValue_ok hv'
    rw [hborrows] at hdebt
    cases hdebt
    have hwritten : (s.setBorrows asset who (borrows + n)).currentBorrowBalance who asset =
        .ok debt' := hdebt'
    have hle : debt' ≤ borrows + n := currentBorrowBalance_setBorrows hwritten
    have hbefore : valueAt price.inner borrows ≤ v.inner := by
      rcases hold with ⟨rfl, -⟩ | ⟨price', hprice', hv⟩
      · exact valueAt_zero.trans_le (Nat.zero_le _)
      · rw [hprice] at hprice'
        cases hprice'
        exact Nat.le_of_eq hv.symm
    rcases hnew with ⟨-, hzero⟩ | ⟨price', hprice', hv'⟩
    · omega
    · have hsame : s.prices asset = some price' := hprice'
      rw [hprice] at hsame
      cases hsame
      have hgrown : valueAt price.inner debt' ≤
          valueAt price.inner borrows + valueAt price.inner n + 1 :=
        (valueAt_mono hle).trans valueAt_add_le
      omega
  · intro w w' hw hw'
    exact hw.le hw' (hkept asset) hf (Nat.le_refl _)

/-! Withdrawing collateral. -/

/-- At most `n` of the vouchers that the account uses as collateral in `asset` are given up; its
debts and its other collateral stay, and no rate falls behind collateral that is left. -/
structure Withdrawal (s s' : State cfg) (who : AccountId) (asset : CurrencyId) (n : ℕ) :
    Prop where
  active : s'.activeMarkets = s.activeMarkets
  bonds : s'.marketBond = s.marketBond
  prices : s'.prices = s.prices
  debts : ∀ c, s'.currentBorrowBalance who c = s.currentBorrowBalance who c
  kept : ∀ c, c ≠ asset ∨ n < s.collateralVouchers asset who → MarketKept s s' c
  vouchers : ∀ c, c ≠ asset → s'.collateralVouchers c who = s.collateralVouchers c who
  left : s.collateralVouchers asset who - n ≤ s'.collateralVouchers asset who

theorem Withdrawal.change {f : Market → Permill} {n lost : ℕ} (h : Withdrawal s s' who asset n)
    (hf : ∀ market, s.markets.get asset = some market →
      (f market).parts ≤ market.liquidationThreshold.parts)
    (hlost : ∀ price rate market, s.prices asset = some price →
      s.exchangeRateStored asset = .ok rate → s.markets.get asset = some market →
        worth price.inner rate.inner (f market) (s.collateralVouchers asset who) ≤
          worth price.inner rate.inner (f market) (s.collateralVouchers asset who - n) + lost) :
    PositionChange s s' who asset f 0 lost := by
  refine ⟨h.active, fun c hc => h.kept c (Or.inl hc),
    fun c _ => borrowedValue_congr h.prices (h.debts c), h.vouchers, ?_, ?_⟩
  · intro v v' hv hv'
    rw [borrowedValue_congr h.prices (h.debts asset), hv] at hv'
    cases hv'
    exact Nat.le_refl _
  · intro w w' hw hw'
    rcases hw with ⟨-, rfl⟩ | ⟨price, rate, market, hprice, hrate, hmarket, rfl⟩
    · exact Nat.zero_le _
    · have hloss := hlost price rate market hprice hrate hmarket
      rcases Nat.lt_or_ge n (s.collateralVouchers asset who) with hsome | hall
      · have hrest : Worth s f asset (s.collateralVouchers asset who - n)
            (worth price.inner rate.inner (f market) (s.collateralVouchers asset who - n)) :=
          Or.inr ⟨price, rate, market, hprice, hrate, hmarket, rfl⟩
        have hle := hrest.le hw' (h.kept asset (Or.inr hsome)) hf h.left
        omega
      · rw [Nat.sub_eq_zero_of_le hall, worth_zero] at hloss
        omega

def State.redeemAmount (s : State cfg) (asset : CurrencyId) (vouchers : ℕ) : Except Fault ℕ := do
  let exchangeRate ← s.exchangeRateStored asset
  calcUnderlyingAmount vouchers exchangeRate

def State.redeemValue (s : State cfg) (asset : CurrencyId) (vouchers : ℕ) :
    Except Fault FixedU128 := do
  let redeemAmount ← s.redeemAmount asset vouchers
  let market ← s.market asset
  s.getAssetValue asset (market.collateralFactor.mulCeil redeemAmount)

theorem redeemAllowed_ok {v : ℕ} (h : s.redeemAllowed asset who v = .ok ()) :
    v ≤ (s.depositsOf asset who).voucherBalance ∧ ((s.depositsOf asset who).isCollateral = true →
      ∃ value, s.redeemValue asset v = .ok value ∧
        s.ensureLiquidity who value (asset ∈ s.liquidationFreeCollaterals) = .ok () ∧
        s.ensureLiquidityForWithdrawMarketBond asset who v = .ok ()) := by
  simp only [State.redeemAllowed, bind_eq_ok, ensure_eq_ok] at h
  obtain ⟨_, hle, rate, hrate, amount, hamount, _, -, h⟩ := h
  refine ⟨hle, ?_⟩
  intro hflag
  rw [if_neg (not_not.mpr hflag)] at h
  simp only [bind_eq_ok] at h
  obtain ⟨market, hmarket, value, hvalue, _, hliquidity, hbond⟩ := h
  refine ⟨value, ?_, hliquidity, hbond⟩
  simp only [State.redeemValue, State.redeemAmount, bind_eq_ok]
  exact ⟨amount, ⟨rate, hrate, hamount⟩, market, hmarket, hvalue⟩

/-- The check is one against all collateral and debts: it does not pass by the liquidation free
part alone, nor by a sum that wraps. -/
def ChecksTotal (l : AccountLiquidity) (amount : FixedU128) (lfEnable : Bool) : Prop :=
  if lfEnable then amount.inner ≤ l.liquidity.inner
  else l.lfLiquidity.inner + amount.inner ≤ u128Max

instance (l : AccountLiquidity) (amount : FixedU128) (lfEnable : Bool) :
    Decidable (ChecksTotal l amount lfEnable) := by
  unfold ChecksTotal
  infer_instance

theorem ensureLiquidity_ok {amount : FixedU128} {lfEnable : Bool}
    (h : s.ensureLiquidity who amount lfEnable = .ok ()) :
    ∃ l, s.getAccountLiquidity who = .ok l ∧
      (ChecksTotal l amount lfEnable → amount.inner ≤ l.liquidity.inner) := by
  simp only [State.ensureLiquidity, bind_eq_ok, ensure_eq_ok] at h
  obtain ⟨l, hl, hcheck⟩ := h
  refine ⟨l, hl, ?_⟩
  intro htotal
  cases lfEnable with
  | true => exact htotal
  | false =>
    have hfits : l.lfLiquidity.inner + amount.inner ≤ u128Max := htotal
    have hwrapped := hcheck.resolve_left (by simp)
    have hsum : (l.lfLiquidity.inner + amount.inner) % 2 ^ 128 =
        l.lfLiquidity.inner + amount.inner := by
      apply Nat.mod_eq_of_lt
      unfold u128Max at hfits
      omega
    have hle := hwrapped.2
    rw [U128.wrappingAdd, hsum] at hle
    omega

theorem voucherBalance_le_circulating (s : State cfg) (asset : CurrencyId) (who : AccountId) :
    (s.depositsOf asset who).voucherBalance ≤ s.circulating asset := by
  unfold State.depositsOf
  cases hget : (s.accountDeposits asset).get who with
  | none => exact Nat.zero_le _
  | some d => exact Table.le_sum (fun _ d => d.voucherBalance) hget

theorem collateralVouchers_le (s : State cfg) (asset : CurrencyId) (who : AccountId) :
    s.collateralVouchers asset who ≤ (s.depositsOf asset who).voucherBalance := by
  unfold State.collateralVouchers
  split
  · exact Nat.le_refl _
  · exact Nat.zero_le _

theorem redeemVoucher_withdrawal {v paid : ℕ}
    (h : doRedeemVoucher s who asset v = .ok (paid, s')) (hconserved : VouchersConserved s)
    (hdust : (s.depositsOf asset who).isCollateral = true →
      cfg.assets.NoDust s.ledger asset cfg.accountId paid) :
    Withdrawal s s' who asset v := by
  have hsome : v < s.collateralVouchers asset who → RateKept s s' ∧ v < s.totalSupply asset := by
    intro hlt
    have hflag : (s.depositsOf asset who).isCollateral = true := by
      by_contra hno
      unfold State.collateralVouchers at hlt
      rw [if_neg hno] at hlt
      omega
    have hsupply := hconserved asset
    have hcirculating := voucherBalance_le_circulating s asset who
    have hcollateral := collateralVouchers_le s asset who
    exact ⟨redeemVoucher_rate (fun _ => .refl _) h (hdust hflag), by omega⟩
  obtain ⟨rate, cash, -, -, -, hpool, -⟩ := redeemVoucher_poolOf h
  obtain ⟨-, _, s₂, _, ⟨rewards, rfl, -⟩, -, -, h₂, -, h₃⟩ := doRedeemVoucher_ok h
  have hleft := collateralVouchers_removeVouchers h₂
  obtain ⟨-, o, rfl, -⟩ := removeVouchers_ok h₂
  obtain ⟨L, -, rfl⟩ := transfer_ok h₃
  refine ⟨rfl, rfl, rfl, fun c => rfl, ?_, ?_, Nat.le_of_eq hleft.symm⟩
  · intro c hc
    by_cases hne : c = asset
    · subst c
      obtain ⟨hrate, hlt⟩ := hsome (hc.resolve_left (not_not.mpr rfl))
      refine ⟨rfl, rfl, ?_⟩
      apply (hrate asset (by omega) _).2
      have hself := congrArg Pool.supply (congrFun hpool asset)
      rw [Function.update_self] at hself
      have hsupply := hself.trans_gt (Nat.sub_pos_of_lt hlt)
      exact hsupply
    · apply MarketKept.of_grows
      · rfl
      · rfl
      · rw [hpool, Function.update_of_ne hne]
        exact .refl _
  · intro c hc
    have hsame : (s.setDeposits asset who o).collateralVouchers c who =
        s.collateralVouchers c who := collateralVouchers_setDeposits_ne o (Or.inl hc)
    exact hsame

/-- What the rounding of one minimal unit of an asset and of its value can come to. -/
def State.unitOf (s : State cfg) (asset : CurrencyId) : ℕ :=
  ((s.prices asset).elim 0 fun price => price.inner / FixedU128.accuracy) + 2

omit [DecidableEq AccountId] in
theorem unitOf_of_price {price : FixedU128} (hprice : s.prices asset = some price) :
    s.unitOf asset = price.inner / FixedU128.accuracy + 2 := by
  simp [State.unitOf, hprice]

omit [DecidableEq AccountId] in
theorem redeemValue_ok {v : ℕ} {value : FixedU128} (h : s.redeemValue asset v = .ok value) :
    ∃ price rate market, s.prices asset = some price ∧ s.exchangeRateStored asset = .ok rate ∧
      s.markets.get asset = some market ∧
      value.inner = worth price.inner rate.inner market.collateralFactor v := by
  simp only [State.redeemValue, State.redeemAmount, bind_eq_ok] at h
  obtain ⟨amount, ⟨rate, hrate, hamount⟩, market, hmarket, hvalue⟩ := h
  obtain ⟨price, hprice, hv⟩ := getAssetValue_ok hvalue
  rw [calcUnderlyingAmount_ok hamount] at hv
  exact ⟨price, rate, market, hprice, hrate, market_ok hmarket, hv⟩

/-- A redemption of `v` vouchers that leaves no dust, by an account that, where it gives up
collateral, has no shortfall by the collateral factors and is checked against the total. -/
def WithdrawalCovered (s : State cfg) (who : AccountId) (asset : CurrencyId) (v : ℕ) : Prop :=
  (s.depositsOf asset who).isCollateral = true →
    Ensures (s.redeemAmount asset v)
      (fun paid => cfg.assets.NoDust s.ledger asset cfg.accountId paid) ∧
    (v ≠ 0 → Ensures (s.getAccountLiquidity who) fun l => l.shortfall.inner = 0 ∧
      Ensures (s.redeemValue asset v) fun value =>
        ChecksTotal l value (asset ∈ s.liquidationFreeCollaterals))

theorem redeemVoucher_shortfall_le {v paid : ℕ}
    (h : doRedeemVoucher s who asset v = .ok (paid, s')) (hfactors : FactorsOrdered s)
    (hconserved : VouchersConserved s) (hbefore : NoShortfall s who)
    (hcovered : WithdrawalCovered s who asset v)
    (hl : s'.getAccountLiquidationThresholdLiquidity who = .ok l) :
    l.shortfall.inner ≤ s.unitOf asset := by
  obtain ⟨hallowed, _, _, rate, ⟨_, rfl, -⟩, hrate, hpaid, -⟩ := doRedeemVoucher_ok h
  have hrate : s.exchangeRateStored asset = .ok rate := hrate
  obtain ⟨hle, hcheck⟩ := redeemAllowed_ok hallowed
  have hdust : (s.depositsOf asset who).isCollateral = true →
      cfg.assets.NoDust s.ledger asset cfg.accountId paid := by
    intro hflag
    apply (hcovered hflag).1.of_ok
    simp only [State.redeemAmount, bind_eq_ok]
    exact ⟨rate, hrate, hpaid⟩
  by_cases hgives : (s.depositsOf asset who).isCollateral = true ∧ v ≠ 0
  · obtain ⟨hflag, hv⟩ := hgives
    obtain ⟨value, hvalue, hliquidity, -⟩ := hcheck hflag
    obtain ⟨before, hbefore, htotal⟩ := ensureLiquidity_ok hliquidity
    obtain ⟨hsolvent, hchecks⟩ := ((hcovered hflag).2 hv).of_ok hbefore
    obtain ⟨price, rate', market, hprice, hrate', hmarket, hworth⟩ := redeemValue_ok hvalue
    have hwithin : v ≤ s.collateralVouchers asset who := by
      unfold State.collateralVouchers
      rw [if_pos hflag]
      exact hle
    have hchange : PositionChange s s' who asset Market.collateralFactor 0
        (value.inner + s.unitOf asset) := by
      apply (redeemVoucher_withdrawal h hconserved hdust).change (hfactors asset)
      intro p r m hp hr hm
      rw [hprice] at hp
      rw [hrate'] at hr
      rw [hmarket] at hm
      cases hp
      cases hr
      cases hm
      rw [unitOf_of_price hprice, hworth, ← Nat.add_assoc]
      exact worth_withdraw hwithin
    have hshort := hchange.from_liquidity hfactors hbefore hl
    have hcovers := htotal (hchecks.of_ok hvalue)
    omega
  · have hnone : s.collateralVouchers asset who - v = s.collateralVouchers asset who := by
      rcases not_and_or.mp hgives with hflag | hv
      · unfold State.collateralVouchers
        rw [if_neg hflag]
        exact Nat.zero_sub v
      · rw [not_not.mp hv]
        rfl
    have hchange : PositionChange s s' who asset Market.liquidationThreshold 0 0 := by
      apply (redeemVoucher_withdrawal h hconserved hdust).change fun _ _ => Nat.le_refl _
      intro p r m _ _ _
      exact Nat.le_of_eq (congrArg _ hnone.symm)
    have hshort := hchange.from_no_shortfall hbefore hl
    omega

/-! Lend-token transfers. -/

theorem reducibleAsset_ok {token : CurrencyId} {m : ℕ}
    (h : reducibleAsset s token who = .ok m) (htoken : s.underlyingAssetId token = some asset)
    (hflag : (s.depositsOf asset who).isCollateral = true) :
    ∃ value l, s.collateralAssetValue who asset = .ok value ∧ s.getAccountLiquidity who = .ok l ∧
      ((value.inner ≤ l.liquidity.inner ∧ m = (s.depositsOf asset who).voucherBalance) ∨
        (l.liquidity.inner < value.inner ∧ ∃ market, s.markets.get asset = some market ∧
          reducibleVouchers s asset market l.liquidity = .ok m)) := by
  simp only [reducibleAsset, underlyingId, bind_eq_ok, okOr_eq_ok] at h
  obtain ⟨_, hunderlying, h⟩ := h
  rw [htoken] at hunderlying
  cases hunderlying
  rw [if_neg (not_not.mpr hflag)] at h
  simp only [bind_eq_ok] at h
  obtain ⟨market, hmarket, value, hvalue, l, hl, h⟩ := h
  refine ⟨value, l, hvalue, hl, ?_⟩
  split at h
  · simp only [pure_eq_ok] at h
    exact Or.inl ⟨by assumption, h.symm⟩
  · exact Or.inr ⟨by omega, market, ensureActiveMarket_get hmarket, h⟩

omit [DecidableEq AccountId] in
theorem reducibleVouchers_ok {market : Market} {liquidity : FixedU128} {m : ℕ}
    (h : reducibleVouchers s asset market liquidity = .ok m) :
    ∃ price amount, s.prices asset = some price ∧
      m * (s.exchangeRate asset).inner ≤ amount * FixedU128.accuracy ∧
      price.inner * (amount * market.collateralFactor.parts) ≤
        liquidity.inner * (FixedU128.accuracy * Permill.accuracy) ∧
      (liquidity.inner = 0 → m = 0) := by
  simp only [reducibleVouchers, FixedU128.checkedDiv, bind_eq_ok, okOr_eq_ok,
    Option.map_eq_some_iff, U128.mulDiv_eq_some] at h
  obtain ⟨price, hprice, _, ⟨_, ⟨-, rfl, -⟩, rfl⟩, _, ⟨_, ⟨-, rfl, -⟩, rfl⟩, hm⟩ := h
  rw [calcCollateralAmount_ok hm]
  refine ⟨price, _, (getPrice_ok hprice).1, Nat.div_mul_le_self _ _, ?_, ?_⟩
  rotate_left
  · intro hzero
    simp only [hzero, Nat.zero_mul, Nat.zero_div]
  -- Undo the two divisions, by the factor and by the price.
  generalize hsupply : liquidity.inner * FixedU128.accuracy /
    (FixedU128.ofPermill market.collateralFactor).inner = supply
  have hfactor : supply * (market.collateralFactor.parts * 1000000000000) ≤
      liquidity.inner * FixedU128.accuracy := by
    rw [← hsupply]
    exact Nat.div_mul_le_self _ _
  have hvalue : supply * FixedU128.accuracy / price.inner * price.inner ≤
      supply * FixedU128.accuracy := Nat.div_mul_le_self _ _
  apply Nat.le_of_mul_le_mul_right (c := 1000000000000) _ (by decide)
  calc price.inner * (supply * FixedU128.accuracy / price.inner *
        market.collateralFactor.parts) * 1000000000000
      = supply * FixedU128.accuracy / price.inner * price.inner *
          (market.collateralFactor.parts * 1000000000000) := by ring
    _ ≤ supply * FixedU128.accuracy * (market.collateralFactor.parts * 1000000000000) :=
        Nat.mul_le_mul_right _ hvalue
    _ = supply * (market.collateralFactor.parts * 1000000000000) * FixedU128.accuracy := by ring
    _ ≤ liquidity.inner * FixedU128.accuracy * FixedU128.accuracy :=
        Nat.mul_le_mul_right _ hfactor
    _ = liquidity.inner * (FixedU128.accuracy * Permill.accuracy) * 1000000000000 := by
        simp only [FixedU128.accuracy, Permill.accuracy]
        ring

theorem transferLendToken_withdrawal {token : CurrencyId} {source dest : AccountId} {n : ℕ}
    (h : transferLendToken s token source dest n = .ok s')
    (htoken : s.underlyingAssetId token = some asset) : Withdrawal s s' source asset n := by
  have hpool := transferLendToken_poolOf h
  obtain ⟨-, _, s₂, underlying, ⟨rewards, rfl, -⟩, hunderlying, h₂, h₃⟩ := transferLendToken_ok h
  rw [htoken] at hunderlying
  cases hunderlying
  have hleft := collateralVouchers_removeVouchers h₂
  have hadded := collateralVouchers_addVouchers h₃ source
  obtain ⟨-, o, rfl, -⟩ := removeVouchers_ok h₂
  obtain rfl := addVouchers_ok h₃
  rw [hleft] at hadded
  refine ⟨rfl, rfl, rfl, fun c => rfl, ?_, ?_, hadded⟩
  · intro c _
    apply MarketKept.of_grows
    · rfl
    · rfl
    · rw [hpool]
      exact .refl _
  · intro c hc
    rw [collateralVouchers_setDeposits_ne _ (Or.inl hc),
      collateralVouchers_setDeposits_ne _ (Or.inl hc)]
    rfl

/-- A transfer of collateral by an account without shortfall by the collateral factors, or at a
saved rate that is not below the current one. -/
def TransferCovered (s : State cfg) (source : AccountId) (asset : CurrencyId) (n : ℕ) : Prop :=
  (s.depositsOf asset source).isCollateral = true → n ≠ 0 →
    Ensures (s.getAccountLiquidity source) fun l =>
      Ensures (s.collateralAssetValue source asset) fun value =>
        (value.inner ≤ l.liquidity.inner → l.shortfall.inner = 0) ∧
        (l.liquidity.inner < value.inner → Ensures (s.exchangeRateStored asset) fun rate =>
          rate.inner ≤ (s.exchangeRate asset).inner)

theorem transfer_shortfall_le {token : CurrencyId} {source dest : AccountId} {n : ℕ}
    (h : transferLendToken s token source dest n = .ok s')
    (htoken : s.underlyingAssetId token = some asset) (hfactors : FactorsOrdered s)
    (hbefore : NoShortfall s source) (hcovered : TransferCovered s source asset n)
    (hl : s'.getAccountLiquidationThresholdLiquidity source = .ok l) :
    l.shortfall.inner ≤ s.unitOf asset := by
  by_cases hgives : (s.depositsOf asset source).isCollateral = true ∧ n ≠ 0
  · obtain ⟨hflag, hn⟩ := hgives
    have hle : n ≤ reducibleBalance s token source := (transferLendToken_ok h).1
    unfold reducibleBalance at hle
    cases hreducible : reducibleAsset s token source with
    | error e =>
      rw [hreducible] at hle
      exact absurd (Nat.le_zero.mp hle) hn
    | ok m =>
      rw [hreducible] at hle
      have hle : n ≤ m := hle
      obtain ⟨value, before, hvalue, hbefore, hpart⟩ := reducibleAsset_ok hreducible htoken hflag
      obtain ⟨hall, hfew⟩ := ((hcovered hflag hn).of_ok hbefore).of_ok hvalue
      rcases hpart with ⟨hfull, -⟩ | ⟨hless, market, hmarket, hm⟩
      · have hchange : PositionChange s s' source asset Market.collateralFactor 0 value.inner := by
          apply (transferLendToken_withdrawal h htoken).change (hfactors asset)
          intro p r market hp hr hm
          have hworth : Worth s Market.collateralFactor asset (s.collateralVouchers asset source)
              (worth p.inner r.inner market.collateralFactor
                (s.collateralVouchers asset source)) :=
            Or.inr ⟨p, r, market, hp, hr, hm, rfl⟩
          have hsame := hworth.le (collateralAssetValue_ok hvalue) (.of_grows rfl rfl (.refl _))
            (fun _ _ => Nat.le_refl _) (Nat.le_refl _)
          omega
        have hshort := hchange.from_liquidity hfactors hbefore hl
        have hsolvent := hall hfull
        omega
      · obtain ⟨price, amount, hprice, hamount, hpays, hzero⟩ := reducibleVouchers_ok hm
        have hchange : PositionChange s s' source asset Market.collateralFactor 0
            (before.liquidity.inner + (price.inner / FixedU128.accuracy + 1)) := by
          apply (transferLendToken_withdrawal h htoken).change (hfactors asset)
          intro p r market' hp hr hm'
          rw [hprice] at hp
          rw [hmarket] at hm'
          cases hp
          cases hm'
          have hstale := (hfew hless).of_ok hr
          rw [← Nat.add_assoc]
          apply worth_withdraw_within _ hpays
          exact (Nat.mul_le_mul hle hstale).trans hamount
        have hshort := hchange.from_liquidity hfactors hbefore hl
        obtain ⟨borrowed, collateral, -, -, hliquidity, hshortfall⟩ := getAccountLiquidity_ok hbefore
        have hsome : before.liquidity.inner ≠ 0 := by
          intro hnone
          have hm0 := hzero hnone
          omega
        rw [unitOf_of_price hprice]
        generalize price.inner / FixedU128.accuracy = unit at hshort ⊢
        omega
  · have hnone : s.collateralVouchers asset source - n = s.collateralVouchers asset source := by
      rcases not_and_or.mp hgives with hflag | hn
      · unfold State.collateralVouchers
        rw [if_neg hflag]
        exact Nat.zero_sub n
      · rw [not_not.mp hn]
        rfl
    have hchange : PositionChange s s' source asset Market.liquidationThreshold 0 0 := by
      apply (transferLendToken_withdrawal h htoken).change fun _ _ => Nat.le_refl _
      intro p r m _ _ _
      exact Nat.le_of_eq (congrArg _ hnone.symm)
    have hshort := hchange.from_no_shortfall hbefore hl
    omega

/-! Collateral flags. -/

theorem doCollateralAsset_withdrawal {enable : Bool}
    (h : doCollateralAsset s who asset enable = .ok s') :
    Withdrawal s s' who asset (if enable then 0 else s.collateralVouchers asset who) := by
  obtain ⟨-, rfl, -⟩ := doCollateralAsset_ok h
  refine ⟨rfl, rfl, rfl, fun c => rfl, ?_, ?_, ?_⟩
  · intro c _
    apply MarketKept.of_grows
    · rfl
    · rfl
    · exact .refl _
  · intro c hc
    exact collateralVouchers_setDeposits_ne _ (Or.inl hc)
  · cases enable with
    | true =>
      unfold State.collateralVouchers
      rw [depositsOf_setDeposits_self]
      exact collateralVouchers_le s asset who
    | false => exact (Nat.sub_self _).trans_le (Nat.zero_le _)

/-- Other collateral covers the debts before the flag of a deposit is taken away; giving the flag
only adds. No rounding comes in. -/
theorem doCollateralAsset_shortfall_le {enable : Bool}
    (h : doCollateralAsset s who asset enable = .ok s') (hfactors : FactorsOrdered s)
    (hbefore : NoShortfall s who)
    (hl : s'.getAccountLiquidationThresholdLiquidity who = .ok l) : l.shortfall.inner = 0 := by
  have hwithdrawal := doCollateralAsset_withdrawal h
  cases enable with
  | true =>
    have hchange : PositionChange s s' who asset Market.liquidationThreshold 0 0 :=
      hwithdrawal.change (fun _ _ => Nat.le_refl _) fun _ _ _ _ _ _ => Nat.le_refl _
    have hshort := hchange.from_no_shortfall hbefore hl
    omega
  | false =>
    obtain ⟨-, -, hcheck⟩ := doCollateralAsset_ok h
    obtain ⟨collateral, value, borrowed, hcollateral, hvalue, hborrowed, hle⟩ := hcheck rfl
    have hchange : PositionChange s s' who asset Market.collateralFactor 0 value.inner := by
      apply hwithdrawal.change (hfactors asset)
      intro p r market hp hr hm
      have hworth : Worth s Market.collateralFactor asset (s.collateralVouchers asset who)
          (worth p.inner r.inner market.collateralFactor (s.collateralVouchers asset who)) :=
        Or.inr ⟨p, r, market, hp, hr, hm, rfl⟩
      have hsame := hworth.le (collateralAssetValue_ok hvalue) (.of_grows rfl rfl (.refl _))
        (fun _ _ => Nat.le_refl _) (Nat.le_refl _)
      omega
    have hshort := hchange.shortfall_le hfactors (fun _ _ => collateralAssetValue_ok) hborrowed
      hcollateral hl
    omega

/-! The operations of one account. -/

/-- A loan of `n` that leaves no dust and is checked against the total. -/
def LoanCovered (s : State cfg) (who : AccountId) (asset : CurrencyId) (n : ℕ) : Prop :=
  cfg.assets.NoDust s.ledger asset cfg.accountId n ∧
    Ensures (s.getAccountLiquidity who) fun l => Ensures (s.getAssetValue asset n) fun value =>
      ChecksTotal l value (asset = cfg.liquidationFreeAssetId)

theorem borrow_shortfall_le {n : ℕ}
    (h : doBorrow s who asset n = .ok s') (h₁ : s.accrueInterest asset = .ok s₁)
    (hfactors : FactorsOrdered s₁) (hbefore : NoShortfall s₁ who)
    (hcovered : LoanCovered s₁ who asset n)
    (hl : s'.getAccountLiquidationThresholdLiquidity who = .ok l) : l.shortfall.inner ≤ 1 := by
  obtain ⟨_, _, borrows, h₁', -, hallowed, ⟨rewards, rfl, -⟩, hborrows, h₃⟩ := doBorrow_ok h
  rw [h₁] at h₁'
  cases h₁'
  simp only [State.borrowAllowed, bind_eq_ok] at hallowed
  obtain ⟨_, -, _, -, value, hvalue, hliquidity⟩ := hallowed
  obtain ⟨before, hok, htotal⟩ := ensureLiquidity_ok hliquidity
  have hcovers := htotal ((hcovered.2.of_ok hok).of_ok hvalue)
  obtain ⟨borrowed, collateral, -, -, hliquidity, hshortfall⟩ := getAccountLiquidity_ok hok
  -- Settling rewards changes none of this.
  have hvalue₂ : (s₁.withRewards rewards).getAssetValue asset n = .ok value := hvalue
  have hok₂ : (s₁.withRewards rewards).getAccountLiquidity who = .ok before := hok
  have hbefore₂ : NoShortfall (s₁.withRewards rewards) who := hbefore
  rcases Nat.eq_zero_or_pos before.shortfall.inner with hzero | hpos
  · have hchange := borrow_change hborrows hvalue₂ hcovered.1 (hfactors asset) h₃
    have hshort := hchange.from_liquidity hfactors hok₂ hl
    omega
  · have hchange := borrow_change hborrows hvalue₂ hcovered.1
      (fun _ _ => Nat.le_refl (Market.liquidationThreshold _).parts) h₃
    have hshort := hchange.from_no_shortfall hbefore₂ hl
    omega

omit [DecidableEq AccountId] in
theorem unitOf_accrueInterest {c : CurrencyId} (h : s.accrueInterest asset = .ok s') :
    s'.unitOf c = s.unitOf c := by
  rw [State.unitOf, (accrueInterest_frame h).prices]
  rfl

/-- The account whose own operation a call is, and the market that it is in. -/
def State.ownOperation (s : State cfg) : Call AccountId → Option (AccountId × CurrencyId)
  | .borrow who asset _ | .redeem who asset _ | .doRedeem who asset _ | .redeemAll who asset
  | .collateralAsset who asset _ | .doCollateralAsset who asset _ => some (who, asset)
  | .transferLendToken token source _ _ => (s.underlyingAssetId token).map fun c => (source, c)
  | _ => none

/-- The operation is checked against all of the account's collateral and debts. Where it accrues
interest first, the account has no shortfall with that interest. -/
def CheckedInFull (s : State cfg) : Call AccountId → Prop
  | .borrow who asset n => Ensures (s.accrueInterest asset) fun s =>
    NoShortfall s who ∧ LoanCovered s who asset n
  | .redeem who asset n | .doRedeem who asset n => Ensures (s.accrueInterest asset) fun s =>
    NoShortfall s who ∧ Ensures (s.exchangeRateStored asset) fun rate =>
      Ensures (calcCollateralAmount n rate) fun v => WithdrawalCovered s who asset v
  | .redeemAll who asset => Ensures (s.accrueInterest asset) fun s =>
    NoShortfall s who ∧ WithdrawalCovered s who asset (s.depositsOf asset who).voucherBalance
  | .transferLendToken token source _ n => Ensures (underlyingId s token) fun asset =>
    TransferCovered s source asset n
  | _ => True

theorem redeem_shortfall_le {n paid : ℕ}
    (h : doRedeem s who asset n = .ok (paid, s')) (hfactors : FactorsOrdered s)
    (hconserved : VouchersConserved s) (hchecked : CheckedInFull s (.doRedeem who asset n))
    (hl : s'.getAccountLiquidationThresholdLiquidity who = .ok l) :
    l.shortfall.inner ≤ s.unitOf asset := by
  obtain ⟨s₁, s₂, rate, v, h₁, hrate, h₂, hv, h₃⟩ := doRedeem_ok h
  obtain ⟨-, total, rfl⟩ := updateEarnedStored_ok h₂
  obtain ⟨hbefore, hcovered⟩ := hchecked.of_ok h₁
  have hcovered := (hcovered.of_ok hrate).of_ok hv
  have hfactors₁ : FactorsOrdered s₁ := by
    unfold FactorsOrdered
    rw [(accrueInterest_frame h₁).markets]
    exact hfactors
  have hconserved₁ := (accrueInterest_vouchers h₁).conserved hconserved
  have hle := redeemVoucher_shortfall_le h₃ hfactors₁ hconserved₁ hbefore hcovered hl
  rw [← unitOf_accrueInterest h₁]
  exact hle

theorem redeemAll_shortfall_le {paid : ℕ}
    (h : doRedeemAll s who asset = .ok (paid, s')) (hfactors : FactorsOrdered s)
    (hconserved : VouchersConserved s) (hchecked : CheckedInFull s (.redeemAll who asset))
    (hl : s'.getAccountLiquidationThresholdLiquidity who = .ok l) :
    l.shortfall.inner ≤ s.unitOf asset := by
  obtain ⟨s₁, s₂, rate, h₁, -, h₂, h₃⟩ := doRedeemAll_ok h
  obtain ⟨-, total, rfl⟩ := updateEarnedStored_ok h₂
  obtain ⟨hbefore, hcovered⟩ := hchecked.of_ok h₁
  have hfactors₁ : FactorsOrdered s₁ := by
    unfold FactorsOrdered
    rw [(accrueInterest_frame h₁).markets]
    exact hfactors
  have hconserved₁ := (accrueInterest_vouchers h₁).conserved hconserved
  have hle := redeemVoucher_shortfall_le h₃ hfactors₁ hconserved₁ hbefore hcovered hl
  rw [← unitOf_accrueInterest h₁]
  exact hle

/-- An account without shortfall has none after its own borrow, redemption, change of a
collateral flag or lend-token transfer that is checked in full, beyond the rounding of one
minimal unit of the market it touches. -/
theorem own_operation_keeps_solvent {who : AccountId} {a : Call AccountId}
    (hown : s.ownOperation a = some (who, asset)) (hfactors : FactorsOrdered s)
    (hconserved : VouchersConserved s) (hbefore : NoShortfall s who)
    (hchecked : CheckedInFull s a) (h : step s a = .ok s') :
    Ensures (s'.getAccountLiquidationThresholdLiquidity who) fun l =>
      l.shortfall.inner ≤ s.unitOf asset := by
  apply ensures_iff.mpr
  intro l hl
  cases a with
  | borrow borrower c n =>
    cases hown
    obtain ⟨s₁, -, -, h₁, -⟩ := doBorrow_ok h
    obtain ⟨hbefore₁, hcovered⟩ := hchecked.of_ok h₁
    have hfactors₁ : FactorsOrdered s₁ := by
      unfold FactorsOrdered
      rw [(accrueInterest_frame h₁).markets]
      exact hfactors
    have hle := borrow_shortfall_le h h₁ hfactors₁ hbefore₁ hcovered hl
    unfold State.unitOf
    omega
  | redeem redeemer c n =>
    cases hown
    simp only [step, bind_eq_ok, pure_eq_ok] at h
    obtain ⟨_, -, ⟨paid, s₁⟩, h₁, rfl⟩ := h
    exact redeem_shortfall_le h₁ hfactors hconserved hchecked hl
  | doRedeem redeemer c n =>
    cases hown
    simp only [step, bind_eq_ok, pure_eq_ok] at h
    obtain ⟨⟨paid, s₁⟩, h₁, rfl⟩ := h
    exact redeem_shortfall_le h₁ hfactors hconserved hchecked hl
  | redeemAll redeemer c =>
    cases hown
    simp only [step, bind_eq_ok, pure_eq_ok] at h
    obtain ⟨⟨paid, s₁⟩, h₁, rfl⟩ := h
    exact redeemAll_shortfall_le h₁ hfactors hconserved hchecked hl
  | collateralAsset owner c enable =>
    cases hown
    rw [doCollateralAsset_shortfall_le (collateralAsset_ok h).2 hfactors hbefore hl]
    exact Nat.zero_le _
  | doCollateralAsset owner c enable =>
    cases hown
    rw [doCollateralAsset_shortfall_le h hfactors hbefore hl]
    exact Nat.zero_le _
  | transferLendToken token source dest n =>
    simp only [State.ownOperation, Option.map_eq_some_iff, Prod.mk.injEq] at hown
    obtain ⟨c, htoken, rfl, rfl⟩ := hown
    have hunderlying : underlyingId s token = .ok c := okOr_eq_ok.mpr htoken
    exact transfer_shortfall_le h htoken hfactors hbefore (hchecked.of_ok hunderlying) hl
  | _ => contradiction

namespace Sample

def movr : CurrencyId := .token .MOVR

/-- Account 1 supplies MOVR and KSM, which is liquidation free, and borrows MOVR. -/
def secured (loan : ℕ) : List (Call ℕ) :=
  [.addMarket movr { market with lendTokenId := .lend 2 }, .activateMarket movr,
    .addMarket ksm { market with lendTokenId := .lend 1 }, .activateMarket ksm,
    .updateLiquidationFreeCollateral [ksm], .addMarketBond movr [movr], .mint 2 movr 10000,
    .mint 1 movr 10000, .mint 1 ksm 10000, .collateralAsset 1 movr true,
    .collateralAsset 1 ksm true, .borrow 1 movr loan]

theorem secured_conserved (loan : ℕ) : VouchersConserved (run step wealthy (secured loan)) := by
  have hcalls : ∀ a ∈ secured loan, ∀ s : State config, ReserveCovered s a := by
    repeat' refine List.forall_mem_cons.mpr ⟨fun _ => trivial, ?_⟩
    exact List.forall_mem_nil _
  exact conserved_run (fun _ => rfl) (meets_of_forall _ hcalls wealthy)

end Sample

/-- With 1000 MOVR borrowed, 2000 KSM may leave. -/
theorem own_operation_keeps_solvent_sample :
    let s := run step Sample.wealthy (Sample.secured 1000)
    (step s (.redeem 1 Sample.ksm 2000)).toBool = true ∧
      Ensures ((exec step s (.redeem 1 Sample.ksm 2000)).getAccountLiquidationThresholdLiquidity 1)
        fun l => l.shortfall.inner ≤ s.unitOf Sample.ksm := by
  intro s
  have hok : (step s (.redeem 1 Sample.ksm 2000)).toBool = true := by decide +kernel
  have hmarkets : ∀ e ∈ s.markets.entries,
      e.2.collateralFactor.parts ≤ e.2.liquidationThreshold.parts := by decide +kernel
  have hbefore : NoShortfall s 1 := by
    unfold NoShortfall
    decide +kernel
  have hchecked : CheckedInFull s (.redeem 1 Sample.ksm 2000) := by
    unfold CheckedInFull NoShortfall WithdrawalCovered
    decide +kernel
  have hconserved : VouchersConserved s := Sample.secured_conserved 1000
  generalize s = s at *
  refine ⟨hok, ?_⟩
  obtain ⟨s', h⟩ := exists_of_toBool hok
  rw [exec_ok h]
  apply own_operation_keeps_solvent rfl _ hconserved hbefore hchecked h
  intro asset market hmarket
  exact hmarkets (asset, market) (Table.mem_entries.mpr hmarket)

/-- With 5000 MOVR borrowed and MOVR no longer collateral, the liquidation free KSM alone covers
the debt, and all of it may leave. -/
theorem self_made_shortfall :
    let s := run step Sample.wealthy
      (Sample.secured 5000 ++ [.collateralAsset 1 Sample.movr false])
    let s' := exec step s (.redeemAll 1 Sample.ksm)
    (∀ e ∈ s.markets.entries,
        e.2.collateralFactor.parts ≤ e.2.liquidationThreshold.parts) ∧
      NoShortfall s 1 ∧ (step s (.redeemAll 1 Sample.ksm)).toBool = true ∧
      Yields (s'.getAccountLiquidationThresholdLiquidity 1) (fun l => l.shortfall.inner = 5000) ∧
      s.unitOf Sample.ksm = 3 := by
  refine ⟨by decide +kernel, ?_, by decide +kernel, by decide +kernel, by decide +kernel⟩
  unfold NoShortfall
  decide +kernel

end Bifrost.LendMarket
