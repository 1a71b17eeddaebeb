import Bifrost.LendMarket.Shortfall

/-!
# Market bonds

A debt in a market with a bond has to be covered by the collateral in the markets the bond
names. Borrowing is checked against it, and so is redeeming; taking a collateral flag away and
transferring lend tokens are not.
-/

namespace Bifrost.LendMarket

open Result Machine Rounding
set_option autoImplicit false

variable {AccountId : Type} {cfg : Config AccountId} {s s' s₁ : State cfg} {asset : CurrencyId}
variable [DecidableEq AccountId] {who : AccountId} {bond : List CurrencyId}

/-- The account owes `value` in a market whose bond is `bond`, and its collateral in the bonded
markets is worth `total`. -/
structure BondAt (s : State cfg) (who : AccountId) (borrowAsset : CurrencyId)
    (bond : List CurrencyId) (value total : FixedU128) : Prop where
  named : s.marketBond borrowAsset = some bond
  debt : ∃ debt, s.currentBorrowBalance who borrowAsset = .ok debt ∧ debt ≠ 0 ∧
    s.getAssetValue borrowAsset debt = .ok value
  total : sumValues (s.collateralAssetValue who) bond = .ok total

def BondsKept (s : State cfg) (who : AccountId) : Prop :=
  ∀ borrowAsset bond value total, BondAt s who borrowAsset bond value total →
    value.inner ≤ total.inner

/-- The values of the account's bonded debts and of the collateral behind them are known. -/
def BondsComputed (s : State cfg) (who : AccountId) : Prop :=
  ∀ borrowAsset bond debt, s.marketBond borrowAsset = some bond →
    s.currentBorrowBalance who borrowAsset = .ok debt → debt ≠ 0 →
      ∃ value total, BondAt s who borrowAsset bond value total

omit [DecidableEq AccountId] in
theorem getAssetValue_congr (hprices : s'.prices = s.prices) (n : ℕ) :
    s'.getAssetValue asset n = s.getAssetValue asset n := by
  simp only [State.getAssetValue, State.getPrice, hprices]

theorem collateralAssetValue_le {v v' : FixedU128} (hkept : MarketKept s s' asset)
    (hvouchers : s.collateralVouchers asset who ≤ s'.collateralVouchers asset who)
    (hv : s.collateralAssetValue who asset = .ok v)
    (hv' : s'.collateralAssetValue who asset = .ok v') : v.inner ≤ v'.inner :=
  (collateralAssetValue_ok hv).le (collateralAssetValue_ok hv') hkept (fun _ _ => Nat.le_refl _)
    hvouchers

theorem sumValues_le {f f' : CurrencyId → Except Fault FixedU128} {l : List CurrencyId}
    {total total' : FixedU128} (h : sumValues f l = .ok total) (h' : sumValues f' l = .ok total')
    (hle : ∀ c ∈ l, ∀ v v', f c = .ok v → f' c = .ok v' → v.inner ≤ v'.inner) :
    total.inner ≤ total'.inner := by
  obtain ⟨hall, hsum⟩ := sumValues_ok h
  obtain ⟨hall', hsum'⟩ := sumValues_ok h'
  rw [hsum, hsum']
  apply sum_map_le_sum
  intro c hc
  obtain ⟨v, hv⟩ := hall c hc
  obtain ⟨v', hv'⟩ := hall' c hc
  rw [hv, hv', amountOf_ok, amountOf_ok]
  exact hle c hc v v' hv hv'

theorem BondAt.kept {borrowAsset : CurrencyId}
    {value total : FixedU128} (h : BondAt s' who borrowAsset bond value total)
    (hkept : BondsKept s who) (hcomputed : BondsComputed s who)
    (hbond : s'.marketBond = s.marketBond) (hprices : s'.prices = s.prices)
    (hdebt : s'.currentBorrowBalance who borrowAsset = s.currentBorrowBalance who borrowAsset)
    (hle : ∀ c ∈ bond, ∀ v v', s.collateralAssetValue who c = .ok v →
      s'.collateralAssetValue who c = .ok v' → v.inner ≤ v'.inner) :
    value.inner ≤ total.inner := by
  obtain ⟨debt, howed, hpos, hvalue⟩ := h.debt
  have hbond₀ : s.marketBond borrowAsset = some bond := hbond ▸ h.named
  rw [hdebt] at howed
  rw [getAssetValue_congr hprices] at hvalue
  obtain ⟨value₀, total₀, hbefore⟩ := hcomputed borrowAsset bond debt hbond₀ howed hpos
  have hcovered : value₀.inner ≤ total₀.inner := hkept borrowAsset bond value₀ total₀ hbefore
  obtain ⟨debt₀, howed₀, -, hvalue₀⟩ := hbefore.debt
  rw [howed] at howed₀
  cases howed₀
  rw [hvalue] at hvalue₀
  cases hvalue₀
  exact hcovered.trans (sumValues_le hbefore.total h.total hle)

/-! Withdrawing without a check of the bonds. -/

def State.collateralValueOf (s : State cfg) (asset : CurrencyId) (vouchers : ℕ) :
    Except Fault FixedU128 := do
  let amount ← s.effectsAmount Market.collateralFactor asset vouchers
  s.getAssetValue asset amount

/-- The collateral in the markets of `bond`, without `n` vouchers of `asset`. -/
def State.bondLeft (s : State cfg) (who : AccountId) (asset : CurrencyId) (n : ℕ)
    (bond : List CurrencyId) : ℕ :=
  (bond.map fun c => amountOf (if c = asset then
    s.collateralValueOf asset (s.collateralVouchers asset who - n)
    else s.collateralAssetValue who c)).sum

/-- What is left without the vouchers covers every debt that is bonded to their market. -/
def CoveredWithout (s : State cfg) (who : AccountId) (asset : CurrencyId) (n : ℕ) : Prop :=
  ∀ borrowAsset bond, s.marketBond borrowAsset = some bond → asset ∈ bond →
    Ensures (s.currentBorrowBalance who borrowAsset) fun debt => debt ≠ 0 →
      Ensures (s.getAssetValue borrowAsset debt) fun value =>
        value.inner ≤ s.bondLeft who asset n bond

theorem collateralValueOf_le {n : ℕ} {v' : FixedU128}
    (hkept : MarketKept s s' asset) (hn : n ≤ s'.collateralVouchers asset who)
    (hv' : s'.collateralAssetValue who asset = .ok v') :
    amountOf (s.collateralValueOf asset n) ≤ v'.inner := by
  cases hv : s.collateralValueOf asset n with
  | error e => exact Nat.zero_le _
  | ok v =>
    simp only [State.collateralValueOf, bind_eq_ok] at hv
    obtain ⟨amount, hamount, hvalue⟩ := hv
    obtain ⟨rate, market, hrate, hmarket, rfl⟩ := effectsAmount_ok hamount
    obtain ⟨price, hprice, hv⟩ := getAssetValue_ok hvalue
    have hworth : Worth s Market.collateralFactor asset n v.inner :=
      Or.inr ⟨price, rate, market, hprice, hrate, hmarket, hv⟩
    exact hworth.le (collateralAssetValue_ok hv') hkept (fun _ _ => Nat.le_refl _) hn

omit [DecidableEq AccountId] in
theorem collateralValueOf_zero : amountOf (s.collateralValueOf asset 0) = 0 := by
  cases hv : s.collateralValueOf asset 0 with
  | error e => rfl
  | ok v =>
    simp only [State.collateralValueOf, bind_eq_ok] at hv
    obtain ⟨amount, hamount, hvalue⟩ := hv
    obtain ⟨rate, market, -, -, rfl⟩ := effectsAmount_ok hamount
    obtain ⟨price, -, hv⟩ := getAssetValue_ok hvalue
    rw [amountOf_ok, hv]
    exact worth_zero

theorem BondAt.kept_elsewhere {borrowAsset : CurrencyId} {n : ℕ} {value total : FixedU128}
    (h : BondAt s' who borrowAsset bond value total) (hwithdrawal : Withdrawal s s' who asset n)
    (hkept : BondsKept s who) (hcomputed : BondsComputed s who) (hmem : asset ∉ bond) :
    value.inner ≤ total.inner := by
  apply h.kept hkept hcomputed hwithdrawal.bonds hwithdrawal.prices (hwithdrawal.debts borrowAsset)
  intro c hc v v' hv hv'
  have hne : c ≠ asset := fun heq => hmem (heq ▸ hc)
  exact collateralAssetValue_le (hwithdrawal.kept c (Or.inl hne))
    (Nat.le_of_eq (hwithdrawal.vouchers c hne).symm) hv hv'

theorem bondsKept_without {n : ℕ} (hwithdrawal : Withdrawal s s' who asset n)
    (hkept : BondsKept s who) (hcomputed : BondsComputed s who)
    (hcovered : CoveredWithout s who asset n) : BondsKept s' who := by
  intro borrowAsset bond value total h
  by_cases hmem : asset ∈ bond
  · obtain ⟨debt, howed, hpos, hvalue⟩ := h.debt
    rw [hwithdrawal.debts] at howed
    rw [getAssetValue_congr hwithdrawal.prices] at hvalue
    have hnamed : s.marketBond borrowAsset = some bond := hwithdrawal.bonds ▸ h.named
    have hcovers := (((hcovered borrowAsset bond hnamed hmem).of_ok howed) hpos).of_ok hvalue
    obtain ⟨hall, hsum⟩ := sumValues_ok h.total
    rw [hsum]
    apply hcovers.trans
    apply sum_map_le_sum
    intro c hc
    obtain ⟨v', hv'⟩ := hall c hc
    rw [hv', amountOf_ok]
    split
    · rename_i heq
      subst c
      rcases Nat.lt_or_ge n (s.collateralVouchers asset who) with hsome | hnone
      · exact collateralValueOf_le (hwithdrawal.kept asset (Or.inr hsome)) hwithdrawal.left hv'
      · rw [Nat.sub_eq_zero_of_le hnone, collateralValueOf_zero]
        exact Nat.zero_le _
    · rename_i hne
      cases hv : s.collateralAssetValue who c with
      | error e => exact Nat.zero_le _
      | ok v =>
        exact collateralAssetValue_le (hwithdrawal.kept c (Or.inl hne))
          (Nat.le_of_eq (hwithdrawal.vouchers c hne).symm) hv hv'
  · exact h.kept_elsewhere hwithdrawal hkept hcomputed hmem

/-! Redeeming. -/

theorem ensureBondAfterWithdraw_ok {borrowAsset : CurrencyId} {v debt : ℕ} {value : FixedU128}
    (h : s.ensureBondAfterWithdraw asset who v borrowAsset = .ok ())
    (hbond : s.marketBond borrowAsset = some bond) (hmem : asset ∈ bond)
    (hdebt : s.currentBorrowBalance who borrowAsset = .ok debt) (hpos : debt ≠ 0)
    (hvalue : s.getAssetValue borrowAsset debt = .ok value)
    (hflag : (s.depositsOf asset who).isCollateral = true) :
    ∃ price rate market, s.prices asset = some price ∧ s.exchangeRateStored asset = .ok rate ∧
      s.markets.get asset = some market ∧ value.inner ≤ valueAt price.inner
        (market.collateralFactor.mulCeil
          (underlyingAt rate.inner (s.depositsOf asset who).voucherBalance -
            underlyingAt rate.inner v)) := by
  simp only [State.ensureBondAfterWithdraw, hbond, if_neg (not_not.mpr hmem), hdebt, bind_eq_ok] at h
  obtain ⟨_, heq, h⟩ := h
  cases heq
  rw [if_neg hpos] at h
  simp only [hvalue, bind_eq_ok] at h
  obtain ⟨_, heq, h⟩ := h
  cases heq
  rw [if_neg (not_not.mpr hflag)] at h
  simp only [State.remainingCollateralValue, bind_eq_ok, okOr_eq_ok, ensure_eq_ok,
    U128.checkedSub_eq_some] at h
  obtain ⟨remaining, ⟨rate, hrate, _, hcurrent, _, hredeem, _, ⟨-, rfl⟩, market, hmarket,
    hremaining⟩, hle⟩ := h
  obtain ⟨price, hprice, hv⟩ := getAssetValue_ok hremaining
  rw [calcUnderlyingAmount_ok hcurrent, calcUnderlyingAmount_ok hredeem] at hv
  exact ⟨price, rate, market, hprice, hrate, market_ok hmarket, hle.trans (Nat.le_of_eq hv)⟩

/-- A redemption of `v` vouchers that leaves no dust; where they are collateral, the debts bonded
to their market are in active markets and no minimal unit is lost to rounding. -/
def RedemptionBonded (s : State cfg) (who : AccountId) (asset : CurrencyId) (v : ℕ) : Prop :=
  BondsKept s who ∧ BondsComputed s who ∧ ((s.depositsOf asset who).isCollateral = true →
    Ensures (s.redeemAmount asset v)
      (fun paid => cfg.assets.NoDust s.ledger asset cfg.accountId paid) ∧
    Ensures (s.exchangeRateStored asset) (fun rate =>
      underlyingAt rate.inner (s.depositsOf asset who).voucherBalance -
        underlyingAt rate.inner v ≤
          underlyingAt rate.inner ((s.depositsOf asset who).voucherBalance - v)) ∧
    ∀ borrowAsset bond, s.marketBond borrowAsset = some bond → asset ∈ bond →
      Ensures (s.currentBorrowBalance who borrowAsset) fun debt => debt ≠ 0 →
        borrowAsset ∈ s.activeMarkets.map Prod.fst)

theorem redeemVoucher_bondsKept {v paid : ℕ}
    (h : doRedeemVoucher s who asset v = .ok (paid, s')) (hconserved : VouchersConserved s)
    (hbonded : RedemptionBonded s who asset v) : BondsKept s' who := by
  obtain ⟨hkept, hcomputed, hcollateral⟩ := hbonded
  obtain ⟨hallowed, _, _, rate, ⟨_, rfl, -⟩, hrate, hpaid, -⟩ := doRedeemVoucher_ok h
  have hrate : s.exchangeRateStored asset = .ok rate := hrate
  obtain ⟨hle, hcheck⟩ := redeemAllowed_ok hallowed
  have hdust : (s.depositsOf asset who).isCollateral = true →
      cfg.assets.NoDust s.ledger asset cfg.accountId paid := by
    intro hflag
    apply (hcollateral hflag).1.of_ok
    simp only [State.redeemAmount, bind_eq_ok]
    exact ⟨rate, hrate, hpaid⟩
  have hwithdrawal := redeemVoucher_withdrawal h hconserved hdust
  intro borrowAsset bond value total hbond
  by_cases hmem : asset ∈ bond
  · by_cases hflag : (s.depositsOf asset who).isCollateral = true
    · obtain ⟨-, hrounding, hactive⟩ := hcollateral hflag
      obtain ⟨debt, howed, hpos, hvalue⟩ := hbond.debt
      rw [hwithdrawal.debts] at howed
      rw [getAssetValue_congr hwithdrawal.prices] at hvalue
      have hnamed : s.marketBond borrowAsset = some bond := hwithdrawal.bonds ▸ hbond.named
      have hborrow := (hactive borrowAsset bond hnamed hmem).of_ok howed hpos
      obtain ⟨_, -, -, hbonds⟩ := hcheck hflag
      have hone := forM_eq_ok hbonds borrowAsset hborrow
      obtain ⟨price, rate', market, hprice, hrate', hmarket, hcovers⟩ :=
        ensureBondAfterWithdraw_ok hone hnamed hmem howed hpos hvalue hflag
      rw [hrate] at hrate'
      cases hrate'
      have hvouchers : s.collateralVouchers asset who = (s.depositsOf asset who).voucherBalance :=
        if_pos hflag
      have hleft : value.inner ≤ worth price.inner rate.inner market.collateralFactor
          (s.collateralVouchers asset who - v) := by
        rw [hvouchers]
        apply hcovers.trans
        apply valueAt_mono
        exact Permill.mulCeil_mono _ (hrounding.of_ok hrate)
      obtain ⟨hall, hsum⟩ := sumValues_ok hbond.total
      obtain ⟨v', hv'⟩ := hall asset hmem
      have hpart : v'.inner ≤ total.inner := by
        rw [hsum]
        apply List.single_le_sum fun _ _ => Nat.zero_le _
        exact List.mem_map.mpr ⟨asset, hmem, by rw [hv', amountOf_ok]⟩
      apply hleft.trans ((?_ : _ ≤ v'.inner).trans hpart)
      rcases Nat.lt_or_ge v (s.collateralVouchers asset who) with hsome | hnone
      · have hworth : Worth s Market.collateralFactor asset (s.collateralVouchers asset who - v)
            (worth price.inner rate.inner market.collateralFactor
              (s.collateralVouchers asset who - v)) :=
          Or.inr ⟨price, rate, market, hprice, hrate, hmarket, rfl⟩
        exact hworth.le (collateralAssetValue_ok hv') (hwithdrawal.kept asset (Or.inr hsome))
          (fun _ _ => Nat.le_refl _) hwithdrawal.left
      · rw [Nat.sub_eq_zero_of_le hnone, worth_zero]
        exact Nat.zero_le _
    · -- Without the flag nothing counted before.
      apply hbond.kept hkept hcomputed hwithdrawal.bonds hwithdrawal.prices
        (hwithdrawal.debts borrowAsset)
      intro c _ w w' hw hw'
      by_cases hne : c = asset
      · subst c
        have hnone : s.collateralVouchers asset who = 0 := if_neg hflag
        rcases collateralAssetValue_ok hw with ⟨-, hzero⟩ | ⟨p, r, m, -, -, -, hworth⟩
        · exact hzero.trans_le (Nat.zero_le _)
        · rw [hnone, worth_zero] at hworth
          exact hworth.trans_le (Nat.zero_le _)
      · exact collateralAssetValue_le (hwithdrawal.kept c (Or.inl hne))
          (Nat.le_of_eq (hwithdrawal.vouchers c hne).symm) hw hw'
  · exact hbond.kept_elsewhere hwithdrawal hkept hcomputed hmem

theorem RedemptionBonded.setEarned {v : ℕ} {earned : EarnedSnapshot}
    (h : RedemptionBonded s who asset v) :
    RedemptionBonded (s.setEarned asset who earned) who asset v := by
  obtain ⟨hkept, hcomputed, hcollateral⟩ := h
  refine ⟨?_, ?_, hcollateral⟩
  · intro borrowAsset bond value total hbond
    exact hkept borrowAsset bond value total ⟨hbond.named, hbond.debt, hbond.total⟩
  · intro borrowAsset bond debt hnamed howed hpos
    obtain ⟨value, total, hbond⟩ := hcomputed borrowAsset bond debt hnamed howed hpos
    exact ⟨value, total, hbond.named, hbond.debt, hbond.total⟩

theorem redeem_bondsKept {n paid : ℕ} (h : doRedeem s who asset n = .ok (paid, s'))
    (hbonded : VouchersConserved s ∧ Ensures (s.accrueInterest asset) fun s =>
      Ensures (s.exchangeRateStored asset) fun rate => Ensures (calcCollateralAmount n rate) fun v =>
        RedemptionBonded s who asset v) : BondsKept s' who := by
  obtain ⟨s₁, s₂, rate, v, h₁, hrate, h₂, hv, h₃⟩ := doRedeem_ok h
  obtain ⟨-, total, rfl⟩ := updateEarnedStored_ok h₂
  have hconserved := (accrueInterest_vouchers h₁).conserved hbonded.1
  have hbonded₁ : RedemptionBonded s₁ who asset v := ((hbonded.2.of_ok h₁).of_ok hrate).of_ok hv
  exact redeemVoucher_bondsKept h₃ hconserved hbonded₁.setEarned

theorem redeemAll_bondsKept {paid : ℕ} (h : doRedeemAll s who asset = .ok (paid, s'))
    (hbonded : VouchersConserved s ∧ Ensures (s.accrueInterest asset) fun s =>
      RedemptionBonded s who asset (s.depositsOf asset who).voucherBalance) :
    BondsKept s' who := by
  obtain ⟨s₁, s₂, rate, h₁, -, h₂, h₃⟩ := doRedeemAll_ok h
  obtain ⟨-, total, rfl⟩ := updateEarnedStored_ok h₂
  have hconserved := (accrueInterest_vouchers h₁).conserved hbonded.1
  have hbonded₁ := hbonded.2.of_ok h₁
  exact redeemVoucher_bondsKept h₃ hconserved hbonded₁.setEarned

/-! Borrowing. -/

theorem ensureLiquidityForMarketBond_ok {amount : FixedU128}
    (h : s.ensureLiquidityForMarketBond asset who amount = .ok ()) :
    ∃ bond debt value total, s.marketBond asset = some bond ∧
      s.currentBorrowBalance who asset = .ok debt ∧ s.getAssetValue asset debt = .ok value ∧
      sumValues (s.collateralAssetValue who) bond = .ok total ∧
      value.inner + amount.inner ≤ total.inner := by
  simp only [State.ensureLiquidityForMarketBond, FixedU128.checkedSub, bind_eq_ok, okOr_eq_ok,
    ensure_eq_ok, Option.map_eq_some_iff, U128.checkedSub_eq_some] at h
  obtain ⟨bond, hbond, debt, hdebt, value, hvalue, total, htotal, _, ⟨_, ⟨hle, rfl⟩, rfl⟩, hcheck⟩ :=
    h
  refine ⟨bond, debt, value, total, hbond, hdebt, hvalue, htotal, ?_⟩
  have hcheck : amount.inner ≤ total.inner - value.inner := hcheck
  omega

omit [DecidableEq AccountId] in
theorem currentBorrowBalance_accrueInterest {c : CurrencyId} (hc : c ≠ asset)
    (h : s.accrueInterest asset = .ok s') :
    s'.currentBorrowBalance who c = s.currentBorrowBalance who c := by
  have hframe := accrueInterest_frame h
  exact currentBorrowBalance_congr (by rw [hframe.accountBorrows]) (hframe.borrowIndex c hc)

/-- A loan that leaves no dust and whose value is not rounded up with that of the debt. -/
def LoanBonded (s : State cfg) (who : AccountId) (asset : CurrencyId) (n : ℕ) : Prop :=
  cfg.assets.NoDust s.ledger asset cfg.accountId n ∧
    Ensures (s.currentBorrowBalance who asset) fun debt => Ensures (s.getPrice asset) fun price =>
      valueAt price.inner (debt + n) ≤ valueAt price.inner debt + valueAt price.inner n

theorem collateralVouchers_congr {c : CurrencyId} (h : s'.accountDeposits = s.accountDeposits) :
    s'.collateralVouchers c who = s.collateralVouchers c who := by
  unfold State.collateralVouchers State.depositsOf
  rw [h]

theorem lent_frame {n principal : ℕ} (h : ((s.setBorrows asset who principal).setTotalBorrows asset
      (s.totalBorrows asset + n)).transfer asset cfg.accountId who n .expendable = .ok s') :
    s'.marketBond = s.marketBond ∧ s'.prices = s.prices ∧ s'.markets = s.markets ∧
      s'.accountDeposits = s.accountDeposits ∧ ∀ c, s'.currentBorrowBalance who c =
        (s.setBorrows asset who principal).currentBorrowBalance who c := by
  obtain ⟨L, -, rfl⟩ := transfer_ok h
  exact ⟨rfl, rfl, rfl, rfl, fun _ => rfl⟩

theorem currentBorrowBalance_setBorrows_ne {c : CurrencyId} {principal : ℕ}
    (hc : c ≠ asset) : (s.setBorrows asset who principal).currentBorrowBalance who c =
      s.currentBorrowBalance who c := by
  apply currentBorrowBalance_congr
  · have hupdate : Function.update s.accountBorrows asset (Function.update (s.accountBorrows asset)
        who ⟨principal, s.borrowIndex asset⟩) c = s.accountBorrows c := Function.update_of_ne hc _ _
    exact congrFun hupdate who
  · rfl

theorem lent_covered {n borrows : ℕ}
    {value total : FixedU128} (hallowed : s.borrowAllowedForMarketBond asset who n = .ok ())
    (hborrows : s.currentBorrowBalance who asset = .ok borrows)
    (hloan : LoanBonded s who asset n)
    (h : ((s.setBorrows asset who (borrows + n)).setTotalBorrows asset
      (s.totalBorrows asset + n)).transfer asset cfg.accountId who n .expendable = .ok s')
    (hbond : BondAt s' who asset bond value total) : value.inner ≤ total.inner := by
  obtain ⟨hbonds, hprices, hmarkets, hdeposits, hdebts⟩ := lent_frame h
  have hlent := lent_grows h hloan.1
  simp only [State.borrowAllowedForMarketBond, bind_eq_ok] at hallowed
  obtain ⟨_, -, _, -, amount, hamount, hcheck⟩ := hallowed
  obtain ⟨bond₁, debt₁, value₁, total₁, hbond₁, hdebt₁, hvalue₁, htotal₁, hcovers⟩ :=
    ensureLiquidityForMarketBond_ok hcheck
  have hnamed : s.marketBond asset = some bond := hbonds ▸ hbond.named
  rw [hbond₁] at hnamed
  cases hnamed
  rw [hborrows] at hdebt₁
  cases hdebt₁
  obtain ⟨debt, howed, -, hvalue⟩ := hbond.debt
  rw [hdebts] at howed
  rw [getAssetValue_congr hprices] at hvalue
  have hdebt : debt ≤ borrows + n := currentBorrowBalance_setBorrows howed
  have hget : ∃ price, s.getPrice asset = .ok price := by
    simp only [State.getAssetValue, bind_eq_ok] at hvalue
    obtain ⟨price, hprice, -⟩ := hvalue
    exact ⟨price, hprice⟩
  obtain ⟨price, hget⟩ := hget
  obtain ⟨price₀, hprice₀, hv⟩ := getAssetValue_ok hvalue
  obtain ⟨price₁, hprice₁, hv₁⟩ := getAssetValue_ok hvalue₁
  obtain ⟨price₂, hprice₂, hv₂⟩ := getAssetValue_ok hamount
  rw [(getPrice_ok hget).1] at hprice₀ hprice₁ hprice₂
  cases hprice₀
  cases hprice₁
  cases hprice₂
  have hsplit := (hloan.2.of_ok hborrows).of_ok hget
  have hgrown : valueAt price.inner debt ≤ valueAt price.inner (borrows + n) := valueAt_mono hdebt
  have htotal : total₁.inner ≤ total.inner := by
    apply sumValues_le htotal₁ hbond.total
    intro c _ v v' hv hv'
    apply collateralAssetValue_le _ _ hv hv'
    · exact .of_grows (congrFun hprices c) (by rw [hmarkets]) (hlent c)
    · exact Nat.le_of_eq (collateralVouchers_congr hdeposits).symm
  omega

theorem borrow_bondsKept {n : ℕ} (h : doBorrow s who asset n = .ok s')
    (hkept : BondsKept s who) (hcomputed : BondsComputed s who)
    (hloan : Ensures (s.accrueInterest asset) fun s => LoanBonded s who asset n) :
    BondsKept s' who := by
  obtain ⟨s₁, _, borrows, h₁, hallowed, -, ⟨rewards, rfl, -⟩, hborrows, h₃⟩ := doBorrow_ok h
  have hbonded₁ : LoanBonded s₁ who asset n := hloan.of_ok h₁
  have hbonded : LoanBonded (s₁.withRewards rewards) who asset n := hbonded₁
  intro borrowAsset bond value total hbond
  by_cases hasset : borrowAsset = asset
  · subst borrowAsset
    have hallowed : (s₁.withRewards rewards).borrowAllowedForMarketBond asset who n = .ok () :=
      hallowed
    exact lent_covered hallowed hborrows hbonded h₃ hbond
  · obtain ⟨hbonds, hprices, hmarkets, hdeposits, hdebts⟩ := lent_frame h₃
    have hlent := lent_grows h₃ hbonded.1
    have hframe := accrueInterest_frame h₁
    apply hbond.kept hkept hcomputed (hbonds.trans hframe.marketBond)
      (hprices.trans hframe.prices)
    · rw [hdebts, currentBorrowBalance_setBorrows_ne hasset,
        ← currentBorrowBalance_accrueInterest hasset h₁]
      rfl
    · intro c _ v v' hv hv'
      apply collateralAssetValue_le _ _ hv hv'
      · apply MarketKept.of_grows
        · exact congrFun (hprices.trans hframe.prices) c
        · exact congrArg (fun markets => markets.get c) (hmarkets.trans hframe.markets)
        · exact (accrueInterest_grows h₁ c).trans (hlent c)
      · exact Nat.le_of_eq (collateralVouchers_congr (hdeposits.trans hframe.accountDeposits)).symm

/-! The operations of one account. -/

/-- The operation keeps the account's bonds in sight: a loan is rounded like its parts, a
redemption is checked in full, and a transfer or a flag taken away leaves enough collateral. -/
def KeepsBonds (s : State cfg) : Call AccountId → Prop
  | .borrow who asset n => BondsComputed s who ∧
    Ensures (s.accrueInterest asset) fun s => LoanBonded s who asset n
  | .redeem who asset n | .doRedeem who asset n => VouchersConserved s ∧
    Ensures (s.accrueInterest asset) fun s => Ensures (s.exchangeRateStored asset) fun rate =>
      Ensures (calcCollateralAmount n rate) fun v => RedemptionBonded s who asset v
  | .redeemAll who asset => VouchersConserved s ∧ Ensures (s.accrueInterest asset) fun s =>
    RedemptionBonded s who asset (s.depositsOf asset who).voucherBalance
  | .collateralAsset who asset enable | .doCollateralAsset who asset enable =>
    BondsComputed s who ∧
      CoveredWithout s who asset (if enable then 0 else s.collateralVouchers asset who)
  | .transferLendToken token source _ n => BondsComputed s source ∧
    Ensures (underlyingId s token) fun asset => CoveredWithout s source asset n
  | _ => True

theorem bondsKept_step {a : Call AccountId}
    (hown : s.ownOperation a = some (who, asset)) (hkept : BondsKept s who)
    (hkeeps : KeepsBonds s a) (h : step s a = .ok s') : BondsKept s' who := by
  cases a with
  | borrow borrower c n =>
    cases hown
    exact borrow_bondsKept h hkept hkeeps.1 hkeeps.2
  | redeem redeemer c n =>
    cases hown
    simp only [step, bind_eq_ok, pure_eq_ok] at h
    obtain ⟨_, -, ⟨paid, s₁⟩, h₁, rfl⟩ := h
    exact redeem_bondsKept h₁ hkeeps
  | doRedeem redeemer c n =>
    cases hown
    simp only [step, bind_eq_ok, pure_eq_ok] at h
    obtain ⟨⟨paid, s₁⟩, h₁, rfl⟩ := h
    exact redeem_bondsKept h₁ hkeeps
  | redeemAll redeemer c =>
    cases hown
    simp only [step, bind_eq_ok, pure_eq_ok] at h
    obtain ⟨⟨paid, s₁⟩, h₁, rfl⟩ := h
    exact redeemAll_bondsKept h₁ hkeeps
  | collateralAsset owner c enable =>
    cases hown
    exact bondsKept_without (doCollateralAsset_withdrawal (collateralAsset_ok h).2) hkept
      hkeeps.1 hkeeps.2
  | doCollateralAsset owner c enable =>
    cases hown
    exact bondsKept_without (doCollateralAsset_withdrawal h) hkept hkeeps.1 hkeeps.2
  | transferLendToken token source dest n =>
    simp only [State.ownOperation, Option.map_eq_some_iff, Prod.mk.injEq] at hown
    obtain ⟨c, htoken, rfl, rfl⟩ := hown
    have hunderlying : underlyingId s token = .ok c := okOr_eq_ok.mpr htoken
    exact bondsKept_without (transferLendToken_withdrawal h htoken) hkept hkeeps.1
      (hkeeps.2.of_ok hunderlying)
  | _ => contradiction

/-- An account whose bonded debts are covered keeps them covered through every sequence of its
own borrows, redemptions, changes of collateral flags and lend-token transfers that keep the
bonds in sight. -/
theorem market_bonds_kept {who : AccountId} (hkept : BondsKept s who)
    (as : List (Call AccountId))
    (has : Meets step (fun s a => (∃ asset, s.ownOperation a = some (who, asset)) ∧
      KeepsBonds s a) s as) : BondsKept (run step s as) who := by
  have hstep : ∀ (s : State cfg) a s', BondsKept s who →
      (∃ asset, s.ownOperation a = some (who, asset)) ∧ KeepsBonds s a →
        step s a = .ok s' → BondsKept s' who := by
    intro s a s' hkept hok h
    obtain ⟨⟨asset, hown⟩, hkeeps⟩ := hok
    exact bondsKept_step hown hkept hkeeps h
  exact run_invariant (I := fun s => BondsKept s who) hstep as hkept has

section OneBond

variable {who : AccountId} {bonded : CurrencyId} {bond : List CurrencyId}

omit [DecidableEq AccountId] in
theorem marketBond_only (hbond : s.marketBond = Function.update (fun _ => none) bonded (some bond))
    {c : CurrencyId} {l : List CurrencyId} (h : s.marketBond c = some l) : c = bonded ∧ l = bond := by
  rw [hbond] at h
  by_cases hc : c = bonded
  · subst c
    rw [Function.update_self] at h
    exact ⟨rfl, (Option.some.inj h).symm⟩
  · rw [Function.update_of_ne hc] at h
    cases h

theorem bondsKept_only
    (hbond : s.marketBond = Function.update (fun _ => none) bonded (some bond))
    (h : Ensures (s.currentBorrowBalance who bonded) fun debt =>
      Ensures (s.getAssetValue bonded debt) fun value =>
        Ensures (sumValues (s.collateralAssetValue who) bond) fun total =>
          value.inner ≤ total.inner) : BondsKept s who := by
  intro c l value total hat
  obtain ⟨rfl, rfl⟩ := marketBond_only hbond hat.named
  obtain ⟨debt, hdebt, -, hvalue⟩ := hat.debt
  exact ((h.of_ok hdebt).of_ok hvalue).of_ok hat.total

theorem bondsComputed_only
    (hbond : s.marketBond = Function.update (fun _ => none) bonded (some bond))
    (h : Ensures (s.currentBorrowBalance who bonded) fun debt =>
      Yields (s.getAssetValue bonded debt) fun _ =>
        Yields (sumValues (s.collateralAssetValue who) bond) fun _ => True) :
    BondsComputed s who := by
  intro c l debt hnamed hdebt hpos
  obtain ⟨rfl, rfl⟩ := marketBond_only hbond hnamed
  obtain ⟨value, hvalue, hrest⟩ := yields_iff.mp (h.of_ok hdebt)
  obtain ⟨total, htotal, -⟩ := yields_iff.mp hrest
  exact ⟨value, total, hnamed, ⟨debt, hdebt, hpos, hvalue⟩, htotal⟩

theorem coveredWithout_only {n : ℕ}
    (hbond : s.marketBond = Function.update (fun _ => none) bonded (some bond))
    (h : Ensures (s.currentBorrowBalance who bonded) fun debt =>
      Ensures (s.getAssetValue bonded debt) fun value =>
        value.inner ≤ s.bondLeft who asset n bond) : CoveredWithout s who asset n := by
  intro c l hnamed _
  obtain ⟨rfl, rfl⟩ := marketBond_only hbond hnamed
  apply ensures_iff.mpr
  intro debt hdebt _
  exact h.of_ok hdebt

end OneBond

namespace Sample

def onMovr : CurrencyId → Option (List CurrencyId) :=
  Function.update (fun _ => none) movr (some [movr])

def halved : Call ℕ := .transferLendToken (.lend 2) 1 2 250000

def uncovered : Call ℕ := .collateralAsset 1 movr false

theorem secured_bonds : (run step wealthy (secured 1000)).marketBond = onMovr := rfl

theorem halved_bonds : (exec step (run step wealthy (secured 1000)) halved).marketBond = onMovr :=
  rfl

theorem secured_more_bonds : (run step wealthy (secured 5000)).marketBond = onMovr := rfl

theorem uncovered_bonds :
    (exec step (run step wealthy (secured 5000)) uncovered).marketBond = onMovr := rfl

theorem halved_keeps : KeepsBonds (run step wealthy (secured 1000)) halved := by
  refine ⟨bondsComputed_only secured_bonds (by decide +kernel), ?_⟩
  have htoken : underlyingId (run step wealthy (secured 1000)) (.lend 2) = .ok movr := by
    decide +kernel
  have hcovered : CoveredWithout (run step wealthy (secured 1000)) 1 movr 250000 :=
    coveredWithout_only secured_bonds (by decide +kernel)
  generalize run step wealthy (secured 1000) = s at *
  apply ensures_iff.mpr
  intro asset hasset
  cases htoken.symm.trans hasset
  exact hcovered

theorem loan_keeps :
    KeepsBonds (exec step (run step wealthy (secured 1000)) halved) (.borrow 1 movr 1500) := by
  refine ⟨bondsComputed_only halved_bonds (by decide +kernel), ?_⟩
  unfold LoanBonded
  decide +kernel

end Sample

/-- The other half bears a second loan. -/
theorem market_bonds_kept_sample :
    let s := run step Sample.wealthy (Sample.secured 1000)
    let as := [Sample.halved, .borrow 1 Sample.movr 1500]
    (run step s as).currentBorrowBalance 1 Sample.movr = .ok 2500 ∧
      BondsKept (run step s as) 1 := by
  intro s as
  have hdebt : (run step s as).currentBorrowBalance 1 Sample.movr = .ok 2500 := by
    decide +kernel
  have hkept : BondsKept s 1 := bondsKept_only Sample.secured_bonds (by decide +kernel)
  have hhalved : KeepsBonds s Sample.halved := Sample.halved_keeps
  have hloan : KeepsBonds (exec step s Sample.halved) (.borrow 1 Sample.movr 1500) :=
    Sample.loan_keeps
  have hown : s.ownOperation Sample.halved = some (1, Sample.movr) := by decide +kernel
  generalize s = s at *
  refine ⟨hdebt, market_bonds_kept hkept as ?_⟩
  exact ⟨fun _ _ => ⟨⟨_, hown⟩, hhalved⟩, fun _ _ => ⟨⟨_, rfl⟩, hloan⟩, trivial⟩

/-- The MOVR that the bond of MOVR asks for are no longer collateral, although 5000 MOVR are
owed: the unbonded KSM made up for them in the total. -/
theorem bonds_forgotten :
    let s := run step Sample.wealthy (Sample.secured 5000)
    BondsKept s 1 ∧ (step s Sample.uncovered).toBool = true ∧
      ¬ BondsKept (exec step s Sample.uncovered) 1 := by
  intro s
  have hbefore : BondsKept s 1 := bondsKept_only Sample.secured_more_bonds (by decide +kernel)
  refine ⟨hbefore, by decide +kernel, ?_⟩
  have hdebt : Yields ((exec step s Sample.uncovered).currentBorrowBalance 1 Sample.movr)
      (fun debt => debt = 5000 ∧ (exec step s Sample.uncovered).getAssetValue Sample.movr debt =
        .ok ⟨5000⟩) := by decide +kernel
  have htotal : sumValues ((exec step s Sample.uncovered).collateralAssetValue 1) [Sample.movr] =
      .ok ⟨0⟩ := by decide +kernel
  intro hkept
  obtain ⟨debt, hdebt, rfl, hvalue⟩ := yields_iff.mp hdebt
  have hcovered : 5000 ≤ 0 := hkept Sample.movr [Sample.movr] ⟨5000⟩ ⟨0⟩
    ⟨by rw [Sample.uncovered_bonds]; rfl, ⟨5000, hdebt, by decide, hvalue⟩, htotal⟩
  omega

end Bifrost.LendMarket
