import Bifrost.LeverageStaking.Effects
import Bifrost.VtokenMinting.Agreement

/-!
# The rate that a call leaves

The debt afterwards is the requested rate times what the collateral is worth beyond it. The figures
that decide the amount are read before the collateral's market accrues interest, so what that adds
is missing from them; the other differences are the mint fee, the price of the swap and rounding.
-/

namespace Bifrost.LeverageStaking

open Result Shares Machine
set_option autoImplicit false

variable {AccountId : Type} [DecidableEq AccountId] {cfg : Config AccountId} {s s' s₁ : State cfg}
  {who : AccountId} {asset vtoken : CurrencyId} {n : ℕ} {f : Figures} {rate : FixedU128}

/-! The figures. -/

def State.vtokenPrice (s : State cfg) (vtoken : CurrencyId) : ℚ :=
  price (s.minting.tokenPool vtoken) (s.minting.vtokenIssuance vtoken)

/-- What the collateral of an account is worth in the token, at the rates as they are stored. -/
def State.collateralValue (s : State cfg) (who : AccountId) (vtoken : CurrencyId) : ℕ :=
  redeemedFor (s.minting.tokenPool vtoken) (s.minting.vtokenIssuance vtoken)
    (s.lend.worthOf vtoken who)

theorem currentCollateralAmount_ok {lend : LendMarket.State cfg.lend}
    (hheld : lend.vouchersOf vtoken who ≤ lend.totalSupply vtoken)
    (h : currentCollateralAmount lend who vtoken = .ok n) : n = lend.worthOf vtoken who := by
  simp only [currentCollateralAmount] at h
  have hnone : lend.vouchersOf vtoken who = 0 → n = 0 → n = lend.worthOf vtoken who := by
    intro hvouchers hn
    simp [LendMarket.State.worthOf, hvouchers, hn]
  split at h
  · rename_i hmissing
    simp only [pure_eq_ok] at h
    apply hnone _ h.symm
    simp only [LendMarket.State.hasDeposits, Option.not_isSome_iff_eq_none] at hmissing
    simp only [LendMarket.State.vouchersOf, LendMarket.State.depositsOf, hmissing]
    rfl
  · split at h
    · rename_i hzero
      simp only [pure_eq_ok] at h
      exact hnone hzero h.symm
    · rename_i hsome
      simp only [bind_eq_ok] at h
      obtain ⟨rate, hrate, h⟩ := h
      have hsupply : 0 < lend.totalSupply vtoken := by
        have hvouchers : 0 < lend.vouchersOf vtoken who := Nat.pos_of_ne_zero hsome
        omega
      rw [LendMarket.calcUnderlyingAmount_ok h,
        (LendMarket.exchangeRateStored_rate hrate hsupply).1]
      rfl

theorem figures_value (hmapped : s.minting.tokenToVToken asset = some vtoken)
    (hheld : s.lend.vouchersOf vtoken who ≤ s.lend.totalSupply vtoken)
    (h : s.figures who asset vtoken = .ok (f, s')) :
    s.collateralValue who vtoken = f.baseTokenValue + f.accountBorrows := by
  obtain ⟨deposits, worth, lend, hdeposits, hworth, -, -, hsum, -⟩ := figures_ok h
  rw [VtokenMinting.getCurrencyAmount_ok hworth, VtokenMinting.getTokenPool_of_mapped hmapped,
    currentCollateralAmount_ok hheld hdeposits] at hsum
  exact hsum

/-! The amount. -/

theorem increaseAmount_ok (h : State.increaseAmount f rate = some n) :
    n = (rate.inner - f.currentRate.inner) * f.baseTokenValue / FixedU128.accuracy := by
  simp only [State.increaseAmount, FixedU128.checkedSub, FixedU128.checkedMulInt,
    Option.bind_eq_some_iff, Option.map_eq_some_iff, U128.checkedSub_eq_some,
    U128.mulDiv_eq_some] at h
  obtain ⟨_, ⟨_, ⟨-, rfl⟩, rfl⟩, -, rfl, -⟩ := h
  rfl

theorem reduceAmount_ok (h : State.reduceAmount f rate = some n) :
    (rate.inner = 0 ∧ n = f.accountBorrows) ∨
      n = (f.currentRate.inner - rate.inner) * f.baseTokenValue / FixedU128.accuracy := by
  unfold State.reduceAmount at h
  split at h
  · rename_i hzero
    exact Or.inl ⟨hzero, (Option.some_inj.mp h).symm⟩
  · simp only [FixedU128.checkedSub, FixedU128.checkedMulInt, Option.bind_eq_some_iff,
      Option.map_eq_some_iff, U128.checkedSub_eq_some, U128.mulDiv_eq_some] at h
    obtain ⟨_, ⟨_, ⟨-, rfl⟩, rfl⟩, -, rfl, -⟩ := h
    exact Or.inr rfl

def OnTarget (rate scale debt equity : ℕ) : Prop :=
  rate * equity ≤ (debt + 1) * scale ∧ debt * scale ≤ rate * equity + equity + scale

theorem onTarget_increase {rate scale debt equity : ℕ} (hscale : 0 < scale) (hequity : 0 < equity)
    (hle : debt * scale / equity ≤ rate) :
    OnTarget rate scale (debt + (rate - debt * scale / equity) * equity / scale) equity := by
  have hfloor := Nat.div_mul_le_self (debt * scale) equity
  have hfloor' := Nat.lt_div_mul_add (a := debt * scale) hequity
  generalize debt * scale / equity = current at *
  obtain ⟨rise, rfl⟩ := Nat.exists_eq_add_of_le hle
  rw [Nat.add_sub_cancel_left]
  have hrise := Nat.div_mul_le_self (rise * equity) scale
  have hrise' := Nat.lt_div_mul_add (a := rise * equity) hscale
  unfold OnTarget
  simp only [Nat.add_mul, Nat.one_mul]
  constructor
  · omega
  · omega

theorem onTarget_reduce {rate scale debt equity : ℕ} (hscale : 0 < scale) (hequity : 0 < equity)
    (hle : rate ≤ debt * scale / equity) :
    OnTarget rate scale (debt - (debt * scale / equity - rate) * equity / scale) equity := by
  have hfloor := Nat.div_mul_le_self (debt * scale) equity
  have hfloor' := Nat.lt_div_mul_add (a := debt * scale) hequity
  generalize debt * scale / equity = current at *
  obtain ⟨drop, rfl⟩ := Nat.exists_eq_add_of_le hle
  rw [Nat.add_sub_cancel_left]
  have hdrop := Nat.div_mul_le_self (drop * equity) scale
  have hdrop' := Nat.lt_div_mul_add (a := drop * equity) hscale
  unfold OnTarget
  simp only [Nat.add_mul, Nat.one_mul, Nat.sub_mul] at *
  constructor
  · omega
  · omega

theorem onTarget_zero (scale equity : ℕ) : OnTarget 0 scale 0 equity := by
  unfold OnTarget
  constructor
  · rw [Nat.zero_mul]
    exact Nat.zero_le _
  · rw [Nat.zero_mul, Nat.zero_mul]
    exact Nat.zero_le _

/-! The debt. -/

/-- Interest is accrued, and the account owes this. -/
def State.Owes (s : State cfg) (who : AccountId) (asset : CurrencyId) (debt : ℕ) : Prop :=
  LendMarket.Settled s.lend asset ∧ s.lend.currentBorrowBalance who asset = .ok debt

theorem figures_owes (h : s.figures who asset vtoken = .ok (f, s')) :
    s'.Owes who asset f.accountBorrows := by
  obtain ⟨_, _, lend, -, -, haccrue, hborrows, -, -, -, rfl⟩ := figures_ok h
  exact ⟨LendMarket.accrueInterest_settled haccrue, hborrows⟩

theorem increaseLeverage_owes {debt : ℕ} (hvtoken : convertToVtoken asset = some vtoken)
    (hdebt : s.Owes who asset debt) (h : s.increaseLeverage who asset vtoken n = .ok s') :
    s'.Owes who asset (debt + n) := by
  obtain ⟨s₁, v, s₂, lend₃, lend₄, h₁, h₂, h₃, h₄, h₅⟩ := increaseLeverage_ok h
  obtain ⟨L₁, -, rfl⟩ := mintInto_ok h₁
  obtain ⟨_, minting, -, rfl⟩ := mint_ok h₂
  obtain ⟨L₅, -, rfl⟩ := burnFrom_ok h₅
  have hne : asset ≠ vtoken := (convertToVtoken_ne hvtoken).symm
  have hdeposited := LendMarket.Untouched.of_doMint hne h₃
  obtain ⟨hsettled, hborrows⟩ := hdebt
  have hborrowed := LendMarket.doBorrow_debt (hdeposited.settled hsettled)
    ((hdeposited.debt who).trans hborrows) h₄
  exact ⟨hborrowed.2, hborrowed.1⟩

theorem reduceLeverage_owes {debt : ℕ} (hvtoken : convertToVtoken asset = some vtoken)
    (hdebt : s.Owes who asset debt) (h : s.reduceLeverage who asset vtoken n = .ok s') :
    n ≤ debt ∧ s'.Owes who asset (debt - n) := by
  obtain ⟨id, i, j, s₁, lend₂, dx, paid, lend₃, s₄, -, h₁, h₂, -, h₃, h₄, h₅⟩ :=
    reduceLeverage_ok h
  obtain ⟨L₁, -, rfl⟩ := mintInto_ok h₁
  obtain ⟨pools, L₄, -, rfl⟩ := swap_ok h₄
  obtain ⟨L₅, -, rfl⟩ := burnFrom_ok h₅
  have hne : asset ≠ vtoken := (convertToVtoken_ne hvtoken).symm
  have hflash : (s.setLedger L₁).Owes who asset debt := hdebt
  obtain ⟨hle, hrepaid, hsettled⟩ := LendMarket.doRepayBorrow_debt hflash.1 hflash.2 h₂
  have hredeemed := LendMarket.Untouched.of_doRedeem hne h₃
  refine ⟨hle, hredeemed.settled hsettled, ?_⟩
  exact (hredeemed.debt who).trans hrepaid

/-! What the collateral is worth. -/

/-- What rounding may change of it. -/
def rounding (s s' : State cfg) (who : AccountId) (vtoken : CurrencyId) : ℚ :=
  1 + s.vtokenPrice vtoken * (3 + cfg.lend.assets.minimumBalance vtoken +
    s.lend.totalSupply vtoken / FixedU128.accuracy +
    s'.lend.worthOf vtoken who / s'.minting.vtokenIssuance vtoken)

/-- The collateral once its market has accrued interest. -/
def AccruedValue (s : State cfg) (who : AccountId) (vtoken : CurrencyId) (value : ℕ) : Prop :=
  ∃ lend, s.lend.accrueInterest vtoken = .ok lend ∧
    value = State.collateralValue { s with lend := lend } who vtoken

theorem accrued_shares {lend : LendMarket.State cfg.lend} (who : AccountId)
    (h : s.lend.accrueInterest vtoken = .ok lend) :
    lend.vouchersOf vtoken who = s.lend.vouchersOf vtoken who ∧
      lend.totalSupply vtoken = s.lend.totalSupply vtoken := by
  have hframe := LendMarket.accrueInterest_frame h
  constructor
  · simp only [LendMarket.State.vouchersOf, LendMarket.State.depositsOf, hframe.accountDeposits]
  · rw [hframe.totalSupply]

theorem scaled_le {a b c scale : ℕ} (hscale : 0 < scale) (h : a * scale ≤ b * scale + c) :
    (a : ℚ) ≤ b + c / scale := by
  have hpos : (0 : ℚ) < scale := by exact_mod_cast hscale
  have hcast : (a : ℚ) * scale ≤ b * scale + c := by exact_mod_cast h
  rw [← sub_le_iff_le_add', le_div_iff₀ hpos, sub_mul]
  linarith

theorem supply_pos_of_value (hheld : s.lend.vouchersOf vtoken who ≤ s.lend.totalSupply vtoken)
    (h : 0 < s.collateralValue who vtoken) : 0 < s.lend.totalSupply vtoken := by
  apply LendMarket.supply_pos_of_worth hheld
  apply Nat.pos_of_ne_zero
  intro hzero
  have hnone : s.collateralValue who vtoken = 0 := by
    unfold State.collateralValue redeemedFor
    rw [hzero, Nat.zero_mul, Nat.zero_div, ite_self]
  omega

theorem issuance_of_value (h : 0 < s.collateralValue who vtoken)
    (hpool : s.minting.tokenPool vtoken = 0) : s.minting.vtokenIssuance vtoken = 0 := by
  by_contra hissuance
  simp only [State.collateralValue, redeemedFor, if_neg hissuance, hpool, Nat.mul_zero,
    Nat.zero_div] at h
  omega

theorem pool_of_minted {pool issuance : ℕ} (h : mintedFor pool issuance n ≠ 0)
    (hissuance : issuance = 0) : pool = 0 := by
  by_contra hpool
  apply h
  unfold mintedFor
  rw [if_neg hpool, hissuance, Nat.mul_zero, Nat.zero_div]

theorem increaseLeverage_shares (hwho : ¬cfg.Pooled who)
    (hvtoken : convertToVtoken asset = some vtoken)
    (hmapped : s.minting.tokenToVToken asset = some vtoken)
    (hheld : s.lend.vouchersOf vtoken who ≤ s.lend.totalSupply vtoken)
    (hworth : 0 < s.collateralValue who vtoken)
    (h : s.increaseLeverage who asset vtoken n = .ok s') :
    ∃ lend kept v, s.lend.accrueInterest vtoken = .ok lend ∧
      kept + s.minting.fees.1.mulFloor n = n ∧
      v = mintedFor (s.minting.tokenPool vtoken) (s.minting.vtokenIssuance vtoken) kept ∧ v ≠ 0 ∧
      s'.minting.tokenPool vtoken = s.minting.tokenPool vtoken + kept ∧
      s'.minting.vtokenIssuance vtoken = s.minting.vtokenIssuance vtoken + v ∧
      lend.worthOf vtoken who + v ≤ s'.lend.worthOf vtoken who + 1 ∧
      s'.lend.worthOf vtoken who * FixedU128.accuracy ≤
        (lend.worthOf vtoken who + v + 2) * FixedU128.accuracy + s.lend.totalSupply vtoken := by
  obtain ⟨s₁, v, s₂, lend₃, lend₄, h₁, h₂, h₃, h₄, h₅⟩ := increaseLeverage_ok h
  have hne : vtoken ≠ asset := convertToVtoken_ne hvtoken
  have hlend : cfg.lend.accountId ≠ who := fun heq => hwho (Or.inl heq.symm)
  obtain ⟨-, hkept, -⟩ := mint_balance hwho (isVtoken_of_convertToVtoken hvtoken) h₂
  have hcash := hkept vtoken cfg.lend.accountId hne hlend
  have hflash := mintInto_balance h₁ vtoken cfg.lend.accountId
  rw [if_neg (fun hall => hne hall.1), Nat.add_zero] at hflash
  obtain ⟨L₁, -, rfl⟩ := mintInto_ok h₁
  obtain ⟨minted, minting, hmint, rfl⟩ := mint_ok h₂
  obtain ⟨kept, fee, L₂, es, hfee, hsum, -, hmapped', rfl, rfl⟩ := VtokenMinting.doMint_ok hmint
  obtain rfl : vtoken = minted := Option.some_inj.mp (hmapped.symm.trans hmapped')
  -- the collateral's market is touched by the deposit alone
  have hbefore : LendMarket.Untouched s.lend { s.lend with ledger := cfg.view L₂ } vtoken :=
    LendMarket.Untouched.of_ledger s.lend (hcash.trans hflash)
  obtain ⟨hsome, t, _, _, _, _, _, haccrue, -⟩ := LendMarket.doMint_ok h₃
  obtain ⟨lend, hlend', hsame⟩ := LendMarket.accrueInterest_congr hbefore haccrue
  have hborrow := LendMarket.Untouched.of_doBorrow hne h₄
  have hburn := burnFrom_balance h₅ vtoken cfg.lend.accountId
  rw [if_neg (fun hall => hne hall.1), Nat.add_zero] at hburn
  obtain ⟨L₅, -, hs'⟩ := burnFrom_ok h₅
  have hafter : LendMarket.Untouched lend₃ s'.lend vtoken := by
    rw [hs']
    rw [hs'] at hburn
    exact hborrow.trans (LendMarket.Untouched.of_ledger lend₄ hburn)
  have hpool' : s'.minting.tokenPool vtoken = s.minting.tokenPool vtoken + kept := by
    rw [hs']
    exact Function.update_self _ _ _
  have hissuance' : s'.minting.vtokenIssuance vtoken = s.minting.vtokenIssuance vtoken +
      mintedFor (s.minting.tokenPool vtoken) (s.minting.vtokenIssuance vtoken) kept := by
    rw [hs']
    exact Function.update_self _ _ _
  clear hs'
  obtain ⟨hvouchers, hsupply⟩ := accrued_shares who hlend'
  have hpos := supply_pos_of_value hheld hworth
  have hvouchers' := congrFun hsame.vouchers who
  have hsupply' : t.totalSupply vtoken = lend.totalSupply vtoken :=
    congrArg LendMarket.Pool.supply hsame.pool
  obtain ⟨hleast, hmost⟩ := LendMarket.doMint_worth (Ne.symm hlend) (by omega) (by omega) haccrue h₃
  rw [hsame.worth who, ← hafter.worth who] at hleast hmost
  rw [hsupply', hsupply] at hmost
  refine ⟨lend, kept, _, hlend', ?_, rfl, hsome, hpool', hissuance', hleast, hmost⟩
  rw [hfee] at hsum
  exact hsum

theorem increaseLeverage_value (hwho : ¬cfg.Pooled who)
    (hvtoken : convertToVtoken asset = some vtoken)
    (hmapped : s.minting.tokenToVToken asset = some vtoken)
    (hheld : s.lend.vouchersOf vtoken who ≤ s.lend.totalSupply vtoken)
    (hworth : 0 < s.collateralValue who vtoken)
    (h : s.increaseLeverage who asset vtoken n = .ok s') :
    ∃ value kept, AccruedValue s who vtoken value ∧ kept + s.minting.fees.1.mulFloor n = n ∧
      |(s'.collateralValue who vtoken : ℚ) - (value + kept)| ≤ rounding s s' who vtoken := by
  obtain ⟨lend, kept, v, haccrue, hkept, hv, hsome, hpool', hissuance', hleast, hmost⟩ :=
    increaseLeverage_shares hwho hvtoken hmapped hheld hworth h
  have hscale : 0 < FixedU128.accuracy := by decide
  have hmost' := scaled_le hscale hmost
  have hissuance := issuance_of_value hworth
  refine ⟨_, kept, ⟨lend, haccrue, rfl⟩, hkept, ?_⟩
  simp only [rounding, State.vtokenPrice, State.collateralValue, hpool', hissuance']
  generalize s.minting.tokenPool vtoken = pool at *
  generalize s.minting.vtokenIssuance vtoken = issuance at *
  generalize s'.lend.worthOf vtoken who = after at *
  generalize lend.worthOf vtoken who = before at *
  have hshare : (0 : ℚ) ≤ s.lend.totalSupply vtoken / FixedU128.accuracy := by positivity
  generalize (s.lend.totalSupply vtoken / FixedU128.accuracy : ℚ) = share at *
  subst hv
  have hleast' : (before : ℚ) + mintedFor pool issuance kept ≤ after + (2 + share) := by
    have hcast : (before : ℚ) + mintedFor pool issuance kept ≤ after + 1 := by
      exact_mod_cast hleast
    linarith
  have hmost'' : (after : ℚ) ≤ before + mintedFor pool issuance kept + (2 + share) := by
    push_cast at hmost'
    linarith
  have hgrown := redeemedFor_mint (pool_of_minted hsome) hissuance kept hleast' hmost''
  have hminimum : (0 : ℚ) ≤ cfg.lend.assets.minimumBalance vtoken := Nat.cast_nonneg _
  have hprice := price_nonneg pool issuance
  refine hgrown.trans (add_le_add_right (mul_le_mul_of_nonneg_left ?_ hprice) 1)
  linarith

theorem reduceLeverage_shares (hwho : ¬cfg.Pooled who)
    (hvtoken : convertToVtoken asset = some vtoken)
    (hheld : s.lend.vouchersOf vtoken who ≤ s.lend.totalSupply vtoken)
    (hworth : 0 < s.collateralValue who vtoken)
    (h : s.reduceLeverage who asset vtoken n = .ok s') :
    ∃ lend id i j dx, s.lend.accrueInterest vtoken = .ok lend ∧
      cfg.getPoolId s.pools vtoken asset = some (id, i, j) ∧
      cfg.getSwapInput s.pools id i j n = .ok dx ∧ s'.minting = s.minting ∧
      lend.worthOf vtoken who * FixedU128.accuracy ≤
        (s'.lend.worthOf vtoken who + dx + 1 + cfg.lend.assets.minimumBalance vtoken) *
          FixedU128.accuracy + s.lend.totalSupply vtoken ∧
      (s'.lend.worthOf vtoken who + dx) * FixedU128.accuracy ≤
        (lend.worthOf vtoken who + 3) * FixedU128.accuracy + s.lend.totalSupply vtoken := by
  obtain ⟨id, i, j, s₁, lend₂, dx, paid, lend₃, s₄, hid, h₁, h₂, hdx, h₃, h₄, h₅⟩ :=
    reduceLeverage_ok h
  have hne : vtoken ≠ asset := convertToVtoken_ne hvtoken
  have hlend : cfg.lend.accountId ≠ who := fun heq => hwho (Or.inl heq.symm)
  have hflash := mintInto_balance h₁ vtoken cfg.lend.accountId
  rw [if_neg (fun hall => hne hall.1), Nat.add_zero] at hflash
  obtain ⟨L₁, -, rfl⟩ := mintInto_ok h₁
  -- the collateral's market is touched by the withdrawal alone
  have hrepay := LendMarket.Untouched.of_doRepayBorrow hne h₂
  have hbefore : LendMarket.Untouched s.lend lend₂ vtoken :=
    (LendMarket.Untouched.of_ledger s.lend hflash).trans hrepay
  obtain ⟨t, _, _, _, haccrue, -⟩ := LendMarket.doRedeem_ok h₃
  obtain ⟨lend, hlend', hsame⟩ := LendMarket.accrueInterest_congr hbefore haccrue
  have hburn := burnFrom_balance h₅ vtoken cfg.lend.accountId
  rw [if_neg (fun hall => hne hall.1), Nat.add_zero] at hburn
  obtain ⟨pools, L₄, hswap, rfl⟩ := swap_ok h₄
  have hswapped := cfg.swap_frame hswap vtoken _ hlend cfg.lend_not_pool
  obtain ⟨L₅, -, rfl⟩ := burnFrom_ok h₅
  have hafter : LendMarket.Untouched lend₃ { lend₃ with ledger := L₅ } vtoken :=
    LendMarket.Untouched.of_ledger lend₃ (hburn.trans hswapped)
  obtain ⟨hvouchers, hsupply⟩ := accrued_shares who hlend'
  have hpos := supply_pos_of_value hheld hworth
  have hvouchers' := congrFun hsame.vouchers who
  have hsupply' : t.totalSupply vtoken = lend.totalSupply vtoken :=
    congrArg LendMarket.Pool.supply hsame.pool
  obtain ⟨hleast, hmost⟩ :=
    LendMarket.doRedeem_worth (Ne.symm hlend) (by omega) (by omega) haccrue h₃
  rw [hsame.worth who, ← hafter.worth who, hsupply', hsupply] at hleast hmost
  exact ⟨lend, id, i, j, dx, hlend', hid, hdx, rfl, hleast, hmost⟩

theorem reduceLeverage_value (hwho : ¬cfg.Pooled who)
    (hvtoken : convertToVtoken asset = some vtoken)
    (hheld : s.lend.vouchersOf vtoken who ≤ s.lend.totalSupply vtoken)
    (hworth : 0 < s.collateralValue who vtoken)
    (h : s.reduceLeverage who asset vtoken n = .ok s') :
    ∃ value id i j dx, AccruedValue s who vtoken value ∧
      cfg.getPoolId s.pools vtoken asset = some (id, i, j) ∧
      cfg.getSwapInput s.pools id i j n = .ok dx ∧
      |(s'.collateralValue who vtoken : ℚ) - (value - s.vtokenPrice vtoken * dx)| ≤
        rounding s s' who vtoken := by
  obtain ⟨lend, id, i, j, dx, haccrue, hid, hdx, hminting, hleast, hmost⟩ :=
    reduceLeverage_shares hwho hvtoken hheld hworth h
  have hscale : 0 < FixedU128.accuracy := by decide
  have hleast' := scaled_le hscale hleast
  have hmost' := scaled_le hscale hmost
  refine ⟨_, id, i, j, dx, ⟨lend, haccrue, rfl⟩, hid, hdx, ?_⟩
  simp only [rounding, State.vtokenPrice, State.collateralValue, hminting]
  generalize s.minting.tokenPool vtoken = pool at *
  generalize s.minting.vtokenIssuance vtoken = issuance at *
  generalize s'.lend.worthOf vtoken who = after at *
  generalize lend.worthOf vtoken who = before at *
  generalize cfg.lend.assets.minimumBalance vtoken = minimum at *
  have hminimum : (0 : ℚ) ≤ minimum := Nat.cast_nonneg minimum
  have hshare : (0 : ℚ) ≤ s.lend.totalSupply vtoken / FixedU128.accuracy := by positivity
  generalize (s.lend.totalSupply vtoken / FixedU128.accuracy : ℚ) = share at *
  have hkept : (before : ℚ) ≤ after + dx + (3 + minimum + share) := by
    push_cast at hleast'
    linarith
  have hkept' : (after : ℚ) + dx ≤ before + (3 + minimum + share) := by
    push_cast at hmost'
    linarith
  have hprice := price_nonneg pool issuance
  have hrest : (0 : ℚ) ≤ after / issuance := by positivity
  refine (redeemedFor_leave hkept hkept').trans
    (add_le_add_right (mul_le_mul_of_nonneg_left ?_ hprice) 1)
  linarith

/-! The call. -/

theorem ensureCollateral_frame (h : s.ensureCollateral who vtoken = .ok s') (c : CurrencyId) :
    LendMarket.Untouched s.lend s'.lend c ∧ s'.ledger = s.ledger ∧ s'.minting = s.minting ∧
      s'.pools = s.pools := by
  rcases ensureCollateral_ok h with rfl | ⟨lend, hlend, rfl⟩
  · exact ⟨LendMarket.Untouched.refl _ c, rfl, rfl, rfl⟩
  · refine ⟨LendMarket.Untouched.of_doCollateralAsset hlend, ?_, rfl, rfl⟩
    obtain ⟨-, rfl, -⟩ := LendMarket.doCollateralAsset_ok hlend
    rfl

theorem figures_frame (hvtoken : convertToVtoken asset = some vtoken)
    (h : s.figures who asset vtoken = .ok (f, s')) :
    LendMarket.Untouched s.lend s'.lend vtoken ∧ s'.ledger = s.ledger ∧ s'.minting = s.minting ∧
      s'.pools = s.pools := by
  obtain ⟨_, _, lend, -, -, haccrue, -, -, -, -, rfl⟩ := figures_ok h
  refine ⟨LendMarket.Untouched.of_accrueInterest (convertToVtoken_ne hvtoken) haccrue, ?_, rfl,
    rfl⟩
  exact (LendMarket.accrueInterest_frame haccrue).ledger

/-- What `get_current_borrow_balance` returns. -/
def DebtIs (s : State cfg) (who : AccountId) (asset : CurrencyId) (debt : ℕ) : Prop :=
  ∃ lend, getCurrentBorrowBalance s.lend who asset = .ok (debt, lend)

theorem State.Owes.debtIs {debt : ℕ} (h : s.Owes who asset debt) : DebtIs s who asset debt := by
  obtain ⟨hsettled, hdebt⟩ := h
  unfold DebtIs getCurrentBorrowBalance
  rw [LendMarket.State.accrueInterest]
  split
  · refine ⟨_, bind_eq_ok.mpr ⟨_, rfl, bind_eq_ok.mpr ⟨debt, hdebt, rfl⟩⟩⟩
  · have hlast : s.lend.now ≤ s.lend.lastAccruedInterestTime asset := hsettled
    rw [if_pos hlast]
    refine ⟨_, bind_eq_ok.mpr ⟨_, rfl, bind_eq_ok.mpr ⟨debt, hdebt, rfl⟩⟩⟩

theorem figures_debtIs (hflag : LendMarket.Untouched s.lend s₁.lend asset)
    (h : s₁.figures who asset vtoken = .ok (f, s')) : DebtIs s who asset f.accountBorrows := by
  obtain ⟨_, _, lend₁, -, -, haccrue, hborrows, -⟩ := figures_ok h
  obtain ⟨lend, hlend, hsame⟩ := LendMarket.accrueInterest_congr hflag haccrue
  refine ⟨lend, bind_eq_ok.mpr ⟨lend, hlend, bind_eq_ok.mpr ⟨f.accountBorrows, ?_, rfl⟩⟩⟩
  rw [← hsame.debt who]
  exact hborrows

theorem AccruedValue.congr {value : ℕ} (hlend : LendMarket.Untouched s.lend s₁.lend vtoken)
    (hminting : s₁.minting = s.minting) (h : AccruedValue s₁ who vtoken value) :
    AccruedValue s who vtoken value := by
  obtain ⟨lend₁, haccrue, rfl⟩ := h
  obtain ⟨lend, hlend', hsame⟩ := LendMarket.accrueInterest_congr hlend haccrue
  refine ⟨lend, hlend', ?_⟩
  simp only [State.collateralValue, hminting, hsame.worth who]

theorem rounding_congr (hlend : LendMarket.Untouched s.lend s₁.lend vtoken)
    (hminting : s₁.minting = s.minting) :
    rounding s₁ s' who vtoken = rounding s s' who vtoken := by
  have hsupply : s₁.lend.totalSupply vtoken = s.lend.totalSupply vtoken :=
    congrArg LendMarket.Pool.supply hlend.pool
  simp only [rounding, State.vtokenPrice, hminting, hsupply]

/-- What the move of a debt by an amount costs: the mint fee, or what the swap takes above the price
of a vToken. -/
inductive Costs (s : State cfg) (asset vtoken : CurrencyId) (amount debt debt' : ℕ) : ℚ → Prop where
  | fee (hrise : debt' = debt + amount) :
      Costs s asset vtoken amount debt debt' (s.minting.fees.1.mulFloor amount)
  | swap (id i j dx : ℕ) (hfall : debt = debt' + amount)
      (hpool : cfg.getPoolId s.pools vtoken asset = some (id, i, j))
      (hinput : cfg.getSwapInput s.pools id i j amount = .ok dx) :
      Costs s asset vtoken amount debt debt' (s.vtokenPrice vtoken * dx - amount)

theorem OnTarget.near {rate scale debt equity : ℕ} {x e : ℚ} (h : OnTarget rate scale debt equity)
    (hscale : 0 < scale) (hequity : |x - equity| ≤ e) :
    |(debt : ℚ) - rate / scale * x| ≤ 1 + equity / scale + rate / scale * e := by
  have hpos : (0 : ℚ) < scale := by exact_mod_cast hscale
  have hrate : (0 : ℚ) ≤ rate / scale := by positivity
  obtain ⟨hleast, hmost⟩ := h
  have hleast' : (rate : ℚ) / scale * equity ≤ debt + 1 := by
    rw [div_mul_eq_mul_div, div_le_iff₀ hpos]
    exact_mod_cast hleast
  have hmost' : (debt : ℚ) ≤ rate / scale * equity + equity / scale + 1 := by
    have hcast : (debt : ℚ) ≤ (rate * equity + equity + scale : ℕ) / scale := by
      rw [le_div_iff₀ hpos]
      exact_mod_cast hmost
    have hsplit : ((rate * equity + equity + scale : ℕ) : ℚ) / scale =
        rate / scale * equity + equity / scale + 1 := by
      push_cast
      field_simp
    exact hcast.trans_eq hsplit
  have hshare : (0 : ℚ) ≤ equity / scale := by positivity
  have hoff : |(debt : ℚ) - rate / scale * equity| ≤ 1 + equity / scale := by
    rw [abs_le]
    constructor
    · linarith
    · linarith
  have herror : |(rate : ℚ) / scale * (x - equity)| ≤ rate / scale * e := by
    rw [abs_mul, abs_of_nonneg hrate]
    exact mul_le_mul_of_nonneg_left hequity hrate
  have hsplit : (debt : ℚ) - rate / scale * x =
      (debt - rate / scale * equity) - rate / scale * (x - equity) := by ring
  rw [hsplit]
  exact (abs_sub _ _).trans (add_le_add hoff herror)

/-- What a call leaves: the debt, and how near it is to the rate. -/
def Lands (s s' : State cfg) (who : AccountId) (asset vtoken : CurrencyId) (rate : FixedU128)
    (amount debt : ℕ) : Prop :=
  ∃ debt' value cost, s'.Owes who asset debt' ∧ (rate.inner = 0 → debt' = 0) ∧
    AccruedValue s who vtoken value ∧ Costs s asset vtoken amount debt debt' cost ∧
    |(debt' : ℚ) - rate.inner / FixedU128.accuracy * (s'.collateralValue who vtoken - debt' +
        cost - (value - s.collateralValue who vtoken))| ≤
      1 + (s.collateralValue who vtoken - debt) / FixedU128.accuracy +
        rate.inner / FixedU128.accuracy * rounding s s' who vtoken

theorem Costs.congr {amount debt debt' : ℕ} {cost : ℚ} (hminting : s₁.minting = s.minting)
    (hpools : s₁.pools = s.pools) (h : Costs s₁ asset vtoken amount debt debt' cost) :
    Costs s asset vtoken amount debt debt' cost := by
  cases h with
  | fee hrise =>
    rw [hminting]
    exact .fee hrise
  | swap id i j dx hfall hpool hinput =>
    rw [hpools] at hpool hinput
    have hprice : s₁.vtokenPrice vtoken = s.vtokenPrice vtoken := by
      simp only [State.vtokenPrice, hminting]
    rw [hprice]
    exact .swap id i j dx hfall hpool hinput

theorem Lands.congr {amount debt : ℕ}
    (hlend : LendMarket.Untouched s.lend s₁.lend vtoken) (hminting : s₁.minting = s.minting)
    (hpools : s₁.pools = s.pools) (h : Lands s₁ s' who asset vtoken rate amount debt) :
    Lands s s' who asset vtoken rate amount debt := by
  obtain ⟨debt', value, cost, howes, hzero, hvalue, hcost, hnear⟩ := h
  have hcollateral : s₁.collateralValue who vtoken = s.collateralValue who vtoken := by
    simp only [State.collateralValue, hminting, hlend.worth who]
  rw [hcollateral, rounding_congr hlend hminting] at hnear
  exact ⟨debt', value, cost, howes, hzero, hvalue.congr hlend hminting,
    hcost.congr hminting hpools, hnear⟩

theorem increaseLeverage_lands (hwho : ¬cfg.Pooled who)
    (hvtoken : convertToVtoken asset = some vtoken)
    (hmapped : s.minting.tokenToVToken asset = some vtoken)
    (hheld : s.lend.vouchersOf vtoken who ≤ s.lend.totalSupply vtoken)
    (howes : s.Owes who asset f.accountBorrows)
    (hvalue : s.collateralValue who vtoken = f.baseTokenValue + f.accountBorrows)
    (hbase : 0 < f.baseTokenValue)
    (hcurrent : f.currentRate.inner = f.accountBorrows * FixedU128.accuracy / f.baseTokenValue)
    (hlt : f.currentRate.inner < rate.inner) (hamount : State.increaseAmount f rate = some n)
    (h : s.increaseLeverage who asset vtoken n = .ok s') :
    Lands s s' who asset vtoken rate n f.accountBorrows := by
  obtain ⟨value, kept, haccrued, hkept, hworth⟩ :=
    increaseLeverage_value hwho hvtoken hmapped hheld (by omega) h
  have hn := increaseAmount_ok hamount
  have hscale : 0 < FixedU128.accuracy := by decide
  refine ⟨_, value, _, increaseLeverage_owes hvtoken howes h, ?_, haccrued, .fee rfl, ?_⟩
  · intro hzero
    omega
  · have htarget : OnTarget rate.inner FixedU128.accuracy (f.accountBorrows + n)
        f.baseTokenValue := by
      rw [hn, hcurrent]
      exact onTarget_increase hscale hbase (by omega)
    have hequity : ((s.collateralValue who vtoken : ℚ) - f.accountBorrows) = f.baseTokenValue := by
      rw [hvalue]
      push_cast
      ring
    rw [hequity]
    apply htarget.near hscale
    have hkept' : (kept : ℚ) + s.minting.fees.1.mulFloor n = n := by exact_mod_cast hkept
    have hoff : (s'.collateralValue who vtoken : ℚ) - (f.accountBorrows + n : ℕ) +
        s.minting.fees.1.mulFloor n - (value - s.collateralValue who vtoken) - f.baseTokenValue =
          s'.collateralValue who vtoken - (value + kept) := by
      push_cast
      linarith
    rw [hoff]
    exact hworth

theorem reduceLeverage_lands (hwho : ¬cfg.Pooled who)
    (hvtoken : convertToVtoken asset = some vtoken)
    (hheld : s.lend.vouchersOf vtoken who ≤ s.lend.totalSupply vtoken)
    (howes : s.Owes who asset f.accountBorrows)
    (hvalue : s.collateralValue who vtoken = f.baseTokenValue + f.accountBorrows)
    (hbase : 0 < f.baseTokenValue)
    (hcurrent : f.currentRate.inner = f.accountBorrows * FixedU128.accuracy / f.baseTokenValue)
    (hlt : rate.inner < f.currentRate.inner) (hamount : State.reduceAmount f rate = some n)
    (h : s.reduceLeverage who asset vtoken n = .ok s') :
    Lands s s' who asset vtoken rate n f.accountBorrows := by
  obtain ⟨value, id, i, j, dx, haccrued, hid, hdx, hworth⟩ :=
    reduceLeverage_value hwho hvtoken hheld (by omega) h
  obtain ⟨hle, howes'⟩ := reduceLeverage_owes hvtoken howes h
  have hscale : 0 < FixedU128.accuracy := by decide
  have htarget : OnTarget rate.inner FixedU128.accuracy (f.accountBorrows - n) f.baseTokenValue ∧
      (rate.inner = 0 → f.accountBorrows - n = 0) := by
    rcases reduceAmount_ok hamount with ⟨hzero, rfl⟩ | hn
    · rw [hzero, Nat.sub_self]
      exact ⟨onTarget_zero _ _, fun _ => rfl⟩
    · refine ⟨?_, ?_⟩
      · rw [hn, hcurrent]
        exact onTarget_reduce hscale hbase (by omega)
      · intro hzero
        rw [State.reduceAmount, if_pos hzero] at hamount
        rw [Option.some_inj.mp hamount, Nat.sub_self]
  refine ⟨_, value, _, howes', htarget.2, haccrued, .swap id i j dx (by omega) hid hdx, ?_⟩
  have hequity : ((s.collateralValue who vtoken : ℚ) - f.accountBorrows) = f.baseTokenValue := by
    rw [hvalue]
    push_cast
    ring
  rw [hequity]
  apply htarget.1.near hscale
  have hoff : (s'.collateralValue who vtoken : ℚ) - (f.accountBorrows - n : ℕ) +
      (s.vtokenPrice vtoken * dx - n) - (value - s.collateralValue who vtoken) -
        f.baseTokenValue =
          s'.collateralValue who vtoken - (value - s.vtokenPrice vtoken * dx) := by
    rw [Nat.cast_sub hle]
    linarith
  rw [hoff]
  exact hworth

/-- The flash loan is burned in full, out of what the caller borrows or swaps for. What it then owes
is the rate times its equity, up to the cost of the move, the interest of its collateral's market
and rounding; a rate of zero leaves no debt. -/
theorem flash_loan_hits_target {rate : FixedU128} (hwho : ¬cfg.Pooled who)
    (hvtoken : convertToVtoken asset = some vtoken)
    (hmapped : s.minting.tokenToVToken asset = some vtoken)
    (hheld : s.lend.vouchersOf vtoken who ≤ s.lend.totalSupply vtoken)
    (h : flashLoanDeposit s who asset rate = .ok s') :
    ∃ amount debt debt' value cost,
      Loaned s s' who asset amount ∧ s.balance asset who ≤ s'.balance asset who ∧
      OthersKept s s' who ∧
      DebtIs s who asset debt ∧ DebtIs s' who asset debt' ∧ (rate.inner = 0 → debt' = 0) ∧
      AccruedValue s who vtoken value ∧ Costs s asset vtoken amount debt debt' cost ∧
      |(debt' : ℚ) - rate.inner / FixedU128.accuracy * (s'.collateralValue who vtoken - debt' +
          cost - (value - s.collateralValue who vtoken))| ≤
        1 + (s.collateralValue who vtoken - debt) / FixedU128.accuracy +
          rate.inner / FixedU128.accuracy * rounding s s' who vtoken := by
  obtain ⟨v, s₁, f, s₂, s₃, hv, h₁, h₂, h₃, rfl⟩ := flashLoanDeposit_ok h
  obtain rfl : v = vtoken := Option.some_inj.mp (hv.symm.trans hvtoken)
  obtain ⟨hflag, hledger₁, hminting₁, hpools₁⟩ := ensureCollateral_frame h₁ v
  obtain ⟨hflagAsset, -, -, -⟩ := ensureCollateral_frame h₁ asset
  obtain ⟨haccrue, hledger₂, hminting₂, hpools₂⟩ := figures_frame hvtoken h₂
  have hlend := hflag.trans haccrue
  have hledger := hledger₂.trans hledger₁
  have hminting := hminting₂.trans hminting₁
  have hpools := hpools₂.trans hpools₁
  have hheld₁ : s₁.lend.vouchersOf v who ≤ s₁.lend.totalSupply v := by
    have hvouchers := congrFun hflag.vouchers who
    have hsupply : s₁.lend.totalSupply v = s.lend.totalSupply v :=
      congrArg LendMarket.Pool.supply hflag.pool
    omega
  have hheld₂ : s₂.lend.vouchersOf v who ≤ s₂.lend.totalSupply v := by
    have hvouchers := congrFun hlend.vouchers who
    have hsupply : s₂.lend.totalSupply v = s.lend.totalSupply v :=
      congrArg LendMarket.Pool.supply hlend.pool
    omega
  have hmapped₁ : s₁.minting.tokenToVToken asset = some v := by
    rw [hminting₁]
    exact hmapped
  have hmapped₂ : s₂.minting.tokenToVToken asset = some v := by
    rw [hminting]
    exact hmapped
  have hvalue := figures_value hmapped₁ hheld₁ h₂
  have hvalue₂ : s₂.collateralValue who v = f.baseTokenValue + f.accountBorrows := by
    rw [← hvalue]
    simp only [State.collateralValue, hminting₂, haccrue.worth who]
  obtain ⟨_, _, _, -, -, -, -, -, hbase, hcurrent, -⟩ := figures_ok h₂
  have howes := figures_owes h₂
  have hbalance : s₂.balance asset who = s.balance asset who := by
    unfold State.balance
    rw [hledger]
  have hothers : OthersKept s s₂ who := by
    intro c x _ _
    unfold State.balance
    rw [hledger]
  have hdone : ∃ amount, Loaned s₂ s₃ who asset amount ∧
      s₂.balance asset who ≤ s₃.balance asset who ∧ OthersKept s₂ s₃ who ∧
        Lands s₂ s₃ who asset v rate amount f.accountBorrows := by
    rcases setLeverage_ok h₃ with ⟨hlt, amount, hamount, h₃⟩ | ⟨hlt, amount, hamount, h₃⟩
    · obtain ⟨hkept, hkept'⟩ := reduceLeverage_balance hwho hvtoken h₃
      exact ⟨amount, reduceLeverage_loaned h₃, hkept, hkept', reduceLeverage_lands hwho hvtoken hheld₂
        howes hvalue₂ hbase hcurrent hlt hamount h₃⟩
    · obtain ⟨hkept, hkept'⟩ := increaseLeverage_balance hwho hvtoken h₃
      exact ⟨amount, increaseLeverage_loaned h₃, hkept.ge, hkept', increaseLeverage_lands hwho
        hvtoken hmapped₂ hheld₂ howes hvalue₂ hbase hcurrent hlt hamount h₃⟩
  obtain ⟨amount, ⟨L, L', hmint, hburn⟩, hkept, hkept', hlands⟩ := hdone
  obtain ⟨debt', value, cost, howes', hzero, haccrued, hcost, hnear⟩ :=
    hlands.congr hlend hminting hpools
  rw [hledger] at hmint
  rw [hbalance] at hkept
  exact ⟨amount, f.accountBorrows, debt', value, cost, ⟨L, L', hmint, hburn⟩, hkept,
    hothers.trans hkept', figures_debtIs hflagAsset h₂, State.Owes.debtIs howes', hzero, haccrued,
    hcost, hnear⟩

namespace Sample

def dot : CurrencyId := .token2 0

def vdot : CurrencyId := .vToken2 0

def lendConfig : LendMarket.Config ℕ :=
  { LendMarket.Sample.config with
    assets := Assets.fungibles ℕ fun _ => 1
    no_holds := fun _ _ => rfl
    not_dust := by decide }

def mintingConfig : VtokenMinting.Config ℕ :=
  { VtokenMinting.Sample.config with
    currency := Tokens.multiCurrency ℕ fun _ => 1
    entranceAccount := 103
    feeAccount := 104 }

/-- A swap of vDOT for DOT with the pool account 105, one for one. -/
def swap (L : Assets.Accounts ℕ) (who dx least : ℕ) : Except ℕ (Unit × Assets.Accounts ℕ) :=
  if who = 105 ∨ L vdot who < dx ∨ L dot 105 < least then .error 0
  else
    let L' := Assets.setBalance (Assets.setBalance L vdot who (L vdot who - dx)) vdot 105
      (L vdot 105 + dx)
    .ok ((), Assets.setBalance (Assets.setBalance L' dot 105 (L' dot 105 - least)) dot who
      (L' dot who + least))

theorem swap_ok {L L' : Assets.Accounts ℕ} {who dx least : ℕ}
    (h : swap L who dx least = .ok ((), L')) :
    L' dot who = L dot who + least ∧ ∀ c y, y ≠ who → y ≠ 105 → L' c y = L c y := by
  unfold swap at h
  split at h
  · cases h
  · obtain ⟨-, rfl⟩ := Prod.mk.inj (Except.ok.inj h)
    constructor
    · simp [Assets.setBalance, dot, vdot]
    · intro c y hy hpool
      simp [Assets.setBalance, hy, hpool]

def mintInto (L : Assets.Accounts ℕ) (c : CurrencyId) (x n : ℕ) :
    Except FungiblesError (Assets.Accounts ℕ) :=
  .ok (Assets.setBalance L c x (L c x + n))

def burnFrom (L : Assets.Accounts ℕ) (c : CurrencyId) (x n : ℕ) :
    Except FungiblesError (Assets.Accounts ℕ) :=
  if n ≤ L c x then .ok (Assets.setBalance L c x (L c x - n)) else .error .fundsUnavailable

theorem mintInto_credits {L L' : Assets.Accounts ℕ} {c : CurrencyId} {x n : ℕ}
    (h : mintInto L c x n = .ok L') (d : CurrencyId) (y : ℕ) :
    L' d y = L d y + if d = c ∧ y = x then n else 0 := by
  obtain rfl := Except.ok.inj h
  by_cases hx : d = c ∧ y = x
  · obtain ⟨rfl, rfl⟩ := hx
    simp [Assets.setBalance]
  · simp [Assets.setBalance, hx]

theorem burnFrom_debits {L L' : Assets.Accounts ℕ} {c : CurrencyId} {x n : ℕ}
    (h : burnFrom L c x n = .ok L') (d : CurrencyId) (y : ℕ) :
    (L' d y + if d = c ∧ y = x then n else 0) = L d y := by
  unfold burnFrom at h
  split at h
  · obtain rfl := Except.ok.inj h
    by_cases hx : d = c ∧ y = x
    · obtain ⟨rfl, rfl⟩ := hx
      simp [Assets.setBalance]
      omega
    · simp [Assets.setBalance, hx]
  · cases h

def config : Config ℕ where
  lend := lendConfig
  minting := mintingConfig
  view := Equiv.refl _
  mintInto := mintInto
  burnFrom := burnFrom
  Pools := Unit
  getPoolId := fun _ input output =>
    if input = vdot ∧ output = dot then some (0, 0, 1) else none
  getSwapInput := fun _ _ _ _ n => .ok n
  swap := fun _ L who _ _ _ dx least => swap L who dx least
  PoolAccount := fun x => x = 105
  balance_view := fun _ _ _ => rfl
  alive := by
    intro L c x
    exact Nat.eq_zero_or_pos _
  mintInto_credits := mintInto_credits
  burnFrom_debits := burnFrom_debits
  deposit_credits := by
    intro L L' c x n h d y
    exact @Tokens.deposit_credits ℕ _ (fun _ => 1) L L' c x n h d y
  record_frame := by
    intro L L' channel v n h
    obtain rfl := Except.ok.inj h
    rfl
  swap_pays := by
    intro P P' L L' x input output id i j dx least hid h
    split at hid
    · rename_i hpair
      rw [hpair.2]
      exact (swap_ok h).1.ge
    · cases hid
  swap_frame := by
    intro P P' L L' x id i j dx least h c y hy hpool
    exact (swap_ok h).2 c y hy hpool
  lend_not_pool := by decide

/-- Accounts 1 and 2 have DOT, and so has the stable pool. -/
def holders : Assets.Accounts ℕ := fun c x =>
  if c = dot ∧ (x = 1 ∨ x = 2 ∨ x = 105) then 200000 else 0

def minting : VtokenMinting.State config.minting :=
  run VtokenMinting.step (VtokenMinting.genesis mintingConfig holders)
    [.setVtokenMultimap vdot [⟨dot, true⟩], .setOngoingTimeUnit dot (.era 1),
      .mint 1 dot 100000 none]

/-- Account 1 supplies 10000 vDOT, account 2 borrows half of it against DOT, and a year passes. -/
def supplied : List (LendMarket.Call ℕ) :=
  [.addMarket dot LendMarket.Sample.market, .activateMarket dot,
    .addMarket vdot { LendMarket.Sample.market with lendTokenId := .lend 1 },
    .activateMarket vdot, .addMarketBond dot [vdot], .addMarketBond vdot [dot],
    .mint 1 vdot 10000, .mint 2 dot 100000, .collateralAsset 2 dot true, .borrow 2 vdot 5000,
    .advance 31536000 1]

def start : State config where
  lend := run LendMarket.step
    (LendMarket.genesis lendConfig minting.ledger (fun _ => some .one) 1 1) supplied
  minting := minting
  pools := ()
  events := []

def half : FixedU128 := ⟨500000000000000000⟩

def move (s : State config) (rate : FixedU128) : Except Fault (State config) :=
  flashLoanDeposit s 1 dot rate

def raised : State config := exec move start half

theorem start_raised : flashLoanDeposit start 1 dot half = .ok raised := by
  have hok : (move start half).toBool = true := by decide
  exact ok_exec hok

end Sample

theorem flash_loan_hits_target_sample :
    ∃ amount debt debt' value cost,
      Loaned Sample.start Sample.raised 1 Sample.dot amount ∧
      DebtIs Sample.start 1 Sample.dot debt ∧ DebtIs Sample.raised 1 Sample.dot debt' ∧
      AccruedValue Sample.start 1 Sample.vdot value ∧
      Costs Sample.start Sample.dot Sample.vdot amount debt debt' cost := by
  have hwho : ¬Sample.config.Pooled 1 := by
    rintro (h | h | h | h | h)
    · exact absurd h (by decide)
    · exact absurd h (by decide)
    · exact absurd h (by decide)
    · exact absurd h (show ¬(1 : ℕ) = 105 by decide)
    · cases h
  have hheld : Sample.start.lend.vouchersOf Sample.vdot 1 ≤
      Sample.start.lend.totalSupply Sample.vdot := by decide
  obtain ⟨amount, debt, debt', value, cost, hloaned, -, -, hdebt, hdebt', -, hvalue, hcost, -⟩ :=
    flash_loan_hits_target hwho rfl (by decide) hheld Sample.start_raised
  exact ⟨amount, debt, debt', value, cost, hloaned, hdebt, hdebt', hvalue, hcost⟩

/-- A year of interest on the collateral is not in the figures: the debt is 5000 where half of the
equity is 5148, and rounding accounts for less than 4. -/
theorem flash_loan_misses_target :
    flashLoanDeposit Sample.start 1 Sample.dot Sample.half = .ok Sample.raised ∧
      DebtIs Sample.raised 1 Sample.dot 5000 ∧
      Sample.start.minting.fees.1.mulFloor 5000 = 0 ∧
      Sample.raised.collateralValue 1 Sample.vdot = 15297 ∧
      ¬|((5000 : ℕ) : ℚ) - Sample.half.inner / FixedU128.accuracy *
          (Sample.raised.collateralValue 1 Sample.vdot - (5000 : ℕ) + 0)| ≤
        1 + (Sample.start.collateralValue 1 Sample.vdot - 0) / FixedU128.accuracy +
          Sample.half.inner / FixedU128.accuracy *
            rounding Sample.start Sample.raised 1 Sample.vdot := by
  have hdebt : Sample.raised.Owes 1 Sample.dot 5000 := by
    constructor
    · show Sample.raised.lend.now ≤ Sample.raised.lend.lastAccruedInterestTime Sample.dot
      decide
    · decide
  have hvalue : Sample.raised.collateralValue 1 Sample.vdot = 15297 := by decide
  have hbefore : Sample.start.collateralValue 1 Sample.vdot = 10000 := by decide
  have hprice : Sample.start.vtokenPrice Sample.vdot = 1 := by
    have hpool : Sample.start.minting.tokenPool Sample.vdot = 100000 := by decide
    have hissuance : Sample.start.minting.vtokenIssuance Sample.vdot = 100000 := by decide
    simp [State.vtokenPrice, Shares.price, hpool, hissuance]
  have hsupply : Sample.start.lend.totalSupply Sample.vdot = 500000 := by decide
  have hworth : Sample.raised.lend.worthOf Sample.vdot 1 = 15297 := by decide
  have hissued : Sample.raised.minting.vtokenIssuance Sample.vdot = 105000 := by decide
  have hminimum : Sample.config.lend.assets.minimumBalance Sample.vdot = 1 := rfl
  have hrate : (Sample.half.inner : ℚ) / FixedU128.accuracy = 1 / 2 := by
    norm_num [Sample.half, FixedU128.accuracy]
  refine ⟨Sample.start_raised, hdebt.debtIs, by decide, hvalue, ?_⟩
  rw [hvalue, hbefore, hrate]
  unfold rounding
  rw [hprice, hminimum, hsupply, hworth, hissued]
  norm_num [FixedU128.accuracy]

end Bifrost.LeverageStaking
