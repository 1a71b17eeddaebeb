import Bifrost.Lib.Worth
import Bifrost.LendMarket.Bonds
import Bifrost.LendMarket.BorrowRewards

/-!
# The position of an account in two markets

A deposit or a withdrawal in one market and a loan or a repayment in another, by one account and
without time passing. Each leaves the other market alone; what it does to its own is the debt, or
the vouchers and the pool they are shares of.
-/

namespace Bifrost.LendMarket

open Result Shares
set_option autoImplicit false

variable {AccountId : Type} [DecidableEq AccountId] {cfg : Config AccountId}
  {s s' s₁ t t' : State cfg} {asset c : CurrencyId} {who : AccountId}

/-- Market `c` is as it was. -/
structure Untouched (s s' : State cfg) (c : CurrencyId) : Prop where
  now : s'.now = s.now
  last : s'.lastAccruedInterestTime c = s.lastAccruedInterestTime c
  market : s'.markets.get c = s.markets.get c
  pool : s'.poolOf c = s.poolOf c
  index : s'.borrowIndex c = s.borrowIndex c
  borrows : s'.accountBorrows c = s.accountBorrows c
  vouchers : s'.vouchersOf c = s.vouchersOf c

namespace Untouched

theorem refl (s : State cfg) (c : CurrencyId) : Untouched s s c :=
  ⟨rfl, rfl, rfl, rfl, rfl, rfl, rfl⟩

theorem trans (h : Untouched s s₁ c) (h' : Untouched s₁ s' c) : Untouched s s' c :=
  ⟨h'.now.trans h.now, h'.last.trans h.last, h'.market.trans h.market, h'.pool.trans h.pool,
    h'.index.trans h.index, h'.borrows.trans h.borrows, h'.vouchers.trans h.vouchers⟩

theorem of_ledger (s : State cfg) {L : cfg.assets.Ledger}
    (h : cfg.assets.balance L c cfg.accountId = cfg.assets.balance s.ledger c cfg.accountId) :
    Untouched s { s with ledger := L } c := by
  refine ⟨rfl, rfl, rfl, ?_, rfl, rfl, rfl⟩
  simp only [State.poolOf, State.getTotalCash, cfg.no_holds, h]

theorem of_accrueInterest (hc : c ≠ asset) (h : s.accrueInterest asset = .ok s') :
    Untouched s s' c := by
  rcases accrueInterest_ok h with ⟨-, rfl⟩ | ⟨-, rfl⟩ | ⟨status, -, -, rfl⟩
  · exact ⟨rfl, Function.update_of_ne hc _ _, rfl, rfl, rfl, rfl, rfl⟩
  · exact refl _ c
  · refine ⟨rfl, Function.update_of_ne hc _ _, rfl, ?_, Function.update_of_ne hc _ _, rfl, rfl⟩
    simp [State.poolOf, State.saveMarketStatus, State.getTotalCash, hc,
      State.updateLastAccruedInterestTime]

theorem of_transfer {source dest : AccountId} {n : ℕ} {p : Preservation} (hc : c ≠ asset)
    (h : s.transfer asset source dest n p = .ok s') : Untouched s s' c := by
  obtain ⟨L, hL, rfl⟩ := transfer_ok h
  exact of_ledger s (cfg.assets.transfer_frame hL (Or.inr (Or.inl hc)))

theorem of_withRewards (s : State cfg) (rewards : Rewards AccountId) :
    Untouched s (s.withRewards rewards) c := ⟨rfl, rfl, rfl, rfl, rfl, rfl, rfl⟩

theorem of_setSupply (hc : c ≠ asset) (n : ℕ) : Untouched s (s.setSupply asset n) c := by
  refine ⟨rfl, rfl, rfl, ?_, rfl, rfl, rfl⟩
  rw [poolOf_setSupply, Function.update_of_ne hc]

theorem of_setTotalBorrows (hc : c ≠ asset) (n : ℕ) :
    Untouched s (s.setTotalBorrows asset n) c := by
  refine ⟨rfl, rfl, rfl, ?_, rfl, rfl, rfl⟩
  rw [poolOf_setTotalBorrows, Function.update_of_ne hc]

theorem of_setEarned (s : State cfg) (asset : CurrencyId) (who : AccountId)
    (earned : EarnedSnapshot) : Untouched s (s.setEarned asset who earned) c :=
  ⟨rfl, rfl, rfl, rfl, rfl, rfl, rfl⟩

theorem of_setDeposits (hc : c ≠ asset) (who : AccountId) (o : Option Deposits) :
    Untouched s (s.setDeposits asset who o) c := by
  refine ⟨rfl, rfl, rfl, rfl, rfl, rfl, ?_⟩
  funext x
  simp only [State.vouchersOf, depositsOf_setDeposits_ne o (Or.inl hc)]

theorem of_setBorrows (hc : c ≠ asset) (who : AccountId) (n : ℕ) :
    Untouched s (s.setBorrows asset who n) c :=
  ⟨rfl, rfl, rfl, rfl, rfl, Function.update_of_ne hc _ _, rfl⟩

theorem of_doCollateralAsset {enable : Bool}
    (h : doCollateralAsset s who asset enable = .ok s') : Untouched s s' c := by
  obtain ⟨-, rfl, -⟩ := doCollateralAsset_ok h
  refine ⟨rfl, rfl, rfl, rfl, rfl, rfl, ?_⟩
  funext x
  rcases Classical.em (c = asset ∧ x = who) with ⟨rfl, rfl⟩ | hne
  · simp only [State.vouchersOf, depositsOf_setDeposits_self]
    rfl
  · simp only [State.vouchersOf,
      depositsOf_setDeposits_ne _ (Classical.not_and_iff_not_or_not.mp hne)]

theorem of_doMint {n : ℕ} (hc : c ≠ asset)
    (h : doMint s who asset n = .ok s') : Untouched s s' c := by
  obtain ⟨-, s₁, s₂, s₃, s₄, rate, v, h₁, ⟨rewards, rfl, -⟩, -, h₃, -, -, h₄, s₅, h₅, rfl⟩ :=
    doMint_ok h
  obtain ⟨-, total, rfl⟩ := updateEarnedStored_ok h₃
  obtain rfl := addVouchers_ok h₅
  have hbefore : Untouched s ((s₁.withRewards rewards).setEarned asset who ⟨total, rate⟩) c :=
    ((of_accrueInterest hc h₁).trans (of_withRewards s₁ rewards)).trans
      (of_setEarned _ asset who _)
  exact ((hbefore.trans (of_transfer hc h₄)).trans (of_setDeposits hc who _)).trans
    (of_setSupply hc _)

theorem of_doRedeem {n paid : ℕ} (hc : c ≠ asset)
    (h : doRedeem s who asset n = .ok (paid, s')) : Untouched s s' c := by
  obtain ⟨s₁, s₂, rate, v, h₁, -, h₂, -, h₃⟩ := doRedeem_ok h
  obtain ⟨-, total, rfl⟩ := updateEarnedStored_ok h₂
  obtain ⟨-, s₃, s₄, rate', ⟨rewards, rfl, -⟩, -, -, h₄, -, h₅⟩ := doRedeemVoucher_ok h₃
  obtain ⟨-, o, rfl, -⟩ := removeVouchers_ok h₄
  have hbefore : Untouched s
      ((s₁.setEarned asset who ⟨total, rate⟩).withRewards rewards) c :=
    ((of_accrueInterest hc h₁).trans (of_setEarned s₁ asset who _)).trans
      (of_withRewards _ rewards)
  exact ((hbefore.trans (of_setDeposits hc who o)).trans (of_setSupply hc _)).trans
    (of_transfer hc h₅)

theorem of_doBorrow {n : ℕ} (hc : c ≠ asset)
    (h : doBorrow s who asset n = .ok s') : Untouched s s' c := by
  obtain ⟨s₁, s₂, borrows, h₁, -, -, ⟨rewards, rfl, -⟩, -, h₃⟩ := doBorrow_ok h
  have hbefore : Untouched s (s₁.withRewards rewards) c :=
    (of_accrueInterest hc h₁).trans (of_withRewards s₁ rewards)
  exact ((hbefore.trans (of_setBorrows hc who _)).trans (of_setTotalBorrows hc _)).trans
    (of_transfer hc h₃)

theorem of_doRepayBorrow {n : ℕ} (hc : c ≠ asset)
    (h : doRepayBorrow s who asset n = .ok s') : Untouched s s' c := by
  obtain ⟨s₁, borrows, h₁, -, h₂⟩ := doRepayBorrow_ok h
  obtain ⟨-, s₂, s₃, ⟨rewards, rfl, -⟩, h₃, rfl⟩ := doRepayBorrowWithAmount_ok h₂
  have hbefore : Untouched s (s₁.withRewards rewards) c :=
    (of_accrueInterest hc h₁).trans (of_withRewards s₁ rewards)
  exact ((hbefore.trans (of_transfer hc h₃)).trans (of_setBorrows hc who _)).trans
    (of_setTotalBorrows hc _)

end Untouched

/-! Interest, in markets that are the same. -/

omit [DecidableEq AccountId] in
theorem accrueInterest_eq (hsettled : s.now ≤ s.lastAccruedInterestTime asset)
    (h : s.accrueInterest asset = .ok s') : s' = s := by
  rcases accrueInterest_ok h with ⟨hzero, rfl⟩ | ⟨-, rfl⟩ | ⟨status, hlast, -⟩
  · have hnow : s.now = s.lastAccruedInterestTime asset := by omega
    have hself : Function.update s.lastAccruedInterestTime asset s.now =
        s.lastAccruedInterestTime := by
      rw [hnow, Function.update_eq_self]
    simp only [State.updateLastAccruedInterestTime, hself]
  · rfl
  · omega

theorem getMarketStatus_congr (h : Untouched s t c) :
    t.getMarketStatus c = s.getMarketStatus c := by
  have hcash : t.getTotalCash c = s.getTotalCash c := congrArg Pool.cash h.pool
  have hborrows : t.totalBorrows c = s.totalBorrows c := congrArg Pool.borrows h.pool
  have hreserves : t.totalReserves c = s.totalReserves c := congrArg Pool.reserves h.pool
  have hsupply : t.totalSupply c = s.totalSupply c := congrArg Pool.supply h.pool
  simp only [State.getMarketStatus, State.market, State.addInterest, h.now, h.last, h.market,
    h.index, hcash, hborrows, hreserves, hsupply]

theorem accrueInterest_congr (h : Untouched s t c) (ht : t.accrueInterest c = .ok t') :
    ∃ s', s.accrueInterest c = .ok s' ∧ Untouched s' t' c := by
  have hcash : t.getTotalCash c = s.getTotalCash c := congrArg Pool.cash h.pool
  have hsupply : t.totalSupply c = s.totalSupply c := congrArg Pool.supply h.pool
  rw [State.accrueInterest] at ht ⊢
  simp only [h.now, h.last, getMarketStatus_congr h] at ht
  split at ht
  · rename_i hzero
    rw [if_pos hzero]
    simp only [pure_eq_ok] at ht
    subst ht
    refine ⟨_, rfl, h.now, ?_, h.market, h.pool, h.index, h.borrows, h.vouchers⟩
    simp [State.updateLastAccruedInterestTime]
  · rename_i hzero
    rw [if_neg hzero]
    split at ht
    · rename_i hlast
      rw [if_pos hlast]
      simp only [pure_eq_ok] at ht
      subst ht
      exact ⟨s, rfl, h⟩
    · rename_i hlast
      rw [if_neg hlast]
      simp only [bind_eq_ok, pure_eq_ok] at ht
      obtain ⟨status, hstatus, rfl⟩ := ht
      have hcash' : cfg.assets.reducibleBalance t.ledger c cfg.accountId =
        cfg.assets.reducibleBalance s.ledger c cfg.accountId := hcash
      refine ⟨_, bind_eq_ok.mpr ⟨status, hstatus, rfl⟩, h.now, ?_, h.market, ?_, ?_, h.borrows,
        h.vouchers⟩
      · simp [State.updateLastAccruedInterestTime, State.saveMarketStatus]
      · simp [State.poolOf, State.saveMarketStatus, State.updateLastAccruedInterestTime,
          State.getTotalCash, hcash', hsupply]
      · simp [State.saveMarketStatus]

/-! Debts. -/

def Settled (s : State cfg) (asset : CurrencyId) : Prop :=
  s.now ≤ s.lastAccruedInterestTime asset

theorem Untouched.settled (h : Untouched s s' c) (hs : Settled s c) : Settled s' c := by
  unfold Settled at *
  rw [h.now, h.last]
  exact hs

theorem Untouched.debt (h : Untouched s s' c) (who : AccountId) :
    s'.currentBorrowBalance who c = s.currentBorrowBalance who c :=
  currentBorrowBalance_congr (congrFun h.borrows who) h.index

omit [DecidableEq AccountId] in
theorem currentBorrowBalance_le {n : ℕ}
    (h : s.currentBorrowBalance who asset = .ok n) : n ≤ u128Max := by
  simp only [State.currentBorrowBalance] at h
  split at h
  · simp only [pure_eq_ok] at h
    omega
  · simp only [FixedU128.checkedMulInt, okOr_eq_ok, Option.bind_eq_some_iff,
      U128.mulDiv_eq_some] at h
    obtain ⟨_, -, -, -, hle⟩ := h
    exact hle

omit [DecidableEq AccountId] in
theorem currentBorrowBalance_written {n : ℕ} (hn : n ≤ u128Max)
    (hindex : 0 < (s.borrowIndex asset).inner)
    (h : s.accountBorrows asset who = ⟨n, s.borrowIndex asset⟩) :
    s.currentBorrowBalance who asset = .ok n := by
  simp only [State.currentBorrowBalance, h]
  split
  · rename_i hzero
    rw [hzero.resolve_right hindex.ne']
    rfl
  · have hdiv : (s.borrowIndex asset).inner * FixedU128.accuracy / (s.borrowIndex asset).inner =
        FixedU128.accuracy := Nat.mul_div_cancel_left _ hindex
    have hmul : FixedU128.accuracy * n / FixedU128.accuracy = n :=
      Nat.mul_div_cancel_left n (by decide)
    have hone : FixedU128.accuracy ≤ u128Max := by decide
    simp only [FixedU128.checkedDiv, FixedU128.checkedMulInt, okOr_eq_ok, Option.bind_eq_some_iff,
      Option.map_eq_some_iff, U128.mulDiv_eq_some]
    exact ⟨.one, ⟨FixedU128.accuracy, ⟨hindex, hdiv, hone⟩, rfl⟩, by decide, hmul, hn⟩

variable {who : AccountId} {n debt : ℕ}

theorem doBorrow_debt (hsettled : Settled s asset)
    (hdebt : s.currentBorrowBalance who asset = .ok debt)
    (h : doBorrow s who asset n = .ok s') :
    s'.currentBorrowBalance who asset = .ok (debt + n) ∧ Settled s' asset := by
  simp only [doBorrow, bind_eq_ok, okOr_eq_ok, U128.checkedAdd_eq_some] at h
  obtain ⟨_, -, s₁, h₁, _, -, _, -, t, ht, s₂, h₂, borrows, hborrows, _, ⟨rfl, hle⟩, _,
    ⟨rfl, -⟩, h₃⟩ := h
  obtain rfl := accrueInterest_eq hsettled h₁
  have hstep : s₁.settleBorrower asset who = .ok s₂ := bind_eq_ok.mpr ⟨t, ht, h₂⟩
  have hindex := settleBorrower_borrowIndex hstep
  obtain ⟨rewards, rfl⟩ := settleBorrower_ok hstep
  have hsame : s₁.currentBorrowBalance who asset = .ok borrows := hborrows
  obtain rfl := Except.ok.inj (hdebt.symm.trans hsame)
  obtain ⟨L, -, rfl⟩ := transfer_ok h₃
  refine ⟨currentBorrowBalance_written hle hindex ?_, hsettled⟩
  simp [State.setBorrows]

theorem doRepayBorrow_debt (hsettled : Settled s asset)
    (hdebt : s.currentBorrowBalance who asset = .ok debt)
    (h : doRepayBorrow s who asset n = .ok s') :
    n ≤ debt ∧ s'.currentBorrowBalance who asset = .ok (debt - n) ∧ Settled s' asset := by
  obtain ⟨s₁, borrows, h₁, hborrows, h₂⟩ := doRepayBorrow_ok h
  obtain rfl := accrueInterest_eq hsettled h₁
  obtain rfl := Except.ok.inj (hdebt.symm.trans hborrows)
  obtain ⟨hle, s₂, s₃, ⟨rewards, rfl, hstep⟩, h₃, rfl⟩ := doRepayBorrowWithAmount_ok h₂
  have hindex := settleBorrower_borrowIndex hstep
  have hmax : debt ≤ u128Max := currentBorrowBalance_le hdebt
  obtain ⟨L, -, rfl⟩ := transfer_ok h₃
  refine ⟨hle, currentBorrowBalance_written (by omega) hindex ?_, hsettled⟩
  simp [State.setBorrows, State.setTotalBorrows]

/-! The transfer of each operation. -/

theorem doMint_transfer (h : doMint s who asset n = .ok s') :
    cfg.assets.transfer s.ledger asset who cfg.accountId n .expendable = .ok s'.ledger := by
  obtain ⟨-, s₁, s₂, s₃, s₄, rate, v, h₁, ⟨rewards, rfl, -⟩, -, h₃, -, -, h₄, s₅, h₅, rfl⟩ :=
    doMint_ok h
  obtain ⟨-, total, rfl⟩ := updateEarnedStored_ok h₃
  obtain ⟨L, hL, rfl⟩ := transfer_ok h₄
  obtain rfl := addVouchers_ok h₅
  rw [← (accrueInterest_frame h₁).ledger]
  exact hL

theorem doRedeem_transfer {paid : ℕ} (h : doRedeem s who asset n = .ok (paid, s')) :
    cfg.assets.transfer s.ledger asset cfg.accountId who paid .expendable = .ok s'.ledger := by
  obtain ⟨s₁, s₂, rate, v, h₁, -, h₂, -, h₃⟩ := doRedeem_ok h
  obtain ⟨-, total, rfl⟩ := updateEarnedStored_ok h₂
  obtain ⟨-, s₃, s₄, rate', ⟨rewards, rfl, -⟩, -, -, h₄, -, h₅⟩ := doRedeemVoucher_ok h₃
  obtain ⟨-, o, rfl, -⟩ := removeVouchers_ok h₄
  obtain ⟨L, hL, rfl⟩ := transfer_ok h₅
  rw [← (accrueInterest_frame h₁).ledger]
  exact hL

theorem doBorrow_transfer (h : doBorrow s who asset n = .ok s') :
    cfg.assets.transfer s.ledger asset cfg.accountId who n .expendable = .ok s'.ledger := by
  obtain ⟨s₁, s₂, borrows, h₁, -, -, ⟨rewards, rfl, -⟩, -, h₃⟩ := doBorrow_ok h
  obtain ⟨L, hL, rfl⟩ := transfer_ok h₃
  rw [← (accrueInterest_frame h₁).ledger]
  exact hL

theorem doRepayBorrow_transfer (h : doRepayBorrow s who asset n = .ok s') :
    cfg.assets.transfer s.ledger asset who cfg.accountId n .expendable = .ok s'.ledger := by
  obtain ⟨s₁, borrows, h₁, -, h₂⟩ := doRepayBorrow_ok h
  obtain ⟨-, s₂, s₃, ⟨rewards, rfl, -⟩, h₃, rfl⟩ := doRepayBorrowWithAmount_ok h₂
  obtain ⟨L, hL, rfl⟩ := transfer_ok h₃
  rw [← (accrueInterest_frame h₁).ledger]
  exact hL

/-! Collateral. -/

def State.worthOf (s : State cfg) (asset : CurrencyId) (who : AccountId) : ℕ :=
  s.vouchersOf asset who * (s.poolOf asset).rate / FixedU128.accuracy

theorem Untouched.worth (h : Untouched s s' c) (who : AccountId) :
    s'.worthOf c who = s.worthOf c who := by
  simp only [State.worthOf, h.vouchers, h.pool]

theorem worthOf_bounds (s : State cfg) (asset : CurrencyId) (who : AccountId) :
    s.worthOf asset who * FixedU128.accuracy ≤ s.vouchersOf asset who * (s.poolOf asset).rate ∧
      s.vouchersOf asset who * (s.poolOf asset).rate <
        (s.worthOf asset who + 1) * FixedU128.accuracy := by
  refine ⟨Nat.div_mul_le_self _ _, ?_⟩
  rw [Nat.add_mul, Nat.one_mul]
  exact Nat.lt_div_mul_add (by decide)

omit [DecidableEq AccountId] in
theorem exchangeRateStored_rate {rate : FixedU128} (h : s.exchangeRateStored asset = .ok rate)
    (hsupply : 0 < s.totalSupply asset) : rate.inner = (s.poolOf asset).rate ∧
      0 < rate.inner ∧ rate.inner ≤ FixedU128.accuracy := by
  obtain ⟨-, -, hmin, hmax⟩ := calculateExchangeRate_ok h hsupply
  have hleast : 0 < minExchangeRate.inner := by decide
  have hmost : maxExchangeRate.inner = FixedU128.accuracy := rfl
  exact ⟨(exchangeRateStored_ok h hsupply).1, by omega, by omega⟩

omit [DecidableEq AccountId] in
theorem getTotalCash_eq (s : State cfg) (asset : CurrencyId) :
    s.getTotalCash asset = cfg.assets.balance s.ledger asset cfg.accountId :=
  cfg.no_holds s.ledger asset

theorem doMint_shares (hwho : who ≠ cfg.accountId) (h₁ : s.accrueInterest asset = .ok s₁)
    (h : doMint s who asset n = .ok s') :
    ∃ rate v, s₁.exchangeRateStored asset = .ok rate ∧
      v = n * FixedU128.accuracy / rate.inner ∧
      s'.vouchersOf asset who = s₁.vouchersOf asset who + v ∧
      s'.poolOf asset = ⟨s₁.getTotalCash asset + n, s₁.totalBorrows asset,
        s₁.totalReserves asset, s₁.totalSupply asset + v⟩ := by
  obtain ⟨-, t₁, s₂, s₃, s₄, rate, v, ht₁, ⟨rewards, rfl, -⟩, hrate, h₃, hv, -, h₄, s₅, h₅, rfl⟩ :=
    doMint_ok h
  obtain rfl := Except.ok.inj (h₁.symm.trans ht₁)
  obtain ⟨-, total, rfl⟩ := updateEarnedStored_ok h₃
  have hcash := (cash_received h₄).2.1 hwho
  obtain ⟨L, -, rfl⟩ := transfer_ok h₄
  obtain rfl := addVouchers_ok h₅
  refine ⟨rate, v, hrate, calcCollateralAmount_ok hv, ?_, ?_⟩
  · simp only [State.vouchersOf, State.setSupply]
    change (State.depositsOf (State.setDeposits _ asset who _) asset who).voucherBalance = _
    rw [depositsOf_setDeposits_self]
    rfl
  · simp only [State.poolOf, Pool.mk.injEq]
    exact ⟨hcash, rfl, rfl, Function.update_self _ _ _⟩

theorem doRedeem_shares (hwho : who ≠ cfg.accountId) {paid : ℕ}
    (h₁ : s.accrueInterest asset = .ok s₁) (h : doRedeem s who asset n = .ok (paid, s')) :
    ∃ rate v cash, s₁.exchangeRateStored asset = .ok rate ∧
      v = n * FixedU128.accuracy / rate.inner ∧ paid = v * rate.inner / FixedU128.accuracy ∧
      v ≤ s₁.vouchersOf asset who ∧ s'.vouchersOf asset who = s₁.vouchersOf asset who - v ∧
      s'.poolOf asset = ⟨cash, s₁.totalBorrows asset, s₁.totalReserves asset,
        s₁.totalSupply asset - v⟩ ∧
      cash + paid ≤ s₁.getTotalCash asset ∧
      s₁.getTotalCash asset ≤ cash + paid + cfg.assets.minimumBalance asset := by
  obtain ⟨t₁, s₂, rate, v, ht₁, hrate, h₂, hv, h₃⟩ := doRedeem_ok h
  obtain rfl := Except.ok.inj (h₁.symm.trans ht₁)
  obtain ⟨-, total, rfl⟩ := updateEarnedStored_ok h₂
  have hpaid := calcUnderlyingAmount_ok (redeemVoucher_paid h₃ hrate)
  obtain ⟨-, s₃, s₄, rate', ⟨rewards, rfl, -⟩, -, -, h₄, hsupply, h₅⟩ := doRedeemVoucher_ok h₃
  obtain ⟨hle, o, rfl, ho⟩ := removeVouchers_ok h₄
  obtain ⟨L, hL, rfl⟩ := transfer_ok h₅
  obtain ⟨henough, hrest⟩ := cfg.assets.transfer_debits hL (Ne.symm hwho)
  have hbefore : s₁.getTotalCash asset =
      cfg.assets.balance s₁.ledger asset cfg.accountId := getTotalCash_eq s₁ asset
  have henough' : paid ≤ cfg.assets.balance s₁.ledger asset cfg.accountId := henough
  have hrest' : cfg.assets.balance L asset cfg.accountId =
        cfg.assets.balance s₁.ledger asset cfg.accountId - paid ∨
      (cfg.assets.balance s₁.ledger asset cfg.accountId - paid < cfg.assets.minimumBalance asset ∧
        cfg.assets.balance L asset cfg.accountId = 0) := hrest
  refine ⟨rate, v, cfg.assets.balance L asset cfg.accountId, hrate, calcCollateralAmount_ok hv,
    hpaid, hle, ?_, ?_, by omega, by omega⟩
  · simp only [State.vouchersOf]
    change (State.depositsOf (State.setDeposits _ asset who o) asset who).voucherBalance = _
    rw [depositsOf_setDeposits_self, ho]
    split
    · rename_i hzero
      exact hzero.symm
    · rfl
  · simp only [State.poolOf, Pool.mk.injEq, getTotalCash_eq]
    exact ⟨trivial, rfl, rfl, Function.update_self _ _ _⟩

theorem doMint_worth (hwho : who ≠ cfg.accountId)
    (hheld : s₁.vouchersOf asset who ≤ s₁.totalSupply asset) (hsupply : 0 < s₁.totalSupply asset)
    (h₁ : s.accrueInterest asset = .ok s₁) (h : doMint s who asset n = .ok s') :
    s₁.worthOf asset who + n ≤ s'.worthOf asset who + 1 ∧
      s'.worthOf asset who * FixedU128.accuracy ≤
        (s₁.worthOf asset who + n + 2) * FixedU128.accuracy + s₁.totalSupply asset := by
  obtain ⟨rate, v, hrate, hv, hvouchers, hpool⟩ := doMint_shares hwho h₁ h
  obtain ⟨heq, hpos, hone⟩ := exchangeRateStored_rate hrate hsupply
  have hreserves := (exchangeRateStored_ok hrate hsupply).2
  have hvalue : (s'.poolOf asset).value = (s₁.poolOf asset).value + n := by
    rw [hpool]
    simp only [Pool.value, State.poolOf]
    omega
  have hrate' : (s'.poolOf asset).rate = roundedRate FixedU128.accuracy
      ((s₁.poolOf asset).value + n) (s₁.totalSupply asset + v) := by
    unfold Pool.rate
    rw [hvalue, hpool]
  have hbought : v * (s₁.poolOf asset).rate ≤ n * FixedU128.accuracy := by
    rw [← heq, hv]
    exact Nat.div_mul_le_self _ _
  have hall : n * FixedU128.accuracy < (v + 1) * (s₁.poolOf asset).rate := by
    rw [← heq, hv, Nat.add_mul, Nat.one_mul]
    exact Nat.lt_div_mul_add hpos
  obtain ⟨hleast, hmost⟩ := join_worth hsupply hheld hbought hall
  have hbefore : (s₁.poolOf asset).rate = roundedRate FixedU128.accuracy (s₁.poolOf asset).value
      (s₁.totalSupply asset) := rfl
  rw [← hvouchers, ← hrate', ← hbefore] at hleast hmost
  obtain ⟨hfloor, hfloor'⟩ := worthOf_bounds s₁ asset who
  obtain ⟨hafter, hafter'⟩ := worthOf_bounds s' asset who
  rw [heq] at hone
  simp only [Nat.add_mul, Nat.one_mul] at hfloor' hafter'
  constructor
  · have hlt : (s₁.worthOf asset who + n) * FixedU128.accuracy <
        (s'.worthOf asset who + 1 + 1) * FixedU128.accuracy := by
      simp only [Nat.add_mul, Nat.one_mul]
      omega
    exact Nat.le_of_lt_succ (Nat.lt_of_mul_lt_mul_right hlt)
  · simp only [Nat.add_mul]
    omega

theorem doRedeem_worth (hwho : who ≠ cfg.accountId) {paid : ℕ}
    (hheld : s₁.vouchersOf asset who ≤ s₁.totalSupply asset) (hsupply : 0 < s₁.totalSupply asset)
    (h₁ : s.accrueInterest asset = .ok s₁) (h : doRedeem s who asset n = .ok (paid, s')) :
    s₁.worthOf asset who * FixedU128.accuracy ≤
        (s'.worthOf asset who + n + 1 + cfg.assets.minimumBalance asset) * FixedU128.accuracy +
          s₁.totalSupply asset ∧
      (s'.worthOf asset who + n) * FixedU128.accuracy ≤
        (s₁.worthOf asset who + 3) * FixedU128.accuracy + s₁.totalSupply asset := by
  obtain ⟨rate, v, cash, hrate, hv, hpaid, hle, hvouchers, hpool, hcash, hcash'⟩ :=
    doRedeem_shares hwho h₁ h
  obtain ⟨heq, hpos, hone⟩ := exchangeRateStored_rate hrate hsupply
  have hreserves := (exchangeRateStored_ok hrate hsupply).2
  have hpaidle : paid * FixedU128.accuracy ≤ v * (s₁.poolOf asset).rate := by
    rw [← heq, hpaid]
    exact Nat.div_mul_le_self _ _
  have hall : v * (s₁.poolOf asset).rate < (paid + 1) * FixedU128.accuracy := by
    rw [← heq, hpaid, Nat.add_mul, Nat.one_mul]
    exact Nat.lt_div_mul_add (by decide)
  -- what is paid is there
  have hcovered : paid ≤ (s₁.poolOf asset).value := by
    have hvalue : (s₁.poolOf asset).rate * s₁.totalSupply asset ≤
        (s₁.poolOf asset).value * FixedU128.accuracy := roundedRate_mul_le
    have hshare : v * (s₁.poolOf asset).rate ≤ s₁.totalSupply asset * (s₁.poolOf asset).rate :=
      Nat.mul_le_mul_right _ (hle.trans hheld)
    rw [Nat.mul_comm (s₁.totalSupply asset)] at hshare
    exact Nat.le_of_mul_le_mul_right ((hpaidle.trans hshare).trans hvalue) (by decide)
  have hvalue : (s'.poolOf asset).value =
      cash + s₁.totalBorrows asset - s₁.totalReserves asset := by
    rw [hpool]
    rfl
  have hvalue₁ : (s₁.poolOf asset).value =
      s₁.getTotalCash asset + s₁.totalBorrows asset - s₁.totalReserves asset := rfl
  have hleft : (s₁.poolOf asset).value ≤
      (s'.poolOf asset).value + paid + cfg.assets.minimumBalance asset := by omega
  have hmost : (s'.poolOf asset).value + paid ≤ (s₁.poolOf asset).value := by omega
  have hrate' : (s'.poolOf asset).rate = roundedRate FixedU128.accuracy (s'.poolOf asset).value
      (s₁.totalSupply asset - v) := by
    unfold Pool.rate
    rw [hpool]
  obtain ⟨hlow, hhigh⟩ := leave_worth hle hheld hpaidle hall hleft hmost
  rw [← hrate', ← hvouchers] at hlow hhigh
  have hbefore : (s₁.poolOf asset).rate = roundedRate FixedU128.accuracy (s₁.poolOf asset).value
      (s₁.totalSupply asset) := rfl
  rw [← hbefore] at hlow hhigh
  obtain ⟨hfloor, hfloor'⟩ := worthOf_bounds s₁ asset who
  obtain ⟨hafter, hafter'⟩ := worthOf_bounds s' asset who
  have hsplit : s'.vouchersOf asset who * (s₁.poolOf asset).rate + v * (s₁.poolOf asset).rate =
      s₁.vouchersOf asset who * (s₁.poolOf asset).rate := by
    rw [hvouchers, ← Nat.add_mul, Nat.sub_add_cancel hle]
  have htaken : v * (s₁.poolOf asset).rate ≤ n * FixedU128.accuracy := by
    rw [← heq, hv]
    exact Nat.div_mul_le_self _ _
  have htaken' : n * FixedU128.accuracy < v * (s₁.poolOf asset).rate + (s₁.poolOf asset).rate := by
    rw [← heq, hv]
    exact Nat.lt_div_mul_add hpos
  have hheld' : s'.vouchersOf asset who ≤ s₁.totalSupply asset := by omega
  rw [heq] at hone
  simp only [Nat.add_mul, Nat.one_mul] at hfloor' hafter' ⊢
  constructor
  · omega
  · omega

/-! What `worthOf` is for the callers. -/

theorem supply_pos_of_worth (hheld : s.vouchersOf asset who ≤ s.totalSupply asset)
    (h : 0 < s.worthOf asset who) : 0 < s.totalSupply asset := by
  rcases Nat.eq_zero_or_pos (s.totalSupply asset) with hzero | hpos
  · have hnone : s.vouchersOf asset who = 0 := by omega
    simp [State.worthOf, hnone] at h
  · exact hpos

end Bifrost.LendMarket
