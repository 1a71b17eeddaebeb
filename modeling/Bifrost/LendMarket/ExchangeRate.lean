import Bifrost.Lib.Shares
import Bifrost.LendMarket.Transitions

/-!
# The exchange rate of vouchers

The vouchers of a market are shares in its cash and its borrows less its reserves, at a rate
rounded down to `FixedU128`. Interest, deposits, withdrawals, loans, repayments and
liquidations keep the rate from falling as long as what the pallet account pays and receives is
what its ledger gains and loses: `add_reserves` books a payment of the pallet account to itself
as new reserves, and a payment that leaves dust loses the dust.
-/

namespace Bifrost.LendMarket

open Result Machine Shares
set_option autoImplicit false

variable {AccountId : Type} {cfg : Config AccountId} {s s' s₁ : State cfg} {asset : CurrencyId}
  {who : AccountId} {n : ℕ}

structure Pool where
  cash : ℕ
  borrows : ℕ
  reserves : ℕ
  supply : ℕ

namespace Pool

def value (p : Pool) : ℕ := p.cash + p.borrows - p.reserves

def rate (p : Pool) : ℕ := roundedRate FixedU128.accuracy p.value p.supply

/-- The same vouchers with no less behind them. -/
structure Grows (p p' : Pool) : Prop where
  supply : p'.supply = p.supply
  value : p.value ≤ p'.value

theorem Grows.refl (p : Pool) : p.Grows p := ⟨rfl, Nat.le_refl _⟩

theorem Grows.trans {p q r : Pool} (hpq : p.Grows q) (hqr : q.Grows r) : p.Grows r :=
  ⟨hqr.supply.trans hpq.supply, hpq.value.trans hqr.value⟩

theorem Grows.rate {p q : Pool} (h : p.Grows q) : p.rate ≤ q.rate := by
  unfold Pool.rate
  rw [h.supply]
  exact roundedRate_mono h.value

end Pool

def State.poolOf (s : State cfg) (asset : CurrencyId) : Pool :=
  ⟨s.getTotalCash asset, s.totalBorrows asset, s.totalReserves asset, s.totalSupply asset⟩

/-- In every market that keeps vouchers the rate does not fall: neither the floored quotient
nor what `exchange_rate_stored` returns. -/
def RateKept (s s' : State cfg) : Prop :=
  ∀ asset, 0 < s.totalSupply asset → 0 < s'.totalSupply asset →
    (s.poolOf asset).rate ≤ (s'.poolOf asset).rate ∧
      ∀ r r', s.exchangeRateStored asset = .ok r → s'.exchangeRateStored asset = .ok r' →
        r.inner ≤ r'.inner

theorem exchangeRateStored_ok {r : FixedU128} (h : s.exchangeRateStored asset = .ok r)
    (hsupply : 0 < s.totalSupply asset) :
    r.inner = (s.poolOf asset).rate ∧
      s.totalReserves asset ≤ s.getTotalCash asset + s.totalBorrows asset := by
  obtain ⟨hle, hrate, -⟩ := calculateExchangeRate_ok h hsupply
  exact ⟨hrate, hle⟩

theorem rateKept_of_rate (h : ∀ asset, 0 < s.totalSupply asset → 0 < s'.totalSupply asset →
    (s.poolOf asset).rate ≤ (s'.poolOf asset).rate) : RateKept s s' := by
  intro asset hs hs'
  refine ⟨h asset hs hs', ?_⟩
  intro r r' hr hr'
  rw [(exchangeRateStored_ok hr hs).1, (exchangeRateStored_ok hr' hs').1]
  exact h asset hs hs'

/-! What each part of an operation does to the pools. -/

theorem poolOf_update {p : Pool} (hself : s'.poolOf asset = p)
    (hother : ∀ c, c ≠ asset → s'.poolOf c = s.poolOf c) :
    s'.poolOf = Function.update s.poolOf asset p := by
  funext c
  by_cases hc : c = asset
  · subst c
    rw [Function.update_self, hself]
  · rw [Function.update_of_ne hc, hother c hc]

theorem poolOf_withRewards (rewards : Rewards AccountId) :
    (s.withRewards rewards).poolOf = s.poolOf := rfl

theorem poolOf_setSupply (n : ℕ) : (s.setSupply asset n).poolOf =
    Function.update s.poolOf asset { s.poolOf asset with supply := n } := by
  apply poolOf_update
  · simp [State.setSupply, State.poolOf, State.getTotalCash]
  · intro c hc
    simp [State.setSupply, State.poolOf, State.getTotalCash, hc]

theorem poolOf_setTotalBorrows (n : ℕ) : (s.setTotalBorrows asset n).poolOf =
    Function.update s.poolOf asset { s.poolOf asset with borrows := n } := by
  apply poolOf_update
  · simp [State.setTotalBorrows, State.poolOf, State.getTotalCash]
  · intro c hc
    simp [State.setTotalBorrows, State.poolOf, State.getTotalCash, hc]

theorem accrueInterest_grows (h : s.accrueInterest asset = .ok s') (c : CurrencyId) :
    (s.poolOf c).Grows (s'.poolOf c) := by
  rcases accrueInterest_ok h with ⟨-, rfl⟩ | ⟨-, rfl⟩ | ⟨status, hlast, hstatus, rfl⟩
  · exact .refl _
  · exact .refl _
  · obtain ⟨market, util, borrowRate, -, -, -, hinterest, -⟩ := getMarketStatus_ok hstatus hlast
    obtain ⟨interest, -, hborrows, hreserves, -⟩ := addInterest_ok hinterest
    refine ⟨rfl, ?_⟩
    by_cases hc : c = asset
    · subst c
      have hcut : market.reserveFactor.mulFloor interest ≤ interest := Permill.mulFloor_le _ _
      have hcash : ((s.updateLastAccruedInterestTime asset s.now).saveMarketStatus asset
          status).getTotalCash asset = s.getTotalCash asset := rfl
      simp only [Pool.value, State.poolOf, hcash]
      simp only [State.saveMarketStatus, Function.update_self, hborrows, hreserves]
      omega
    · apply Nat.le_of_eq
      simp [Pool.value, State.poolOf, State.saveMarketStatus, State.getTotalCash, hc,
        State.updateLastAccruedInterestTime]

theorem transfer_poolOf {source dest : AccountId} {p : Preservation}
    (h : s.transfer asset source dest n p = .ok s') :
    s'.poolOf =
      Function.update s.poolOf asset { s.poolOf asset with cash := s'.getTotalCash asset } := by
  obtain ⟨L, hL, rfl⟩ := transfer_ok h
  apply poolOf_update
  · rfl
  · intro c hc
    have hcash : cfg.assets.balance L c cfg.accountId =
        cfg.assets.balance s.ledger c cfg.accountId :=
      cfg.assets.transfer_frame hL (Or.inr (Or.inl hc))
    simp [State.poolOf, State.getTotalCash, cfg.no_holds, hcash]

theorem cash_received {p : Preservation} (h : s.transfer asset who cfg.accountId n p = .ok s') :
    s'.getTotalCash asset ≤ s.getTotalCash asset + n ∧
      (who ≠ cfg.accountId → s'.getTotalCash asset = s.getTotalCash asset + n) ∧
      (who = cfg.accountId → s'.getTotalCash asset = s.getTotalCash asset) := by
  obtain ⟨L, hL, rfl⟩ := transfer_ok h
  simp only [State.getTotalCash, cfg.no_holds]
  by_cases hwho : who = cfg.accountId
  · have hsame : cfg.assets.balance L asset cfg.accountId =
        cfg.assets.balance s.ledger asset cfg.accountId :=
      cfg.assets.transfer_frame hL (Or.inl hwho)
    exact ⟨by omega, fun hne => absurd hwho hne, fun _ => hsame⟩
  · have hmore : cfg.assets.balance L asset cfg.accountId =
        cfg.assets.balance s.ledger asset cfg.accountId + n :=
      cfg.assets.transfer_credits hL hwho cfg.not_dust
    exact ⟨by omega, fun _ => hmore, fun heq => absurd heq hwho⟩

theorem cash_paid {p : Preservation} (h : s.transfer asset cfg.accountId who n p = .ok s')
    (hdust : cfg.assets.NoDust s.ledger asset cfg.accountId n) :
    s.getTotalCash asset ≤ s'.getTotalCash asset + n := by
  obtain ⟨L, hL, rfl⟩ := transfer_ok h
  simp only [State.getTotalCash, cfg.no_holds]
  by_cases hwho : cfg.accountId = who
  · have hsame : cfg.assets.balance L asset cfg.accountId =
        cfg.assets.balance s.ledger asset cfg.accountId :=
      cfg.assets.transfer_frame hL (Or.inl hwho)
    omega
  · have hless : cfg.assets.balance L asset cfg.accountId + n =
        cfg.assets.balance s.ledger asset cfg.accountId :=
      Fungibles.transfer_out hL hwho hdust
    omega

/-! Operations that end in one changed pool. -/

theorem rateKept_update {p : Pool} (hgrows : ∀ c, (s.poolOf c).Grows (s₁.poolOf c))
    (hpool : s'.poolOf = Function.update s₁.poolOf asset p)
    (hrate : 0 < (s₁.poolOf asset).supply → 0 < p.supply → (s₁.poolOf asset).rate ≤ p.rate) :
    RateKept s s' := by
  apply rateKept_of_rate
  intro c hs hs'
  have hbefore : (s.poolOf c).rate ≤ (s₁.poolOf c).rate := (hgrows c).rate
  have hsupply : 0 < (s₁.poolOf c).supply := (hgrows c).supply ▸ hs
  have hsupply' : 0 < (s'.poolOf c).supply := hs'
  rw [hpool] at hsupply' ⊢
  by_cases hc : c = asset
  · subst c
    rw [Function.update_self] at hsupply' ⊢
    exact hbefore.trans (hrate hsupply hsupply')
  · rw [Function.update_of_ne hc]
    exact hbefore

theorem RateKept.after (h : RateKept s₁ s') (hgrows : ∀ c, (s.poolOf c).Grows (s₁.poolOf c)) :
    RateKept s s' := by
  apply rateKept_of_rate
  intro c hs hs'
  have hsupply : 0 < (s₁.poolOf c).supply := (hgrows c).supply ▸ hs
  exact (hgrows c).rate.trans (h c hsupply hs').1

theorem rateKept_grows (hgrows : ∀ c, (s.poolOf c).Grows (s'.poolOf c)) : RateKept s s' :=
  rateKept_of_rate fun c _ _ => (hgrows c).rate

variable [DecidableEq AccountId]

theorem mint_poolOf (h : doMint s who asset n = .ok s') :
    ∃ s₁ rate v cash, s.accrueInterest asset = .ok s₁ ∧ s₁.exchangeRateStored asset = .ok rate ∧
      v * rate.inner ≤ n * FixedU128.accuracy ∧
      s'.poolOf = Function.update s₁.poolOf asset
        { s₁.poolOf asset with cash := cash, supply := s₁.totalSupply asset + v } ∧
      cash ≤ s₁.getTotalCash asset + n ∧
      (who ≠ cfg.accountId → cash = s₁.getTotalCash asset + n) := by
  obtain ⟨-, s₁, s₂, s₃, s₄, rate, v, h₁, ⟨rewards, rfl, -⟩, hrate, h₃, hv, -, h₄, s₅, h₅, rfl⟩ :=
    doMint_ok h
  obtain ⟨-, total, rfl⟩ := updateEarnedStored_ok h₃
  obtain ⟨hle, heq, -⟩ := cash_received h₄
  have hpool := transfer_poolOf h₄
  have hsupply : s₄.totalSupply asset = s₁.totalSupply asset := by
    obtain ⟨L, -, rfl⟩ := transfer_ok h₄
    rfl
  obtain rfl := addVouchers_ok h₅
  refine ⟨s₁, rate, v, s₄.getTotalCash asset, h₁, hrate, ?_, ?_, hle, heq⟩
  · rw [calcCollateralAmount_ok hv]
    exact Nat.div_mul_le_self _ _
  · rw [poolOf_setSupply]
    have hdeposits : ∀ o, (s₄.setDeposits asset who o).poolOf = s₄.poolOf := fun _ => rfl
    rw [hdeposits, hpool, Function.update_idem, Function.update_self]
    have hsame : ((s₁.withRewards rewards).setEarned asset who ⟨total, rate⟩).poolOf =
        s₁.poolOf := rfl
    rw [hsame, ← hsupply]
    rfl

theorem redeemVoucher_poolOf {v paid : ℕ} (h : doRedeemVoucher s who asset v = .ok (paid, s')) :
    ∃ rate cash, s.exchangeRateStored asset = .ok rate ∧
      paid = v * rate.inner / FixedU128.accuracy ∧ v ≤ s.totalSupply asset ∧
      s'.poolOf = Function.update s.poolOf asset
        { s.poolOf asset with cash := cash, supply := s.totalSupply asset - v } ∧
      (cfg.assets.NoDust s.ledger asset cfg.accountId paid →
        s.getTotalCash asset ≤ cash + paid) := by
  obtain ⟨-, s₁, s₂, rate, ⟨rewards, rfl, -⟩, hrate, hpaid, h₂, hle, h₃⟩ := doRedeemVoucher_ok h
  obtain ⟨-, o, rfl, -⟩ := removeVouchers_ok h₂
  refine ⟨rate, s'.getTotalCash asset, hrate, calcUnderlyingAmount_ok hpaid, hle, ?_, ?_⟩
  · rw [transfer_poolOf h₃, poolOf_setSupply, Function.update_idem, Function.update_self]
    rfl
  · intro hdust
    have hpays := cash_paid h₃ hdust
    exact hpays

theorem redeemVoucher_rate {v paid : ℕ} (hgrows : ∀ c, (s.poolOf c).Grows (s₁.poolOf c))
    (h : doRedeemVoucher s₁ who asset v = .ok (paid, s'))
    (hdust : cfg.assets.NoDust s₁.ledger asset cfg.accountId paid) : RateKept s s' := by
  obtain ⟨rate, cash, hrate, hpaid, hle, hpool, hcash⟩ := redeemVoucher_poolOf h
  apply rateKept_update hgrows hpool
  intro hsupply hsupply'
  have hleft : v < s₁.totalSupply asset := by
    simp only at hsupply'
    omega
  have hamount : paid * FixedU128.accuracy ≤ v * (s₁.poolOf asset).rate := by
    rw [hpaid, (exchangeRateStored_ok hrate hsupply).1]
    exact Nat.div_mul_le_self _ _
  have hvalue : (s₁.poolOf asset).value - paid ≤
      Pool.value { s₁.poolOf asset with cash := cash, supply := s₁.totalSupply asset - v } := by
    have hpays : (s₁.poolOf asset).cash ≤ cash + paid := hcash hdust
    simp only [Pool.value]
    omega
  exact (roundedRate_leave hleft hamount).trans (roundedRate_mono hvalue)

theorem lent_grows {n principal : ℕ} (h : ((s.setBorrows asset who principal).setTotalBorrows asset
      (s.totalBorrows asset + n)).transfer asset cfg.accountId who n .expendable = .ok s')
    (hdust : cfg.assets.NoDust s.ledger asset cfg.accountId n) (c : CurrencyId) :
    (s.poolOf c).Grows (s'.poolOf c) := by
  have hpool : s'.poolOf = Function.update s.poolOf asset
      { s.poolOf asset with
        cash := s'.getTotalCash asset, borrows := s.totalBorrows asset + n } := by
    rw [transfer_poolOf h, poolOf_setTotalBorrows, Function.update_idem, Function.update_self]
    rfl
  rw [hpool]
  by_cases hc : c = asset
  · subst c
    rw [Function.update_self]
    refine ⟨rfl, ?_⟩
    have hpays := cash_paid h hdust
    have hcash : s.getTotalCash asset ≤ s'.getTotalCash asset + n := hpays
    simp only [Pool.value, State.poolOf]
    omega
  · rw [Function.update_of_ne hc]
    exact .refl _

theorem borrow_rate (h : doBorrow s who asset n = .ok s')
    (hdust : cfg.assets.NoDust s.ledger asset cfg.accountId n) : RateKept s s' := by
  obtain ⟨s₁, s₂, borrows, h₁, -, -, ⟨rewards, rfl, -⟩, -, h₃⟩ := doBorrow_ok h
  rw [← (accrueInterest_frame h₁).ledger] at hdust
  apply rateKept_grows
  intro c
  have hlent := lent_grows h₃ hdust c
  exact (accrueInterest_grows h₁ c).trans hlent

theorem repaid_grows {s₂ : State cfg} {who debtor : AccountId} {n principal : ℕ}
    (h : s.transfer asset who cfg.accountId n .expendable = .ok s₂) (hwho : who ≠ cfg.accountId)
    (hs' : s' = (s₂.setBorrows asset debtor principal).setTotalBorrows asset
      (s₂.totalBorrows asset - n)) (c : CurrencyId) :
    (s.poolOf c).Grows (s'.poolOf c) := by
  have hcash : s₂.getTotalCash asset = s.getTotalCash asset + n := (cash_received h).2.1 hwho
  have hpool : s'.poolOf = Function.update s.poolOf asset
      { s.poolOf asset with
        cash := s₂.getTotalCash asset, borrows := s₂.totalBorrows asset - n } := by
    have hdebts : (s₂.setBorrows asset debtor principal).poolOf = s₂.poolOf := rfl
    rw [hs', poolOf_setTotalBorrows, hdebts, transfer_poolOf h, Function.update_idem,
      Function.update_self]
  have hborrows : s₂.totalBorrows = s.totalBorrows := by
    obtain ⟨L, -, rfl⟩ := transfer_ok h
    rfl
  rw [hpool]
  by_cases hc : c = asset
  · subst c
    rw [Function.update_self]
    refine ⟨rfl, ?_⟩
    simp only [Pool.value, State.poolOf, hcash, hborrows]
    omega
  · rw [Function.update_of_ne hc]
    exact ⟨rfl, Nat.le_refl _⟩

theorem repay_grows (hwho : who ≠ cfg.accountId)
    (h : doRepayBorrow s who asset n = .ok s') (c : CurrencyId) :
    (s.poolOf c).Grows (s'.poolOf c) := by
  obtain ⟨s₁, borrows, h₁, -, h₂⟩ := doRepayBorrow_ok h
  obtain ⟨-, s₂, s₃, ⟨rewards, rfl, -⟩, h₃, hs'⟩ := doRepayBorrowWithAmount_ok h₂
  have hsettled : (s₁.withRewards rewards).poolOf = s₁.poolOf := poolOf_withRewards rewards
  have hrepaid := repaid_grows h₃ hwho hs' c
  rw [hsettled] at hrepaid
  exact (accrueInterest_grows h₁ c).trans hrepaid

theorem repayAll_grows (hwho : who ≠ cfg.accountId)
    (h : repayBorrowAll s who asset = .ok s') (c : CurrencyId) :
    (s.poolOf c).Grows (s'.poolOf c) := by
  obtain ⟨s₁, borrows, h₁, -, h₂⟩ := repayBorrowAll_ok h
  exact (accrueInterest_grows h₁ c).trans (repay_grows hwho h₂ c)

theorem seizeCollateral_poolOf {liquidator borrower : AccountId} {amount : ℕ} {market : Market}
    (h : seizeCollateral s liquidator borrower asset amount market = .ok s') :
    s'.poolOf = s.poolOf := by
  obtain ⟨_, s₂, s₃, rate, v, reserved, ⟨rewards, rfl, -⟩, -, -, h₂, -, h₃, h₄⟩ :=
    seizeCollateral_ok h
  obtain ⟨-, rfl⟩ := seizeVouchers_ok h₂
  obtain rfl := addVouchers_ok h₃
  obtain rfl := addVouchers_ok h₄
  rfl

theorem liquidate_grows {who borrower : AccountId} {collateral : CurrencyId}
    (hwho : who ≠ cfg.accountId) (h : liquidateBorrow s who borrower asset n collateral = .ok s')
    (c : CurrencyId) : (s.poolOf c).Grows (s'.poolOf c) := by
  obtain ⟨s₁, s₂, s₃, market, amount, h₁, h₂, -, -, -, -, h₃, h₄⟩ := liquidateBorrow_ok h
  obtain ⟨_, s₅, borrows, ⟨rewards, rfl, -⟩, h₅, -, -, -, hs₃⟩ := repayForBorrower_ok h₃
  have hsettled : (s₂.withRewards rewards).poolOf = s₂.poolOf := poolOf_withRewards rewards
  have hrepaid := repaid_grows h₅ hwho hs₃ c
  rw [hsettled] at hrepaid
  rw [seizeCollateral_poolOf h₄]
  exact ((accrueInterest_grows h₁ c).trans (accrueInterest_grows h₂ c)).trans hrepaid

theorem transferLendToken_poolOf {token : CurrencyId} {source dest : AccountId}
    (h : transferLendToken s token source dest n = .ok s') : s'.poolOf = s.poolOf := by
  obtain ⟨-, _, s₂, underlying, ⟨rewards, rfl, -⟩, -, h₂, h₃⟩ := transferLendToken_ok h
  obtain ⟨-, o, rfl, -⟩ := removeVouchers_ok h₂
  obtain rfl := addVouchers_ok h₃
  rfl

theorem mint_rate_accrued (hwho : who ≠ cfg.accountId)
    (haccrued : s.accrueInterest asset = .ok s₁) (h : doMint s who asset n = .ok s') :
    RateKept s₁ s' := by
  obtain ⟨t, rate, v, cash, h₁, hrate, hv, hpool, -, hcash⟩ := mint_poolOf h
  rw [haccrued] at h₁
  cases h₁
  apply rateKept_update (fun c => .refl _) hpool
  intro hsupply _
  obtain ⟨hr, hle⟩ := exchangeRateStored_ok hrate hsupply
  rw [hr] at hv
  have hvalue : (s₁.poolOf asset).value + n ≤ Pool.value
      { s₁.poolOf asset with cash := cash, supply := s₁.totalSupply asset + v } := by
    simp only [Pool.value, State.poolOf, hcash hwho]
    omega
  exact (roundedRate_join hsupply hv).trans (roundedRate_mono hvalue)

theorem mint_rate_kept (hwho : who ≠ cfg.accountId)
    (h : doMint s who asset n = .ok s') : RateKept s s' := by
  obtain ⟨s₁, rate, v, cash, h₁, -⟩ := mint_poolOf h
  exact (mint_rate_accrued hwho h₁ h).after (accrueInterest_grows h₁)

theorem addReserves_rate {payer : AccountId}
    (hcovered : payer = cfg.accountId → n * FixedU128.accuracy ≤
      (s.poolOf asset).value * FixedU128.accuracy % (s.poolOf asset).supply)
    (h : addReserves s payer asset n = .ok s') : RateKept s s' := by
  obtain ⟨s₁, h₁, rfl⟩ := addReserves_ok h
  have hpool : State.poolOf { s₁ with
      totalReserves := Function.update s₁.totalReserves asset (s₁.totalReserves asset + n) } =
      Function.update s.poolOf asset { s.poolOf asset with
        cash := s₁.getTotalCash asset, reserves := s.totalReserves asset + n } := by
    obtain ⟨L, hL, rfl⟩ := transfer_ok h₁
    have hpaid := transfer_poolOf h₁
    apply poolOf_update
    · simp [State.poolOf, State.getTotalCash]
    · intro c hc
      have hother := congrFun hpaid c
      rw [Function.update_of_ne hc] at hother
      simpa [State.poolOf, State.getTotalCash, hc] using hother
  apply rateKept_update (fun c => .refl _) hpool
  intro hsupply _
  by_cases hpayer : payer = cfg.accountId
  · have hcash : s₁.getTotalCash asset = s.getTotalCash asset := (cash_received h₁).2.2 hpayer
    have hvalue : (s.poolOf asset).value - n ≤ Pool.value { s.poolOf asset with
        cash := s₁.getTotalCash asset, reserves := s.totalReserves asset + n } := by
      simp only [Pool.value, State.poolOf, hcash]
      omega
    exact (roundedRate_lose hsupply (hcovered hpayer)).trans (roundedRate_mono hvalue)
  · have hcash : s₁.getTotalCash asset = s.getTotalCash asset + n :=
      (cash_received h₁).2.1 hpayer
    apply roundedRate_mono
    simp only [Pool.value, State.poolOf, hcash]
    omega

/-! Redemptions. -/

/-- What a redemption of the vouchers that `vouchers` finds at the exchange rate pays. -/
def State.payout (s : State cfg) (asset : CurrencyId) (vouchers : FixedU128 → Except Fault ℕ) :
    Except Fault ℕ := do
  let s ← s.accrueInterest asset
  let rate ← s.exchangeRateStored asset
  let v ← vouchers rate
  calcUnderlyingAmount v rate

theorem redeemVoucher_paid {v paid : ℕ} {rate : FixedU128}
    (h : doRedeemVoucher s who asset v = .ok (paid, s'))
    (hrate : s.exchangeRateStored asset = .ok rate) : calcUnderlyingAmount v rate = .ok paid := by
  obtain ⟨-, s₁, s₂, rate', ⟨rewards, rfl, -⟩, hrate', hpaid, -⟩ := doRedeemVoucher_ok h
  have hsame : s.exchangeRateStored asset = .ok rate' := hrate'
  rw [hrate] at hsame
  cases hsame
  exact hpaid

/-- Both redemptions: interest, the record of what was earned, then vouchers for underlying. -/
theorem redemption_rate {v paid : ℕ} {rate : FixedU128} {s₂ : State cfg}
    {vouchers : FixedU128 → Except Fault ℕ} (h₁ : s.accrueInterest asset = .ok s₁)
    (hrate : s₁.exchangeRateStored asset = .ok rate)
    (h₂ : s₁.updateEarnedStored who asset rate = .ok s₂) (hv : vouchers rate = .ok v)
    (h₃ : doRedeemVoucher s₂ who asset v = .ok (paid, s'))
    (hdust : ∀ n, s.payout asset vouchers = .ok n →
      cfg.assets.NoDust s.ledger asset cfg.accountId n) : RateKept s s' := by
  obtain ⟨-, total, rfl⟩ := updateEarnedStored_ok h₂
  have hpaid : calcUnderlyingAmount v rate = .ok paid := redeemVoucher_paid h₃ hrate
  have hpayout : s.payout asset vouchers = .ok paid := by
    simp only [State.payout, bind_eq_ok]
    exact ⟨s₁, h₁, rate, hrate, v, hv, hpaid⟩
  have hpays := hdust paid hpayout
  rw [← (accrueInterest_frame h₁).ledger] at hpays
  have hgrows : ∀ c, (s.poolOf c).Grows ((s₁.setEarned asset who ⟨total, rate⟩).poolOf c) := by
    intro c
    have hgrows := accrueInterest_grows h₁ c
    exact hgrows
  exact redeemVoucher_rate hgrows h₃ hpays

theorem redeem_rate_kept {n paid : ℕ} (h : doRedeem s who asset n = .ok (paid, s'))
    (hdust : ∀ m, s.payout asset (calcCollateralAmount n) = .ok m →
      cfg.assets.NoDust s.ledger asset cfg.accountId m) : RateKept s s' := by
  obtain ⟨s₁, s₂, rate, v, h₁, hrate, h₂, hv, h₃⟩ := doRedeem_ok h
  exact redemption_rate h₁ hrate h₂ hv h₃ hdust

theorem redeemAll_rate_kept {paid : ℕ} (h : doRedeemAll s who asset = .ok (paid, s'))
    (hdust : ∀ m, s.payout asset (fun _ => pure (s.depositsOf asset who).voucherBalance) = .ok m →
      cfg.assets.NoDust s.ledger asset cfg.accountId m) : RateKept s s' := by
  obtain ⟨s₁, s₂, rate, h₁, hrate, h₂, h₃⟩ := doRedeemAll_ok h
  have hdeposits : (s₂.depositsOf asset who).voucherBalance =
      (s.depositsOf asset who).voucherBalance := by
    obtain ⟨-, total, rfl⟩ := updateEarnedStored_ok h₂
    show ((((s₁.accountDeposits asset).get who).getD default).voucherBalance) = _
    rw [(accrueInterest_frame h₁).accountDeposits]
    rfl
  rw [hdeposits] at h₃
  exact redemption_rate h₁ hrate h₂ rfl h₃ hdust

/-! Minting and redeeming in one block. -/

omit [DecidableEq AccountId] in
theorem accrueInterest_settled (h : s.accrueInterest asset = .ok s') :
    s'.now ≤ s'.lastAccruedInterestTime asset := by
  rcases accrueInterest_ok h with ⟨-, rfl⟩ | ⟨hlast, rfl⟩ | ⟨status, -, -, rfl⟩
  · exact Nat.le_of_eq (Function.update_self asset s.now s.lastAccruedInterestTime).symm
  · exact hlast
  · exact Nat.le_of_eq (Function.update_self asset s.now s.lastAccruedInterestTime).symm

omit [DecidableEq AccountId] in
theorem accrueInterest_again (hsettled : s.now ≤ s.lastAccruedInterestTime asset)
    (h : s.accrueInterest asset = .ok s') : s'.poolOf = s.poolOf := by
  rcases accrueInterest_ok h with ⟨-, rfl⟩ | ⟨-, rfl⟩ | ⟨status, hlast, -⟩
  · rfl
  · rfl
  · exact absurd hsettled (by omega)

theorem mint_settled (h : doMint s who asset n = .ok s') :
    s'.now ≤ s'.lastAccruedInterestTime asset := by
  obtain ⟨-, s₁, s₂, s₃, s₄, rate, v, h₁, ⟨rewards, rfl, -⟩, -, h₃, -, -, h₄, s₅, h₅, rfl⟩ :=
    doMint_ok h
  obtain ⟨-, total, rfl⟩ := updateEarnedStored_ok h₃
  obtain ⟨L, -, rfl⟩ := transfer_ok h₄
  obtain rfl := addVouchers_ok h₅
  have hsettled := accrueInterest_settled h₁
  exact hsettled

theorem redemption_ok {n paid : ℕ} (hsettled : s.now ≤
      s.lastAccruedInterestTime asset)
    (h : doRedeem s who asset n = .ok (paid, s') ∨ doRedeemAll s who asset = .ok (paid, s'))
    (hsupply : 0 < s.totalSupply asset) :
    paid = (s.totalSupply asset - s'.totalSupply asset) * (s.poolOf asset).rate /
      FixedU128.accuracy := by
  have hvoucher : ∃ s₁ s₂ rate v, s.accrueInterest asset = .ok s₁ ∧
      s₁.updateEarnedStored who asset rate = .ok s₂ ∧
      doRedeemVoucher s₂ who asset v = .ok (paid, s') := by
    rcases h with h | h
    · obtain ⟨s₁, s₂, rate, v, h₁, -, h₂, -, h₃⟩ := doRedeem_ok h
      exact ⟨s₁, s₂, rate, v, h₁, h₂, h₃⟩
    · obtain ⟨s₁, s₂, rate, h₁, -, h₂, h₃⟩ := doRedeemAll_ok h
      exact ⟨s₁, s₂, rate, _, h₁, h₂, h₃⟩
  obtain ⟨s₁, s₂, _, v, h₁, h₂, h₃⟩ := hvoucher
  obtain ⟨-, total, rfl⟩ := updateEarnedStored_ok h₂
  have hsame : s₁.poolOf = s.poolOf := accrueInterest_again hsettled h₁
  obtain ⟨rate, cash, hrate, hpaid, hle, hpool, -⟩ := redeemVoucher_poolOf h₃
  have hsupply₁ : s₁.totalSupply asset = s.totalSupply asset :=
    congrArg Pool.supply (congrFun hsame asset)
  have hburned : s'.totalSupply asset = s₁.totalSupply asset - v := by
    have hself := congrArg Pool.supply (congrFun hpool asset)
    rw [Function.update_self] at hself
    exact hself
  have hv : v ≤ s₁.totalSupply asset := hle
  have hr : rate.inner = (s₁.poolOf asset).rate :=
    (exchangeRateStored_ok hrate (hsupply₁ ▸ hsupply)).1
  have hall : s.totalSupply asset - s'.totalSupply asset = v := by omega
  rw [hpaid, hr, hall, hsame]

theorem mint_redeem_paid_le {x n paid : ℕ} {s₂ : State cfg}
    (hsupply : 0 < s.totalSupply asset) (hmint : doMint s who asset x = .ok s')
    (hredeem : doRedeem s' who asset n = .ok (paid, s₂) ∨
      doRedeemAll s' who asset = .ok (paid, s₂))
    (hreceived : s'.totalSupply asset - s₂.totalSupply asset ≤
      s'.totalSupply asset - s.totalSupply asset) : paid ≤ x := by
  obtain ⟨s₁, rate, v, cash, h₁, hrate, hv, hpool, hcash, -⟩ := mint_poolOf hmint
  have hsupply₁ : s₁.totalSupply asset = s.totalSupply asset := (accrueInterest_grows h₁ asset).supply
  have hpositive : 0 < s₁.totalSupply asset := hsupply₁ ▸ hsupply
  rw [(exchangeRateStored_ok hrate hpositive).1] at hv
  have hself := congrFun hpool asset
  rw [Function.update_self] at hself
  have hminted : s'.totalSupply asset = s₁.totalSupply asset + v := congrArg Pool.supply hself
  have hrate' : (s'.poolOf asset).rate ≤ roundedRate FixedU128.accuracy
      ((s₁.poolOf asset).value + x) (s₁.totalSupply asset + v) := by
    rw [hself]
    apply roundedRate_mono
    simp only [Pool.value, State.poolOf]
    omega
  rw [redemption_ok (mint_settled hmint) hredeem (by omega)]
  calc (s'.totalSupply asset - s₂.totalSupply asset) * (s'.poolOf asset).rate / FixedU128.accuracy
      ≤ v * roundedRate FixedU128.accuracy ((s₁.poolOf asset).value + x)
          (s₁.totalSupply asset + v) / FixedU128.accuracy := by
        apply Nat.div_le_div_right
        exact Nat.mul_le_mul (by omega) hrate'
    _ ≤ x := rounded_round_trip_le hpositive (by decide) hv

/-! The claim over all operations. -/

/-- The operations that vouchers are shares under: those of users, interest and `add_reserves`. -/
def Call.exchanges : Call AccountId → Bool
  | .mint .. | .redeem .. | .redeemAll .. | .doRedeem .. | .borrow .. | .repayBorrow ..
  | .repayBorrowAll .. | .accrueInterest .. | .liquidateBorrow .. | .addReserves ..
  | .transferLendToken .. => true
  | _ => false

/-- The ledger follows the books. Whoever pays the pallet account is not the pallet account,
unless the rounding of the rate covers what it adds to the reserves, and what the pallet
account pays leaves no dust. -/
def LedgerFollows (s : State cfg) : Call AccountId → Prop
  | .mint who _ _ | .repayBorrow who _ _ | .repayBorrowAll who _ | .liquidateBorrow who _ _ _ _ =>
    who ≠ cfg.accountId
  | .redeem _ asset n | .doRedeem _ asset n =>
    ∀ paid, s.payout asset (calcCollateralAmount n) = .ok paid →
      cfg.assets.NoDust s.ledger asset cfg.accountId paid
  | .redeemAll who asset =>
    ∀ paid, s.payout asset (fun _ => pure (s.depositsOf asset who).voucherBalance) = .ok paid →
      cfg.assets.NoDust s.ledger asset cfg.accountId paid
  | .borrow _ asset n => cfg.assets.NoDust s.ledger asset cfg.accountId n
  | .addReserves payer asset n => payer = cfg.accountId → n * FixedU128.accuracy ≤
      (s.poolOf asset).value * FixedU128.accuracy % (s.poolOf asset).supply
  | _ => True

theorem rateKept_step {a : Call AccountId} (ha : a.exchanges = true) (hledger : LedgerFollows s a)
    (h : step s a = .ok s') : RateKept s s' := by
  cases a with
  | mint who asset n => exact mint_rate_kept hledger h
  | redeem who asset n =>
    simp only [step, bind_eq_ok, pure_eq_ok] at h
    obtain ⟨_, -, ⟨paid, s₁⟩, h₁, rfl⟩ := h
    exact redeem_rate_kept h₁ hledger
  | doRedeem who asset n =>
    simp only [step, bind_eq_ok, pure_eq_ok] at h
    obtain ⟨⟨paid, s₁⟩, h₁, rfl⟩ := h
    exact redeem_rate_kept h₁ hledger
  | redeemAll who asset =>
    simp only [step, bind_eq_ok, pure_eq_ok] at h
    obtain ⟨⟨paid, s₁⟩, h₁, rfl⟩ := h
    exact redeemAll_rate_kept h₁ hledger
  | borrow who asset n => exact borrow_rate h hledger
  | repayBorrow who asset n => exact rateKept_grows (repay_grows hledger h)
  | repayBorrowAll who asset => exact rateKept_grows (repayAll_grows hledger h)
  | accrueInterest asset => exact rateKept_grows (accrueInterest_grows h)
  | liquidateBorrow who borrower asset n collateral =>
    exact rateKept_grows (liquidate_grows hledger h)
  | addReserves payer asset n => exact addReserves_rate hledger h
  | transferLendToken token source dest n =>
    apply rateKept_grows
    intro c
    rw [transferLendToken_poolOf h]
    exact .refl _
  | _ => contradiction

/-- In every state, an exchange whose payments the ledger follows keeps the rates of all
markets, and what was minted for `x` and redeemed in the same block pays at most `x`. -/
theorem voucher_rate_never_falls {a : Call AccountId} (ha : a.exchanges = true)
    (hledger : LedgerFollows s a) (h : step s a = .ok s') :
    RateKept s s' ∧
      ∀ who asset x, a = .mint who asset x → 0 < s.totalSupply asset →
        ∀ n paid s₂, doRedeem s' who asset n = .ok (paid, s₂) ∨
            doRedeemAll s' who asset = .ok (paid, s₂) →
          s'.totalSupply asset - s₂.totalSupply asset ≤
            s'.totalSupply asset - s.totalSupply asset → paid ≤ x := by
  refine ⟨rateKept_step ha hledger h, ?_⟩
  intro who asset x hmint hsupply n paid s₂ hredeem hreceived
  subst a
  exact mint_redeem_paid_le hsupply h hredeem hreceived

namespace Sample

def dot : CurrencyId := .token2 0

def market : Market where
  collateralFactor := .fromPercent 50
  liquidationThreshold := .fromPercent 55
  reserveFactor := .fromPercent 15
  closeFactor := .fromPercent 50
  liquidateIncentive := ⟨1100000000000000000⟩
  liquidateIncentiveReservedFactor := .fromPercent 3
  rateModel := .jump ⟨⟨20000000000000000⟩, ⟨100000000000000000⟩, ⟨320000000000000000⟩,
    .fromPercent 80⟩
  state := .pending
  supplyCap := 1000000
  borrowCap := 1000000
  lendTokenId := .lend 0

/-- The pallet account is 100 and every asset has an existential deposit of 10. -/
def config : Config ℕ where
  assets := Assets.fungibles ℕ fun _ => 10
  accountId := 100
  rewardAccountId := 101
  incentiveRewardAccountId := 102
  rewardAssetId := .native .BNC
  liquidationFreeAssetId := dot
  maxLengthLimit := 500
  no_holds := fun _ _ => rfl
  not_dust := by decide

def holders : Assets.Accounts ℕ := fun c x => if c = dot ∧ (x = 1 ∨ x = 2) then 100000 else 0

def supplied : List (Call ℕ) :=
  [.addMarket dot market, .activateMarket dot, .addMarketBond dot [dot], .mint 1 dot 10000,
    .moveAssets dot 2 100 10000]

def start : State config := genesis config holders (fun _ => some .one) 1 1

/-- The inner value of a rate; 0 where there is none. -/
def rateOf (r : Except Fault FixedU128) : ℕ := (r.toOption.map FixedU128.inner).getD 0

end Sample

theorem voucher_rate_never_falls_sample :
    let s := run step Sample.start Sample.supplied
    ∃ s' paid s₂, step s (.mint 2 Sample.dot 777) = .ok s' ∧
      doRedeemAll s' 2 Sample.dot = .ok (paid, s₂) ∧ RateKept s s' ∧ paid ≤ 777 := by
  intro s
  have hmint : (step s (.mint 2 Sample.dot 777)).toBool = true := by decide
  have hredeem : (doRedeemAll (exec step s (.mint 2 Sample.dot 777)) 2 Sample.dot).toBool = true := by
    decide
  have hsupply : s.totalSupply Sample.dot = 500000 := by decide
  have hburned : ∀ r, doRedeemAll (exec step s (.mint 2 Sample.dot 777)) 2 Sample.dot = .ok r →
      r.2.totalSupply Sample.dot = 500000 := by
    have hall : (match doRedeemAll (exec step s (.mint 2 Sample.dot 777)) 2 Sample.dot with
      | .ok r => r.2.totalSupply Sample.dot
      | .error _ => 0) = 500000 := by decide
    intro r hr
    rw [hr] at hall
    exact hall
  generalize s = s at *
  obtain ⟨s', h⟩ := exists_of_toBool hmint
  rw [exec_ok h] at hredeem hburned
  obtain ⟨⟨paid, s₂⟩, h₂⟩ := exists_of_toBool hredeem
  have hleft : s₂.totalSupply Sample.dot = 500000 := hburned _ h₂
  have hledger : LedgerFollows s (.mint 2 Sample.dot 777) := by
    show (2 : ℕ) ≠ 100
    decide
  have hkept := voucher_rate_never_falls rfl hledger h
  refine ⟨s', paid, s₂, h, h₂, hkept.1, ?_⟩
  exact hkept.2 2 Sample.dot 777 rfl (by omega) 0 paid s₂ (Or.inr h₂) (by omega)

/-- Reserves that the pallet account pays to itself lower the rate from 0.04 to 0.03, and a
redemption that leaves 5 units leaves 125 vouchers with nothing behind them. -/
theorem voucher_rate_falls :
    let s := run step Sample.start Sample.supplied
    let s' := exec step s (.addReserves 100 Sample.dot 5000)
    let s'' := exec step s (.redeem 1 Sample.dot 19995)
    (s.totalSupply Sample.dot, s'.totalSupply Sample.dot, s''.totalSupply Sample.dot) =
        (500000, 500000, 125) ∧
      (Sample.rateOf (s.exchangeRateStored Sample.dot),
        Sample.rateOf (s'.exchangeRateStored Sample.dot)) =
        (40000000000000000, 30000000000000000) ∧
      ¬ RateKept s s' ∧ (s''.poolOf Sample.dot).value = 0 ∧ ¬ RateKept s s'' := by
  intro s s' s''
  refine ⟨by decide, by decide, ?_, by decide, ?_⟩
  · intro h
    exact absurd (h Sample.dot (by decide) (by decide)).1 (by decide)
  · intro h
    exact absurd (h Sample.dot (by decide) (by decide)).1 (by decide)

end Bifrost.LendMarket
