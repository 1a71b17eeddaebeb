import Bifrost.LendMarket.Pallet

/-!
# What the functions of the lend market do

One lemma for each function: the conditions under which it succeeds and the storage it leaves.
Settling rewards writes nothing but the rewards, a saved market status nothing but the numbers
of its market.
-/

namespace Bifrost.LendMarket

open Result
set_option autoImplicit false

variable {AccountId : Type} {cfg : Config AccountId} {s s' s₁ : State cfg} {asset : CurrencyId}
  {n : ℕ} {rate : FixedU128}

theorem transfer_ok {source dest : AccountId} {p : Preservation}
    (h : s.transfer asset source dest n p = .ok s') :
    ∃ L, cfg.assets.transfer s.ledger asset source dest n p = .ok L ∧
      s' = { s with ledger := L } := by
  simp only [State.transfer, bind_eq_ok, mapErr_eq_ok, pure_eq_ok] at h
  obtain ⟨L, hL, rfl⟩ := h
  exact ⟨L, hL, rfl⟩

theorem calculateExchangeRate_ok {supply cash borrows reserves : ℕ}
    (h : calculateExchangeRate supply cash borrows reserves = .ok rate) (hsupply : 0 < supply) :
    reserves ≤ cash + borrows ∧
      rate.inner = (cash + borrows - reserves) * FixedU128.accuracy / supply ∧
      minExchangeRate.inner ≤ rate.inner ∧ rate.inner < maxExchangeRate.inner := by
  rw [calculateExchangeRate, if_neg (by omega)] at h
  simp only [ensureValidExchangeRate, FixedU128.checkedFromRational, bind_eq_ok, okOr_eq_ok,
    ensure_eq_ok, pure_eq_ok, Option.bind_eq_some_iff, Option.map_eq_some_iff,
    U128.checkedAdd_eq_some, U128.checkedSub_eq_some, U128.mulDiv_eq_some] at h
  obtain ⟨_, ⟨_, ⟨rfl, -⟩, hle, rfl⟩, _, ⟨_, ⟨-, rfl, -⟩, rfl⟩, _, hvalid, rfl⟩ := h
  exact ⟨hle, rfl, hvalid⟩

theorem addInterest_ok {market : Market} {borrowRate : FixedU128} {deltaTime borrows reserves : ℕ}
    {index : FixedU128}
    (h : s.addInterest asset market borrowRate deltaTime = .ok (borrows, reserves, index)) :
    ∃ interest, accruedInterest borrowRate (s.totalBorrows asset) deltaTime = some interest ∧
      borrows = s.totalBorrows asset + interest ∧
      reserves = s.totalReserves asset + market.reserveFactor.mulFloor interest ∧
      (incrementIndex borrowRate (s.borrowIndex asset) deltaTime).bind
        (fun r => r.checkedAdd (s.borrowIndex asset)) = some index := by
  simp only [State.addInterest, bind_eq_ok, okOr_eq_ok, pure_eq_ok, U128.checkedAdd_eq_some,
    Prod.mk.injEq] at h
  obtain ⟨interest, hinterest, _, ⟨rfl, -⟩, _, ⟨rfl, -⟩, _, hindex, rfl, rfl, rfl⟩ := h
  exact ⟨interest, hinterest, Nat.add_comm _ _, Nat.add_comm _ _, hindex⟩

theorem getMarketStatus_ok {status : MarketStatus} (h : s.getMarketStatus asset = .ok status)
    (hlast : s.lastAccruedInterestTime asset < s.now) :
    ∃ market util borrowRate, s.markets.get asset = some market ∧
      calcUtilizationRatio (s.getTotalCash asset) (s.totalBorrows asset)
        (s.totalReserves asset) = .ok util ∧
      market.rateModel.getBorrowRate util = some borrowRate ∧
      s.addInterest asset market borrowRate (s.now - s.lastAccruedInterestTime asset) =
        .ok (status.totalBorrows, status.totalReserves, status.borrowIndex) ∧
      calculateExchangeRate (s.totalSupply asset) (s.getTotalCash asset) status.totalBorrows
        status.totalReserves = .ok status.exchangeRate := by
  simp only [State.getMarketStatus, State.market, bind_eq_ok, okOr_eq_ok, pure_eq_ok,
    if_pos hlast] at h
  obtain ⟨market, hmarket, util, hutil, borrowRate, hrate, ⟨borrows, reserves, index⟩, hinterest,
    rate, hexchange, rfl⟩ := h
  exact ⟨market, util, borrowRate, hmarket, hutil, hrate, hinterest, hexchange⟩

theorem accrueInterest_ok (h : s.accrueInterest asset = .ok s') :
    (s.lastAccruedInterestTime asset = 0 ∧
      s' = s.updateLastAccruedInterestTime asset s.now) ∨
    (s.now ≤ s.lastAccruedInterestTime asset ∧ s' = s) ∨
    ∃ status, s.lastAccruedInterestTime asset < s.now ∧ s.getMarketStatus asset = .ok status ∧
      s' = (s.updateLastAccruedInterestTime asset s.now).saveMarketStatus asset status := by
  simp only [State.accrueInterest] at h
  split at h
  · simp only [pure_eq_ok] at h
    exact Or.inl ⟨by assumption, h.symm⟩
  · split at h
    · simp only [pure_eq_ok] at h
      exact Or.inr (Or.inl ⟨by assumption, h.symm⟩)
    · simp only [bind_eq_ok, pure_eq_ok] at h
      obtain ⟨status, hstatus, rfl⟩ := h
      exact Or.inr (Or.inr ⟨status, by omega, hstatus, rfl⟩)

/-- Interest moves the numbers of its own market. -/
structure Accrues (s s' : State cfg) (asset : CurrencyId) : Prop where
  now : s'.now = s.now
  blockNumber : s'.blockNumber = s.blockNumber
  prices : s'.prices = s.prices
  ledger : s'.ledger = s.ledger
  liquidationFreeCollaterals : s'.liquidationFreeCollaterals = s.liquidationFreeCollaterals
  totalSupply : s'.totalSupply = s.totalSupply
  accountBorrows : s'.accountBorrows = s.accountBorrows
  accountDeposits : s'.accountDeposits = s.accountDeposits
  accountEarned : s'.accountEarned = s.accountEarned
  borrowIndex : ∀ c, c ≠ asset → s'.borrowIndex c = s.borrowIndex c
  markets : s'.markets = s.markets
  underlyingAssetId : s'.underlyingAssetId = s.underlyingAssetId
  marketBond : s'.marketBond = s.marketBond
  rewards : s'.rewards = s.rewards

theorem accrueInterest_frame (h : s.accrueInterest asset = .ok s') : Accrues s s' asset := by
  rcases accrueInterest_ok h with ⟨-, rfl⟩ | ⟨-, rfl⟩ | ⟨status, -, -, rfl⟩
  · exact ⟨rfl, rfl, rfl, rfl, rfl, rfl, rfl, rfl, rfl, fun _ _ => rfl, rfl, rfl, rfl, rfl⟩
  · exact ⟨rfl, rfl, rfl, rfl, rfl, rfl, rfl, rfl, rfl, fun _ _ => rfl, rfl, rfl, rfl, rfl⟩
  · refine ⟨rfl, rfl, rfl, rfl, rfl, rfl, rfl, rfl, rfl, ?_, rfl, rfl, rfl, rfl⟩
    intro c hc
    have hother := Function.update_of_ne hc status.borrowIndex s.borrowIndex
    exact hother

theorem calcUnderlyingAmount_ok {vouchers amount : ℕ}
    (h : calcUnderlyingAmount vouchers rate = .ok amount) :
    amount = vouchers * rate.inner / FixedU128.accuracy := by
  simp only [calcUnderlyingAmount, FixedU128.checkedMulInt, okOr_eq_ok, U128.mulDiv_eq_some] at h
  rw [Nat.mul_comm]
  exact h.2.1.symm

theorem calcCollateralAmount_ok {amount vouchers : ℕ}
    (h : calcCollateralAmount amount rate = .ok vouchers) :
    vouchers = amount * FixedU128.accuracy / rate.inner := by
  simp only [calcCollateralAmount, FixedU128.checkedDiv, okOr_eq_ok, Option.map_eq_some_iff,
    U128.mulDiv_eq_some] at h
  obtain ⟨_, ⟨_, ⟨-, rfl, -⟩, rfl⟩, rfl⟩ := h
  rfl

theorem calcCollateralAmount_le {amount vouchers : ℕ}
    (h : calcCollateralAmount amount rate = .ok vouchers) : vouchers ≤ u128Max := by
  simp only [calcCollateralAmount, FixedU128.checkedDiv, okOr_eq_ok, Option.map_eq_some_iff,
    U128.mulDiv_eq_some] at h
  obtain ⟨_, ⟨_, ⟨-, -, hle⟩, rfl⟩, rfl⟩ := h
  exact hle

theorem addReserves_ok {payer : AccountId} (h : addReserves s payer asset n = .ok s') :
    ∃ s₁, s.transfer asset payer cfg.accountId n .expendable = .ok s₁ ∧
      s' = { s₁ with
        totalReserves := Function.update s₁.totalReserves asset (s₁.totalReserves asset + n) } := by
  simp only [addReserves, bind_eq_ok, okOr_eq_ok, pure_eq_ok, U128.checkedAdd_eq_some] at h
  obtain ⟨_, -, s₁, h₁, _, ⟨rfl, -⟩, rfl⟩ := h
  exact ⟨s₁, h₁, rfl⟩

/-! Settling rewards. -/

def State.withRewards (s : State cfg) (rewards : Rewards AccountId) : State cfg :=
  { s with rewards := rewards }

theorem calculateRewardDeltaIndex_ok {blocks speed share delta : ℕ}
    (h : calculateRewardDeltaIndex blocks speed share = .ok delta) :
    delta * share ≤ blocks * speed * rewardScale := by
  unfold calculateRewardDeltaIndex at h
  split at h
  · simp only [pure_eq_ok] at h
    subst h
    rw [Nat.zero_mul]
    exact Nat.zero_le _
  · simp only [toU128, bind_eq_ok, ensure_eq_ok, pure_eq_ok] at h
    obtain ⟨_, -, rfl⟩ := h
    exact Nat.div_mul_le_self _ _

theorem advance_ok {state state' : RewardMarketState} {block speed : ℕ}
    {totalShare : Except Fault ℕ} (h : state.advance block speed totalShare = .ok state') :
    ∃ delta, state' = ⟨state.index + delta, max state.block block⟩ ∧
      (block ≤ state.block → delta = 0) ∧ ∀ share, totalShare = .ok share →
        delta * share ≤ (block - state.block) * speed * rewardScale := by
  simp only [RewardMarketState.advance] at h
  split at h
  · simp only [pure_eq_ok] at h
    subst h
    refine ⟨0, ?_, fun _ => rfl, ?_⟩
    · rw [Nat.max_eq_left (by omega)]
      rfl
    · intro share _
      rw [Nat.zero_mul]
      exact Nat.zero_le _
  · split at h
    · simp only [pure_eq_ok] at h
      subst h
      refine ⟨0, ?_, fun _ => rfl, ?_⟩
      · rw [Nat.max_eq_right (by omega)]
        rfl
      · intro share _
        rw [Nat.zero_mul]
        exact Nat.zero_le _
    · simp only [bind_eq_ok, okOr_eq_ok, pure_eq_ok, U128.checkedAdd_eq_some] at h
      obtain ⟨share, hshare, delta, hdelta, _, ⟨rfl, -⟩, rfl⟩ := h
      refine ⟨delta, ?_, fun hle => by omega, ?_⟩
      · rw [Nat.max_eq_right (by omega)]
      · intro share' hshare'
        rw [hshare] at hshare'
        cases hshare'
        exact calculateRewardDeltaIndex_ok hdelta

theorem updateRewardSupplyIndex_ok (h : s.updateRewardSupplyIndex asset = .ok s') :
    ∃ rewards, s' = s.withRewards rewards := by
  simp only [State.updateRewardSupplyIndex, bind_eq_ok, pure_eq_ok] at h
  obtain ⟨state, -, rfl⟩ := h
  exact ⟨_, rfl⟩

theorem updateRewardBorrowIndex_ok (h : s.updateRewardBorrowIndex asset = .ok s') :
    ∃ rewards, s' = s.withRewards rewards := by
  simp only [State.updateRewardBorrowIndex, bind_eq_ok, pure_eq_ok] at h
  obtain ⟨state, -, rfl⟩ := h
  exact ⟨_, rfl⟩

variable [DecidableEq AccountId] {who : AccountId}

theorem distributeSupplierReward_ok {supplier : AccountId}
    (h : s.distributeSupplierReward asset supplier = .ok s') :
    ∃ rewards, s' = s.withRewards rewards := by
  simp only [State.distributeSupplierReward, bind_eq_ok, pure_eq_ok] at h
  obtain ⟨_, -, _, -, _, -, rfl⟩ := h
  exact ⟨_, rfl⟩

theorem distributeBorrowerReward_ok {borrower : AccountId}
    (h : s.distributeBorrowerReward asset borrower = .ok s') :
    ∃ rewards, s' = s.withRewards rewards := by
  simp only [State.distributeBorrowerReward, bind_eq_ok, pure_eq_ok] at h
  obtain ⟨_, -, _, -, _, -, _, -, _, -, rfl⟩ := h
  exact ⟨_, rfl⟩

def State.settleSuppliers (s : State cfg) (asset : CurrencyId) (suppliers : List AccountId) :
    Except Fault (State cfg) := do
  let s ← s.updateRewardSupplyIndex asset
  suppliers.foldlM (fun (s : State cfg) supplier => s.distributeSupplierReward asset supplier) s

def State.settleBorrower (s : State cfg) (asset : CurrencyId) (borrower : AccountId) :
    Except Fault (State cfg) := do
  let s ← s.updateRewardBorrowIndex asset
  s.distributeBorrowerReward asset borrower

theorem settleSuppliers_ok {suppliers : List AccountId}
    (h : s.settleSuppliers asset suppliers = .ok s') : ∃ rewards, s' = s.withRewards rewards := by
  simp only [State.settleSuppliers, bind_eq_ok] at h
  obtain ⟨s₁, h₁, h₂⟩ := h
  obtain ⟨rewards₁, rfl⟩ := updateRewardSupplyIndex_ok h₁
  have hrel : ∃ rewards, s' = (s.withRewards rewards₁).withRewards rewards := by
    apply foldlM_rel (R := fun s s' : State cfg => ∃ rewards, s' = s.withRewards rewards) _ _ _ h₂
    · intro s
      exact ⟨s.rewards, rfl⟩
    · rintro s _ _ ⟨rewards, rfl⟩ ⟨rewards', rfl⟩
      exact ⟨rewards', rfl⟩
    · intro s supplier s' h
      exact distributeSupplierReward_ok h
  obtain ⟨rewards, rfl⟩ := hrel
  exact ⟨rewards, rfl⟩

theorem settleSuppliers_one (h : s.updateRewardSupplyIndex asset = .ok s₁)
    (h' : s₁.distributeSupplierReward asset who = .ok s') :
    s.settleSuppliers asset [who] = .ok s' := by
  simp only [State.settleSuppliers, List.foldlM_cons, List.foldlM_nil, bind_eq_ok, pure_eq_ok]
  exact ⟨s₁, h, s', h', rfl⟩

theorem settleBorrower_ok {borrower : AccountId} (h : s.settleBorrower asset borrower = .ok s') :
    ∃ rewards, s' = s.withRewards rewards := by
  simp only [State.settleBorrower, bind_eq_ok] at h
  obtain ⟨s₁, h₁, h₂⟩ := h
  obtain ⟨rewards₁, rfl⟩ := updateRewardBorrowIndex_ok h₁
  obtain ⟨rewards, rfl⟩ := distributeBorrowerReward_ok h₂
  exact ⟨rewards, rfl⟩

/-! Vouchers, debts and earnings of one account. -/

def State.vouchersOf (s : State cfg) (asset : CurrencyId) (who : AccountId) : ℕ :=
  (s.depositsOf asset who).voucherBalance

@[simp] theorem depositsOf_setDeposits_self (who : AccountId) (o : Option Deposits) :
    (s.setDeposits asset who o).depositsOf asset who = o.getD default := by
  simp [State.setDeposits, State.depositsOf]

theorem depositsOf_setDeposits_ne {c : CurrencyId} {who x : AccountId} (o : Option Deposits)
    (h : c ≠ asset ∨ x ≠ who) :
    (s.setDeposits asset who o).depositsOf c x = s.depositsOf c x := by
  by_cases hc : c = asset
  · subst c
    have hx : x ≠ who := h.resolve_left (not_not.mpr rfl)
    simp [State.setDeposits, State.depositsOf, Table.get_write_ne _ o hx]
  · simp [State.setDeposits, State.depositsOf, hc]

theorem addVouchers_ok (h : s.addVouchers asset who n = .ok s') :
    s' = s.setDeposits asset who (some { s.depositsOf asset who with
      voucherBalance := (s.depositsOf asset who).voucherBalance + n }) := by
  simp only [State.addVouchers, bind_eq_ok, okOr_eq_ok, pure_eq_ok, U128.checkedAdd_eq_some] at h
  obtain ⟨_, ⟨rfl, -⟩, rfl⟩ := h
  rfl

theorem removeVouchers_ok (h : s.removeVouchers asset who n = .ok s') :
    n ≤ (s.depositsOf asset who).voucherBalance ∧ ∃ o, s' = s.setDeposits asset who o ∧
      o = if (s.depositsOf asset who).voucherBalance - n = 0 then none
        else some { s.depositsOf asset who with
          voucherBalance := (s.depositsOf asset who).voucherBalance - n } := by
  simp only [State.removeVouchers, bind_eq_ok, okOr_eq_ok, pure_eq_ok,
    U128.checkedSub_eq_some] at h
  obtain ⟨_, ⟨hle, rfl⟩, rfl⟩ := h
  exact ⟨hle, _, rfl, rfl⟩

theorem seizeVouchers_ok (h : s.seizeVouchers asset who n = .ok s') :
    n ≤ (s.depositsOf asset who).voucherBalance ∧
      s' = s.setDeposits asset who (some { s.depositsOf asset who with
        voucherBalance := (s.depositsOf asset who).voucherBalance - n }) := by
  simp only [State.seizeVouchers, bind_eq_ok, okOr_eq_ok, pure_eq_ok,
    U128.checkedSub_eq_some] at h
  obtain ⟨_, ⟨hle, rfl⟩, rfl⟩ := h
  exact ⟨hle, rfl⟩

def State.setEarned (s : State cfg) (asset : CurrencyId) (who : AccountId)
    (earned : EarnedSnapshot) : State cfg :=
  { s with
    accountEarned := Function.update s.accountEarned asset
      (Function.update (s.accountEarned asset) who earned) }

theorem updateEarnedStored_ok (h : s.updateEarnedStored who asset rate = .ok s') :
    (s.accountEarned asset who).exchangeRatePrior.inner ≤ rate.inner ∧
      ∃ total, s' = s.setEarned asset who ⟨total, rate⟩ := by
  simp only [State.updateEarnedStored, FixedU128.checkedSub, bind_eq_ok, okOr_eq_ok, pure_eq_ok,
    Option.bind_eq_some_iff, Option.map_eq_some_iff, U128.checkedSub_eq_some] at h
  obtain ⟨total, ⟨_, ⟨_, ⟨_, ⟨hle, -⟩, -⟩, -⟩, -⟩, rfl⟩ := h
  exact ⟨hle, total, rfl⟩

/-! The operations. -/

def State.setSupply (s : State cfg) (asset : CurrencyId) (supply : ℕ) : State cfg :=
  { s with totalSupply := Function.update s.totalSupply asset supply }

def State.setTotalBorrows (s : State cfg) (asset : CurrencyId) (borrows : ℕ) : State cfg :=
  { s with totalBorrows := Function.update s.totalBorrows asset borrows }

theorem doMint_ok (h : doMint s who asset n = .ok s') :
    n ≠ 0 ∧ ∃ s₁ s₂ s₃ s₄ rate v, s.accrueInterest asset = .ok s₁ ∧
      (∃ rewards, s₂ = s₁.withRewards rewards ∧ s₁.settleSuppliers asset [who] = .ok s₂) ∧
      s₂.exchangeRateStored asset = .ok rate ∧
      s₂.updateEarnedStored who asset rate = .ok s₃ ∧ calcCollateralAmount n rate = .ok v ∧
      v ≠ 0 ∧ s₃.transfer asset who cfg.accountId n .expendable = .ok s₄ ∧
      ∃ s₅, s₄.addVouchers asset who v = .ok s₅ ∧
        s' = s₅.setSupply asset (s₅.totalSupply asset + v) := by
  simp only [doMint, bind_eq_ok, ensure_eq_ok, okOr_eq_ok, pure_eq_ok,
    U128.checkedAdd_eq_some] at h
  obtain ⟨_, hn, _, -, _, -, s₁, h₁, t, ht, s₂, h₂, rate, hrate, s₃, h₃, v, hv, _, hv0, s₄, h₄,
    s₅, h₅, _, ⟨rfl, -⟩, rfl⟩ := h
  have hsettled : s₁.settleSuppliers asset [who] = .ok s₂ := settleSuppliers_one ht h₂
  obtain ⟨rewards, rfl⟩ := settleSuppliers_ok hsettled
  exact ⟨hn, s₁, _, s₃, s₄, rate, v, h₁, ⟨rewards, rfl, hsettled⟩, hrate, h₃, hv, hv0, h₄, s₅, h₅,
    rfl⟩

theorem doRedeemVoucher_ok {v paid : ℕ} (h : doRedeemVoucher s who asset v = .ok (paid, s')) :
    s.redeemAllowed asset who v = .ok () ∧ ∃ s₁ s₂ rate,
      (∃ rewards, s₁ = s.withRewards rewards ∧ s.settleSuppliers asset [who] = .ok s₁) ∧
      s₁.exchangeRateStored asset = .ok rate ∧ calcUnderlyingAmount v rate = .ok paid ∧
      s₁.removeVouchers asset who v = .ok s₂ ∧ v ≤ s₂.totalSupply asset ∧
      (s₂.setSupply asset (s₂.totalSupply asset - v)).transfer asset cfg.accountId who paid
        .expendable = .ok s' := by
  simp only [doRedeemVoucher, bind_eq_ok, okOr_eq_ok, mapErr_eq_ok, pure_eq_ok,
    U128.checkedSub_eq_some, Prod.mk.injEq] at h
  obtain ⟨_, hallowed, t, ht, s₁, h₁, rate, hrate, _, hpaid, s₂, h₂, _, ⟨hle, rfl⟩, _, h₃, rfl,
    rfl⟩ := h
  have hsettled : s.settleSuppliers asset [who] = .ok s₁ := settleSuppliers_one ht h₁
  obtain ⟨rewards, rfl⟩ := settleSuppliers_ok hsettled
  exact ⟨hallowed, _, s₂, rate, ⟨rewards, rfl, hsettled⟩, hrate, hpaid, h₂, hle, h₃⟩

theorem doRedeem_ok {n paid : ℕ} (h : doRedeem s who asset n = .ok (paid, s')) :
    ∃ s₁ s₂ rate v, s.accrueInterest asset = .ok s₁ ∧ s₁.exchangeRateStored asset = .ok rate ∧
      s₁.updateEarnedStored who asset rate = .ok s₂ ∧ calcCollateralAmount n rate = .ok v ∧
      doRedeemVoucher s₂ who asset v = .ok (paid, s') := by
  simp only [doRedeem, bind_eq_ok] at h
  obtain ⟨_, -, s₁, h₁, rate, hrate, s₂, h₂, v, hv, h₃⟩ := h
  exact ⟨s₁, s₂, rate, v, h₁, hrate, h₂, hv, h₃⟩

theorem doRedeemAll_ok {paid : ℕ} (h : doRedeemAll s who asset = .ok (paid, s')) :
    ∃ s₁ s₂ rate, s.accrueInterest asset = .ok s₁ ∧ s₁.exchangeRateStored asset = .ok rate ∧
      s₁.updateEarnedStored who asset rate = .ok s₂ ∧
      doRedeemVoucher s₂ who asset (s₂.depositsOf asset who).voucherBalance =
        .ok (paid, s') := by
  simp only [doRedeemAll, bind_eq_ok] at h
  obtain ⟨_, -, s₁, h₁, rate, hrate, s₂, h₂, h₃⟩ := h
  exact ⟨s₁, s₂, rate, h₁, hrate, h₂, h₃⟩

theorem doBorrow_ok (h : doBorrow s who asset n = .ok s') :
    ∃ s₁ s₂ borrows, s.accrueInterest asset = .ok s₁ ∧
      s₁.borrowAllowedForMarketBond asset who n = .ok () ∧
      s₁.borrowAllowed asset who n = .ok () ∧
      (∃ rewards, s₂ = s₁.withRewards rewards ∧ s₁.settleBorrower asset who = .ok s₂) ∧
      s₂.currentBorrowBalance who asset = .ok borrows ∧
      ((s₂.setBorrows asset who (borrows + n)).setTotalBorrows asset
        (s₂.totalBorrows asset + n)).transfer asset cfg.accountId who n .expendable = .ok s' := by
  simp only [doBorrow, bind_eq_ok, okOr_eq_ok, U128.checkedAdd_eq_some] at h
  obtain ⟨_, -, s₁, h₁, _, hbond, _, hallowed, t, ht, s₂, h₂, borrows, hborrows, _, ⟨rfl, -⟩, _,
    ⟨rfl, -⟩, h₃⟩ := h
  have hsettled : s₁.settleBorrower asset who = .ok s₂ := bind_eq_ok.mpr ⟨t, ht, h₂⟩
  obtain ⟨rewards, rfl⟩ := settleBorrower_ok hsettled
  exact ⟨s₁, _, borrows, h₁, hbond, hallowed, ⟨rewards, rfl, hsettled⟩, hborrows, h₃⟩

theorem doRepayBorrowWithAmount_ok {borrows n : ℕ}
    (h : doRepayBorrowWithAmount s who asset borrows n = .ok s') :
    n ≤ borrows ∧ ∃ s₁ s₂,
      (∃ rewards, s₁ = s.withRewards rewards ∧ s.settleBorrower asset who = .ok s₁) ∧
      s₁.transfer asset who cfg.accountId n .expendable = .ok s₂ ∧
      s' = (s₂.setBorrows asset who (borrows - n)).setTotalBorrows asset
        (s₂.totalBorrows asset - n) := by
  simp only [doRepayBorrowWithAmount, bind_eq_ok, ensure_eq_ok, okOr_eq_ok, pure_eq_ok,
    U128.checkedSub_eq_some] at h
  obtain ⟨_, hle, t, ht, s₁, h₁, s₂, h₂, _, ⟨-, rfl⟩, rfl⟩ := h
  have hsettled : s.settleBorrower asset who = .ok s₁ := bind_eq_ok.mpr ⟨t, ht, h₁⟩
  obtain ⟨rewards, rfl⟩ := settleBorrower_ok hsettled
  exact ⟨hle, _, s₂, ⟨rewards, rfl, hsettled⟩, h₂, rfl⟩

theorem doRepayBorrow_ok (h : doRepayBorrow s who asset n = .ok s') :
    ∃ s₁ borrows, s.accrueInterest asset = .ok s₁ ∧
      s₁.currentBorrowBalance who asset = .ok borrows ∧
      doRepayBorrowWithAmount s₁ who asset borrows n = .ok s' := by
  simp only [doRepayBorrow, bind_eq_ok] at h
  obtain ⟨_, -, s₁, h₁, borrows, hborrows, h₂⟩ := h
  exact ⟨s₁, borrows, h₁, hborrows, h₂⟩

theorem repayBorrowAll_ok (h : repayBorrowAll s who asset = .ok s') :
    ∃ s₁ borrows, s.accrueInterest asset = .ok s₁ ∧
      s₁.currentBorrowBalance who asset = .ok borrows ∧
      doRepayBorrow s₁ who asset borrows = .ok s' := by
  simp only [repayBorrowAll, bind_eq_ok] at h
  obtain ⟨_, -, s₁, h₁, borrows, hborrows, h₂⟩ := h
  exact ⟨s₁, borrows, h₁, hborrows, h₂⟩

theorem repayForBorrower_ok {liquidator borrower : AccountId}
    (h : repayForBorrower s liquidator borrower asset n = .ok s') :
    ∃ s₁ s₂ borrows,
      (∃ rewards, s₁ = s.withRewards rewards ∧ s.settleBorrower asset liquidator = .ok s₁) ∧
      s₁.transfer asset liquidator cfg.accountId n .expendable = .ok s₂ ∧
      s₂.currentBorrowBalance borrower asset = .ok borrows ∧ n ≤ borrows ∧
      n ≤ s₂.totalBorrows asset ∧
      s' = (s₂.setBorrows asset borrower (borrows - n)).setTotalBorrows asset
        (s₂.totalBorrows asset - n) := by
  simp only [repayForBorrower, bind_eq_ok, okOr_eq_ok, pure_eq_ok, U128.checkedSub_eq_some] at h
  obtain ⟨t, ht, s₁, h₁, s₂, h₂, borrows, hborrows, _, ⟨hle, rfl⟩, _, ⟨htotal, rfl⟩, rfl⟩ := h
  have hsettled : s.settleBorrower asset liquidator = .ok s₁ := bind_eq_ok.mpr ⟨t, ht, h₁⟩
  obtain ⟨rewards, rfl⟩ := settleBorrower_ok hsettled
  exact ⟨_, s₂, borrows, ⟨rewards, rfl, hsettled⟩, h₂, hborrows, hle, htotal, rfl⟩

theorem seizeCollateral_ok {liquidator borrower : AccountId} {amount : ℕ} {market : Market}
    (h : seizeCollateral s liquidator borrower asset amount market = .ok s') :
    ∃ s₁ s₂ s₃ rate v reserved, (∃ rewards, s₁ = s.withRewards rewards ∧
        s.settleSuppliers asset [liquidator, borrower, cfg.incentiveRewardAccountId] = .ok s₁) ∧
      s₁.exchangeRateStored asset = .ok rate ∧ calcCollateralAmount amount rate = .ok v ∧
      s₁.seizeVouchers asset borrower v = .ok s₂ ∧
      incentiveReservedAmount market v = .ok reserved ∧
      s₂.addVouchers asset liquidator (U128.wrappingSub v reserved) = .ok s₃ ∧
      s₃.addVouchers asset cfg.incentiveRewardAccountId reserved = .ok s' := by
  simp only [seizeCollateral, bind_eq_ok] at h
  obtain ⟨t, ht, t₁, ht₁, t₂, ht₂, s₁, h₁, rate, hrate, v, hv, s₂, h₂, reserved, hreserved, s₃,
    h₃, h₄⟩ := h
  have hsettled : s.settleSuppliers asset [liquidator, borrower, cfg.incentiveRewardAccountId] =
      .ok s₁ := by
    simp only [State.settleSuppliers, List.foldlM_cons, List.foldlM_nil, bind_eq_ok, pure_eq_ok]
    exact ⟨t, ht, t₁, ht₁, t₂, ht₂, s₁, h₁, rfl⟩
  obtain ⟨rewards, rfl⟩ := settleSuppliers_ok hsettled
  exact ⟨_, s₂, s₃, rate, v, reserved, ⟨rewards, rfl, hsettled⟩, hrate, hv, h₂, hreserved, h₃, h₄⟩

theorem liquidateBorrow_ok {who borrower : AccountId} {collateral : CurrencyId}
    (h : liquidateBorrow s who borrower asset n collateral = .ok s') :
    ∃ s₁ s₂ s₃ market amount, s.accrueInterest asset = .ok s₁ ∧
      s₁.accrueInterest collateral = .ok s₂ ∧ borrower ≠ who ∧ s₂.market asset = .ok market ∧
      s₂.liquidateBorrowAllowed borrower asset n market = .ok () ∧
      liquidatedUnderlying s₂ borrower asset n collateral market = .ok amount ∧
      repayForBorrower s₂ who borrower asset n = .ok s₃ ∧
      seizeCollateral s₃ who borrower collateral amount market = .ok s' := by
  simp only [liquidateBorrow, doLiquidateBorrow, bind_eq_ok, ensure_eq_ok] at h
  obtain ⟨_, -, s₁, h₁, s₂, h₂, _, -, _, -, market, hmarket, _, hne, _, hallowed, amount, hamount,
    s₃, h₃, h₄⟩ := h
  exact ⟨s₁, s₂, s₃, market, amount, h₁, h₂, hne, hmarket, hallowed, hamount, h₃, h₄⟩

theorem transferLendToken_ok {source dest : AccountId} {token : CurrencyId}
    (h : transferLendToken s token source dest n = .ok s') :
    n ≤ reducibleBalance s token source ∧ ∃ s₁ s₂ underlying,
      (∃ rewards, s₁ = s.withRewards rewards ∧
        s.settleSuppliers token [source, dest] = .ok s₁) ∧
      s.underlyingAssetId token = some underlying ∧
      s₁.removeVouchers underlying source n = .ok s₂ ∧
      s₂.addVouchers underlying dest n = .ok s' := by
  simp only [transferLendToken, doTransferLendTokens, underlyingId, bind_eq_ok, ensure_eq_ok,
    okOr_eq_ok] at h
  obtain ⟨_, hle, t, ht, t₁, ht₁, s₁, h₁, underlying, hunderlying, s₂, h₂, h₃⟩ := h
  have hsettled : s.settleSuppliers token [source, dest] = .ok s₁ := by
    simp only [State.settleSuppliers, List.foldlM_cons, List.foldlM_nil, bind_eq_ok, pure_eq_ok]
    exact ⟨t, ht, t₁, ht₁, s₁, h₁, rfl⟩
  obtain ⟨rewards, rfl⟩ := settleSuppliers_ok hsettled
  exact ⟨hle, _, s₂, underlying, ⟨rewards, rfl, hsettled⟩, hunderlying, h₂, h₃⟩

/-! Governance and the outside. -/

/-- Only markets, their settings, prices and the clock may change, and with a new market its
exchange rate and borrow index. -/
structure Administers (s s' : State cfg) : Prop where
  ledger : s'.ledger = s.ledger
  lastAccruedInterestTime : s'.lastAccruedInterestTime = s.lastAccruedInterestTime
  totalSupply : s'.totalSupply = s.totalSupply
  totalBorrows : s'.totalBorrows = s.totalBorrows
  totalReserves : s'.totalReserves = s.totalReserves
  accountBorrows : s'.accountBorrows = s.accountBorrows
  accountDeposits : s'.accountDeposits = s.accountDeposits
  accountEarned : s'.accountEarned = s.accountEarned
  rewards : s'.rewards = s.rewards
  borrowIndex : ∀ c, s'.borrowIndex c = s.borrowIndex c ∨
    (s.markets.get c = none ∧ (s'.markets.get c).isSome ∧ s'.borrowIndex c = .one)
  markets : ∀ c, (s'.markets.get c).isNone → (s.markets.get c).isNone

def Call.administers : Call AccountId → Bool
  | .addMarket .. | .activateMarket .. | .updateRateModel .. | .updateMarket ..
  | .forceUpdateMarket .. | .updateLiquidationFreeCollateral .. | .addMarketBond ..
  | .setPrice .. | .advance .. => true
  | _ => false

section

omit [DecidableEq AccountId]

theorem isNone_of_write {t : Table CurrencyId Market} {market : Market} {c : CurrencyId}
    (h : ((t.write asset (some market)).get c).isNone) : (t.get c).isNone := by
  rw [Table.get_write] at h
  split at h
  · contradiction
  · exact h

theorem mutateMarket_ok {f : Market → Market} (h : mutateMarket s asset f = .ok s') :
    ∃ markets, s' = { s with markets := markets } := by
  simp only [mutateMarket, State.market, bind_eq_ok, okOr_eq_ok, pure_eq_ok] at h
  obtain ⟨market, -, rfl⟩ := h
  exact ⟨_, rfl⟩

theorem mutateMarket_administers {f : Market → Market} (h : mutateMarket s asset f = .ok s') :
    Administers s s' := by
  simp only [mutateMarket, State.market, bind_eq_ok, okOr_eq_ok, pure_eq_ok] at h
  obtain ⟨market, -, rfl⟩ := h
  refine ⟨rfl, rfl, rfl, rfl, rfl, rfl, rfl, rfl, rfl, fun c => Or.inl rfl, ?_⟩
  intro c hc
  exact isNone_of_write hc

theorem addMarket_administers {market : Market} (h : addMarket s asset market = .ok s') :
    Administers s s' := by
  simp only [addMarket, bind_eq_ok, ensure_eq_ok, pure_eq_ok] at h
  obtain ⟨_, -, _, hnew, _, -, _, -, _, -, _, -, _, -, _, -, rfl⟩ := h
  refine ⟨rfl, rfl, rfl, rfl, rfl, rfl, rfl, rfl, rfl, ?_, ?_⟩
  · intro c
    by_cases hc : c = asset
    · subst c
      have hsome : ((s.markets.write asset (some market)).get asset).isSome := by
        rw [Table.get_write_self]
        rfl
      exact Or.inr ⟨hnew, hsome, Function.update_self _ _ _⟩
    · exact Or.inl (Function.update_of_ne hc _ _)
  · intro c hc
    exact isNone_of_write hc

end

theorem step_administers {a : Call AccountId} (ha : a.administers = true)
    (h : step s a = .ok s') : Administers s s' := by
  cases a with
  | addMarket asset market => exact addMarket_administers h
  | activateMarket asset => exact mutateMarket_administers h
  | updateRateModel asset rateModel =>
    simp only [step, updateRateModel, bind_eq_ok] at h
    obtain ⟨_, -, h⟩ := h
    exact mutateMarket_administers h
  | updateMarket asset update =>
    simp only [step, updateMarket, bind_eq_ok] at h
    obtain ⟨_, -, _, -, _, -, h⟩ := h
    exact mutateMarket_administers h
  | forceUpdateMarket asset market =>
    simp only [step, forceUpdateMarket, bind_eq_ok] at h
    obtain ⟨_, -, _, -, h⟩ := h
    have hframe := mutateMarket_administers h
    exact ⟨hframe.ledger, hframe.lastAccruedInterestTime, hframe.totalSupply,
      hframe.totalBorrows, hframe.totalReserves, hframe.accountBorrows, hframe.accountDeposits,
      hframe.accountEarned, hframe.rewards, hframe.borrowIndex, hframe.markets⟩
  | updateLiquidationFreeCollateral collaterals =>
    simp only [step, updateLiquidationFreeCollateral, bind_eq_ok, pure_eq_ok] at h
    obtain ⟨_, -, rfl⟩ := h
    exact ⟨rfl, rfl, rfl, rfl, rfl, rfl, rfl, rfl, rfl, fun c => Or.inl rfl, fun c hc => hc⟩
  | addMarketBond asset marketBond =>
    simp only [step, addMarketBond, bind_eq_ok, pure_eq_ok] at h
    obtain ⟨_, -, rfl⟩ := h
    exact ⟨rfl, rfl, rfl, rfl, rfl, rfl, rfl, rfl, rfl, fun c => Or.inl rfl, fun c hc => hc⟩
  | setPrice asset price =>
    simp only [step, pure_eq_ok] at h
    subst s'
    exact ⟨rfl, rfl, rfl, rfl, rfl, rfl, rfl, rfl, rfl, fun c => Or.inl rfl, fun c hc => hc⟩
  | advance seconds blocks =>
    simp only [step, pure_eq_ok] at h
    subst s'
    exact ⟨rfl, rfl, rfl, rfl, rfl, rfl, rfl, rfl, rfl, fun c => Or.inl rfl, fun c hc => hc⟩
  | _ => contradiction

def Call.blocks : Call AccountId → ℕ
  | .advance _ blocks => blocks
  | _ => 0

theorem step_blockNumber {a : Call AccountId} (ha : a.administers = true)
    (h : step s a = .ok s') : s'.blockNumber = s.blockNumber + a.blocks := by
  cases a with
  | addMarket asset market =>
    simp only [step, addMarket, bind_eq_ok, ensure_eq_ok, pure_eq_ok] at h
    obtain ⟨_, -, _, -, _, -, _, -, _, -, _, -, _, -, _, -, rfl⟩ := h
    rfl
  | activateMarket asset =>
    obtain ⟨markets, rfl⟩ := mutateMarket_ok h
    rfl
  | updateRateModel asset rateModel =>
    simp only [step, updateRateModel, bind_eq_ok] at h
    obtain ⟨_, -, h⟩ := h
    obtain ⟨markets, rfl⟩ := mutateMarket_ok h
    rfl
  | updateMarket asset update =>
    simp only [step, updateMarket, bind_eq_ok] at h
    obtain ⟨_, -, _, -, _, -, h⟩ := h
    obtain ⟨markets, rfl⟩ := mutateMarket_ok h
    rfl
  | forceUpdateMarket asset market =>
    simp only [step, forceUpdateMarket, bind_eq_ok] at h
    obtain ⟨_, -, _, -, h⟩ := h
    obtain ⟨markets, rfl⟩ := mutateMarket_ok h
    rfl
  | updateLiquidationFreeCollateral collaterals =>
    simp only [step, updateLiquidationFreeCollateral, bind_eq_ok, pure_eq_ok] at h
    obtain ⟨_, -, rfl⟩ := h
    rfl
  | addMarketBond asset marketBond =>
    simp only [step, addMarketBond, bind_eq_ok, pure_eq_ok] at h
    obtain ⟨_, -, rfl⟩ := h
    rfl
  | setPrice asset price =>
    simp only [step, pure_eq_ok] at h
    exact h ▸ rfl
  | advance seconds blocks =>
    simp only [step, pure_eq_ok] at h
    exact h ▸ rfl
  | _ => contradiction

/-! Reserves, rewards and collateral. -/

omit [DecidableEq AccountId] in
theorem reduceReserves_ok {receiver : AccountId} (h : reduceReserves s receiver asset n = .ok s') :
    n ≤ s.totalReserves asset ∧
      State.transfer { s with
        totalReserves := Function.update s.totalReserves asset (s.totalReserves asset - n) }
        asset cfg.accountId receiver n .expendable = .ok s' := by
  simp only [reduceReserves, bind_eq_ok, ensure_eq_ok, okOr_eq_ok, U128.checkedSub_eq_some] at h
  obtain ⟨_, -, _, hle, _, ⟨-, rfl⟩, h₁⟩ := h
  exact ⟨hle, h₁⟩

theorem reduceIncentiveReserves_ok {receiver : AccountId}
    (h : reduceIncentiveReserves s receiver asset n = .ok s') :
    ∃ rate v paid s₁, s.exchangeRateStored asset = .ok rate ∧
      calcCollateralAmount n rate = .ok v ∧
      doRedeemVoucher s cfg.incentiveRewardAccountId asset v = .ok (paid, s₁) ∧
      s₁.transfer asset cfg.incentiveRewardAccountId receiver paid .expendable = .ok s' := by
  simp only [reduceIncentiveReserves, bind_eq_ok] at h
  obtain ⟨_, -, _, -, rate, hrate, v, hv, ⟨paid, s₁⟩, h₁, h₂⟩ := h
  exact ⟨rate, v, paid, s₁, hrate, hv, h₁, h₂⟩

theorem collectMarketReward_ok {user : AccountId} (h : s.collectMarketReward asset user = .ok s') :
    ∃ rewards, s' = s.withRewards rewards := by
  simp only [State.collectMarketReward, bind_eq_ok] at h
  obtain ⟨s₁, h₁, s₂, h₂, s₃, h₃, h₄⟩ := h
  obtain ⟨rewards₁, rfl⟩ := updateRewardSupplyIndex_ok h₁
  obtain ⟨rewards₂, rfl⟩ := distributeSupplierReward_ok h₂
  obtain ⟨rewards₃, rfl⟩ := updateRewardBorrowIndex_ok h₃
  obtain ⟨rewards₄, rfl⟩ := distributeBorrowerReward_ok h₄
  exact ⟨rewards₄, rfl⟩

theorem collectMarketRewards_ok {user : AccountId} {assets : List CurrencyId}
    (h : assets.foldlM (fun (s : State cfg) asset => s.collectMarketReward asset user) s = .ok s') :
    ∃ rewards, s' = s.withRewards rewards := by
  apply foldlM_rel (R := fun s s' : State cfg => ∃ rewards, s' = s.withRewards rewards) _ _ _ h
  · intro s
    exact ⟨s.rewards, rfl⟩
  · rintro s _ _ ⟨rewards, rfl⟩ ⟨rewards', rfl⟩
    exact ⟨rewards', rfl⟩
  · intro s asset s' h
    exact collectMarketReward_ok h

theorem payReward_ok {user : AccountId} (h : s.payReward user = .ok s') :
    ∃ s₁ rewards, (s₁ = s ∨ s.transfer cfg.rewardAssetId cfg.rewardAccountId user
        (s.rewards.accrued user) .preserve = .ok s₁) ∧ s' = s₁.withRewards rewards := by
  simp only [State.payReward] at h
  split at h
  · simp only [pure_eq_ok] at h
    exact ⟨s, s.rewards, Or.inl rfl, h.symm⟩
  · simp only [bind_eq_ok, pure_eq_ok] at h
    obtain ⟨s₁, h₁, rfl⟩ := h
    exact ⟨s₁, _, Or.inr h₁, rfl⟩

omit [DecidableEq AccountId] in
theorem updateSupplySpeed_ok {speed : ℕ} (h : updateSupplySpeed s asset speed = .ok s') :
    ∃ rewards, s' = s.withRewards rewards := by
  unfold updateSupplySpeed at h
  split at h
  · simp only [pure_eq_ok] at h
    exact ⟨s.rewards, h.symm⟩
  · simp only [bind_eq_ok, pure_eq_ok] at h
    obtain ⟨s₁, h₁, rfl⟩ := h
    obtain ⟨rewards, rfl⟩ := updateRewardSupplyIndex_ok h₁
    exact ⟨_, rfl⟩

omit [DecidableEq AccountId] in
theorem updateBorrowSpeed_ok {speed : ℕ} (h : updateBorrowSpeed s asset speed = .ok s') :
    ∃ rewards, s' = s.withRewards rewards := by
  unfold updateBorrowSpeed at h
  split at h
  · simp only [pure_eq_ok] at h
    exact ⟨s.rewards, h.symm⟩
  · simp only [bind_eq_ok, pure_eq_ok] at h
    obtain ⟨s₁, h₁, rfl⟩ := h
    obtain ⟨rewards, rfl⟩ := updateRewardBorrowIndex_ok h₁
    exact ⟨_, rfl⟩

omit [DecidableEq AccountId] in
theorem updateMarketRewardSpeed_ok {supply borrow : Option ℕ}
    (h : updateMarketRewardSpeed s asset supply borrow = .ok s') :
    ∃ rewards, s' = s.withRewards rewards := by
  simp only [updateMarketRewardSpeed, bind_eq_ok] at h
  obtain ⟨_, -, s₁, h₁, h₂⟩ := h
  obtain ⟨rewards₁, rfl⟩ := updateSupplySpeed_ok h₁
  obtain ⟨rewards₂, rfl⟩ := updateBorrowSpeed_ok h₂
  exact ⟨rewards₂, rfl⟩

theorem doCollateralAsset_ok {enable : Bool} (h : doCollateralAsset s who asset enable = .ok s') :
    s.hasDeposits asset who ∧
      s' = s.setDeposits asset who (some { s.depositsOf asset who with isCollateral := enable }) ∧
      (enable = false → ∃ collateral value borrowed, s.totalCollateralValue who = .ok collateral ∧
        s.collateralAssetValue who asset = .ok value ∧ s.totalBorrowedValue who = .ok borrowed ∧
        borrowed.inner + value.inner ≤ collateral.inner) := by
  simp only [doCollateralAsset, bind_eq_ok, ensure_eq_ok] at h
  obtain ⟨_, -, _, hdeposits, h⟩ := h
  refine ⟨hdeposits, ?_⟩
  cases enable with
  | true =>
    simp only [if_true, pure_eq_ok] at h
    exact ⟨h.symm, by simp⟩
  | false =>
    simp only [Bool.false_eq_true, if_false, bind_eq_ok, okOr_eq_ok, ensure_eq_ok, pure_eq_ok,
      FixedU128.checkedAdd, Option.map_eq_some_iff, U128.checkedAdd_eq_some] at h
    obtain ⟨collateral, hcollateral, value, hvalue, borrowed, hborrowed, _, ⟨_, ⟨rfl, -⟩, rfl⟩, _,
      hle, rfl⟩ := h
    exact ⟨rfl, fun _ => ⟨collateral, value, borrowed, hcollateral, hvalue, hborrowed, hle⟩⟩

theorem collateralAsset_ok {enable : Bool} (h : collateralAsset s who asset enable = .ok s') :
    (s.depositsOf asset who).isCollateral ≠ enable ∧
      doCollateralAsset s who asset enable = .ok s' := by
  simp only [collateralAsset, bind_eq_ok, ensure_eq_ok] at h
  obtain ⟨_, -, _, -, _, hne, h₁⟩ := h
  exact ⟨hne, h₁⟩

end Bifrost.LendMarket
