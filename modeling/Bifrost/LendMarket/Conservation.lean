import Bifrost.LendMarket.ExchangeRate

/-!
# Vouchers are conserved

The total supply of a market counts the vouchers of its accounts. Minting and redeeming change
both sides, transfers and liquidations move vouchers among two or three accounts that may
coincide, and everything else leaves both sides alone. Only a liquidation can break it: what the
incentive account is due is subtracted from the seized vouchers without a check.
-/

namespace Bifrost.LendMarket

open Result Machine
set_option autoImplicit false

variable {AccountId : Type} {cfg : Config AccountId} {s s' s₁ : State cfg} {asset : CurrencyId}
  {n : ℕ} {who : AccountId}

def vouchers (deposits : Table AccountId Deposits) : ℕ :=
  Table.sum (fun _ d => d.voucherBalance) deposits

/-- Neither the vouchers nor their totals change. -/
structure SameVouchers (s s' : State cfg) : Prop where
  supply : s'.totalSupply = s.totalSupply
  deposits : s'.accountDeposits = s.accountDeposits

namespace SameVouchers

theorem trans (h : SameVouchers s s₁) (h' : SameVouchers s₁ s') : SameVouchers s s' :=
  ⟨h'.supply.trans h.supply, h'.deposits.trans h.deposits⟩

end SameVouchers

theorem accrueInterest_vouchers (h : s.accrueInterest asset = .ok s') : SameVouchers s s' :=
  ⟨(accrueInterest_frame h).totalSupply, (accrueInterest_frame h).accountDeposits⟩

theorem transfer_vouchers {source dest : AccountId} {p : Preservation}
    (h : s.transfer asset source dest n p = .ok s') : SameVouchers s s' := by
  obtain ⟨L, -, rfl⟩ := transfer_ok h
  exact ⟨rfl, rfl⟩

/-- The vouchers of `asset` that its accounts hold. -/
def State.circulating (s : State cfg) (asset : CurrencyId) : ℕ := vouchers (s.accountDeposits asset)

def VouchersConserved (s : State cfg) : Prop := ∀ asset, s.totalSupply asset = s.circulating asset

structure Moves (s s' : State cfg) (asset : CurrencyId) (taken given : ℕ) : Prop where
  supply : s'.totalSupply = s.totalSupply
  circulating : s'.circulating asset + taken = s.circulating asset + given
  others : ∀ c, c ≠ asset → s'.circulating c = s.circulating c

theorem SameVouchers.moves (h : SameVouchers s s') (asset : CurrencyId) :
    Moves s s' asset 0 0 := by
  refine ⟨h.supply, ?_, ?_⟩
  · rw [State.circulating, h.deposits]
    rfl
  · intro c _
    rw [State.circulating, h.deposits]
    rfl

namespace Moves

variable {taken given taken' given' : ℕ}

theorem trans (h : Moves s s₁ asset taken given) (h' : Moves s₁ s' asset taken' given') :
    Moves s s' asset (taken + taken') (given + given') := by
  refine ⟨h'.supply.trans h.supply, ?_, ?_⟩
  · have hfirst := h.circulating
    have hsecond := h'.circulating
    omega
  · intro c hc
    exact (h'.others c hc).trans (h.others c hc)

theorem net (h : Moves s s' asset taken given) (hnet : taken + given' = taken' + given) :
    Moves s s' asset taken' given' := by
  refine ⟨h.supply, ?_, h.others⟩
  have hmoved := h.circulating
  omega

theorem resupplied {supply : ℕ} (h : Moves s s₁ asset taken given)
    (hs : VouchersConserved s) (hsupply : supply + taken = s.totalSupply asset + given) :
    VouchersConserved (s₁.setSupply asset supply) := by
  intro c
  show Function.update s₁.totalSupply asset supply c = s₁.circulating c
  by_cases hc : c = asset
  · subst c
    rw [Function.update_self]
    have hbefore := hs asset
    have hmoved := h.circulating
    omega
  · rw [Function.update_of_ne hc, h.supply, h.others c hc]
    exact hs c

theorem conserved_iff (h : Moves s s' asset taken given) (hs : VouchersConserved s) :
    VouchersConserved s' ↔ taken = given := by
  have hbefore := hs asset
  have hmoved := h.circulating
  constructor
  · intro hs'
    have hafter := hs' asset
    rw [h.supply] at hafter
    omega
  · intro heq c
    rw [h.supply]
    by_cases hc : c = asset
    · subst c
      omega
    · rw [h.others c hc]
      exact hs c

end Moves

theorem SameVouchers.conserved (h : SameVouchers s s') (hs : VouchersConserved s) :
    VouchersConserved s' :=
  ((h.moves (.native .BNC)).conserved_iff hs).mpr rfl

section Deposits

variable [DecidableEq AccountId]

theorem vouchers_write (t : Table AccountId Deposits) (who : AccountId) (o : Option Deposits) :
    vouchers (t.write who o) + ((t.get who).getD default).voucherBalance =
      vouchers t + (o.getD default).voucherBalance := by
  have hweight : ∀ o : Option Deposits,
      Table.weight (fun _ d => d.voucherBalance) who o = (o.getD default).voucherBalance := by
    intro o
    cases o with
    | none => rfl
    | some d => rfl
  have hsum := Table.sum_write (fun (_ : AccountId) (d : Deposits) => d.voucherBalance) t who o
  rw [hweight, hweight] at hsum
  exact hsum

theorem setDeposits_moves (s : State cfg) (asset : CurrencyId) (who : AccountId)
    (o : Option Deposits) : Moves s (s.setDeposits asset who o) asset
      (s.depositsOf asset who).voucherBalance (o.getD default).voucherBalance := by
  refine ⟨rfl, ?_, ?_⟩
  · have hwrite := vouchers_write (s.accountDeposits asset) who o
    simpa [State.circulating, State.setDeposits, State.depositsOf] using hwrite
  · intro c hc
    simp [State.circulating, State.setDeposits, hc]

theorem addVouchers_moves (h : s.addVouchers asset who n = .ok s') : Moves s s' asset 0 n := by
  obtain rfl := addVouchers_ok h
  apply (setDeposits_moves s asset who _).net
  simp only [Option.getD_some]
  omega

theorem removeVouchers_moves
    (h : s.removeVouchers asset who n = .ok s') : Moves s s' asset n 0 := by
  obtain ⟨hle, o, rfl, ho⟩ := removeVouchers_ok h
  have hleft : (o.getD default).voucherBalance = (s.depositsOf asset who).voucherBalance - n := by
    rw [ho]
    split
    · exact (by assumption : _ = 0).symm
    · rfl
  apply (setDeposits_moves s asset who o).net
  omega

theorem seizeVouchers_moves (h : s.seizeVouchers asset who n = .ok s') : Moves s s' asset n 0 := by
  obtain ⟨hle, rfl⟩ := seizeVouchers_ok h
  apply (setDeposits_moves s asset who _).net
  simp only [Option.getD_some]
  omega

end Deposits

/-! The operations. -/

section Operations

variable [DecidableEq AccountId]

theorem mint_conserved (h : doMint s who asset n = .ok s')
    (hs : VouchersConserved s) : VouchersConserved s' := by
  obtain ⟨-, s₁, s₂, s₃, s₄, rate, v, h₁, ⟨rewards, rfl, -⟩, -, h₃, -, -, h₄, s₅, h₅, rfl⟩ :=
    doMint_ok h
  obtain ⟨-, total, rfl⟩ := updateEarnedStored_ok h₃
  have hsame : SameVouchers s s₄ := by
    have hpaid := transfer_vouchers h₄
    exact (accrueInterest_vouchers h₁).trans ⟨hpaid.supply, hpaid.deposits⟩
  have hmoves := (hsame.moves asset).trans (addVouchers_moves h₅)
  apply hmoves.resupplied hs
  rw [hmoves.supply]
  omega

theorem redeemVoucher_conserved {v paid : ℕ}
    (h : doRedeemVoucher s who asset v = .ok (paid, s')) (hs : VouchersConserved s) :
    VouchersConserved s' := by
  obtain ⟨-, s₁, s₂, rate, ⟨rewards, rfl, -⟩, -, -, h₂, hle, h₃⟩ := doRedeemVoucher_ok h
  have hsettled : SameVouchers s (s.withRewards rewards) := ⟨rfl, rfl⟩
  have hmoves := (hsettled.moves asset).trans (removeVouchers_moves h₂)
  apply (transfer_vouchers h₃).conserved
  apply hmoves.resupplied hs
  have hsupply := congrFun hmoves.supply asset
  omega

theorem redeem_conserved {n paid : ℕ}
    (h : doRedeem s who asset n = .ok (paid, s')) (hs : VouchersConserved s) :
    VouchersConserved s' := by
  obtain ⟨s₁, s₂, rate, v, h₁, -, h₂, -, h₃⟩ := doRedeem_ok h
  obtain ⟨-, total, rfl⟩ := updateEarnedStored_ok h₂
  apply redeemVoucher_conserved h₃
  have hs₁ := (accrueInterest_vouchers h₁).conserved hs
  exact hs₁

theorem redeemAll_conserved {paid : ℕ}
    (h : doRedeemAll s who asset = .ok (paid, s')) (hs : VouchersConserved s) :
    VouchersConserved s' := by
  obtain ⟨s₁, s₂, rate, h₁, -, h₂, h₃⟩ := doRedeemAll_ok h
  obtain ⟨-, total, rfl⟩ := updateEarnedStored_ok h₂
  apply redeemVoucher_conserved h₃
  have hs₁ := (accrueInterest_vouchers h₁).conserved hs
  exact hs₁

theorem doCollateralAsset_conserved {enable : Bool}
    (h : doCollateralAsset s who asset enable = .ok s') (hs : VouchersConserved s) :
    VouchersConserved s' := by
  obtain ⟨-, rfl, -⟩ := doCollateralAsset_ok h
  exact ((setDeposits_moves s asset who _).conserved_iff hs).mpr rfl

theorem transferLendToken_conserved {source dest : AccountId} {token : CurrencyId}
    (h : transferLendToken s token source dest n = .ok s') (hs : VouchersConserved s) :
    VouchersConserved s' := by
  obtain ⟨-, _, s₂, underlying, ⟨rewards, rfl, -⟩, -, h₂, h₃⟩ := transferLendToken_ok h
  have hsettled : SameVouchers s (s.withRewards rewards) := ⟨rfl, rfl⟩
  have hmoves := ((hsettled.moves underlying).trans (removeVouchers_moves h₂)).trans
    (addVouchers_moves h₃)
  apply (hmoves.conserved_iff hs).mpr
  omega

/-! Liquidation. -/

def State.seizedVouchers (s : State cfg) (who borrower : AccountId) (asset : CurrencyId) (n : ℕ)
    (collateral : CurrencyId) : Except Fault (ℕ × ℕ) := do
  let s ← s.accrueInterest asset
  let s ← s.accrueInterest collateral
  let market ← s.market asset
  let amount ← liquidatedUnderlying s borrower asset n collateral market
  let s ← repayForBorrower s who borrower asset n
  let rate ← s.exchangeRateStored collateral
  let seized ← calcCollateralAmount amount rate
  let reserved ← incentiveReservedAmount market seized
  pure (seized, reserved)

theorem repayForBorrower_vouchers {liquidator borrower : AccountId}
    (h : repayForBorrower s liquidator borrower asset n = .ok s') : SameVouchers s s' := by
  obtain ⟨_, s₁, borrows, ⟨rewards, rfl, -⟩, h₁, -, -, -, rfl⟩ := repayForBorrower_ok h
  have hpaid := transfer_vouchers h₁
  exact ⟨hpaid.supply, hpaid.deposits⟩

theorem liquidate_moves {who borrower : AccountId} {collateral : CurrencyId}
    (h : liquidateBorrow s who borrower asset n collateral = .ok s') :
    ∃ seized reserved, s.seizedVouchers who borrower asset n collateral = .ok (seized, reserved) ∧
      seized ≤ u128Max ∧
      Moves s s' collateral seized (U128.wrappingSub seized reserved + reserved) := by
  obtain ⟨s₁, s₂, s₃, market, amount, h₁, h₂, -, hmarket, -, hamount, h₃, h₄⟩ :=
    liquidateBorrow_ok h
  obtain ⟨_, s₅, s₆, rate, seized, reserved, ⟨rewards, rfl, -⟩, hrate, hseized, h₅, hreserved, h₆,
    h₇⟩ := seizeCollateral_ok h₄
  have hrate₃ : s₃.exchangeRateStored collateral = .ok rate := hrate
  have hrepaid : SameVouchers s (s₃.withRewards rewards) := by
    have hsame := repayForBorrower_vouchers h₃
    exact ((accrueInterest_vouchers h₁).trans (accrueInterest_vouchers h₂)).trans
      ⟨hsame.supply, hsame.deposits⟩
  refine ⟨seized, reserved, ?_, calcCollateralAmount_le hseized, ?_⟩
  · simp only [State.seizedVouchers, bind_eq_ok, pure_eq_ok]
    exact ⟨s₁, h₁, s₂, h₂, market, hmarket, amount, hamount, s₃, h₃, rate, hrate₃, seized,
      hseized, reserved, hreserved, rfl⟩
  · have hmoves := (((hrepaid.moves collateral).trans (seizeVouchers_moves h₅)).trans
      (addVouchers_moves h₆)).trans (addVouchers_moves h₇)
    exact hmoves.net (by omega)

theorem liquidate_conserved_iff {who borrower : AccountId} {collateral : CurrencyId}
    (h : liquidateBorrow s who borrower asset n collateral = .ok s') (hs : VouchersConserved s) :
    VouchersConserved s' ↔ ∀ seized reserved,
      s.seizedVouchers who borrower asset n collateral = .ok (seized, reserved) →
        reserved ≤ seized := by
  obtain ⟨seized, reserved, hseized, hle, hmoves⟩ := liquidate_moves h
  rw [hmoves.conserved_iff hs, eq_comm, U128.wrappingSub_add_iff hle, hseized]
  constructor
  · intro hreserved seized' reserved' heq
    cases heq
    exact hreserved
  · intro hall
    exact hall seized reserved rfl

/-! The calls that move no vouchers. -/

theorem payReward_vouchers (h : s.payReward who = .ok s') : SameVouchers s s' := by
  obtain ⟨s₁, rewards, rfl | h₁, rfl⟩ := payReward_ok h
  · exact ⟨rfl, rfl⟩
  · have hpaid := transfer_vouchers h₁
    exact ⟨hpaid.supply, hpaid.deposits⟩

theorem borrow_vouchers (h : doBorrow s who asset n = .ok s') : SameVouchers s s' := by
  obtain ⟨s₁, s₂, borrows, h₁, -, -, ⟨rewards, rfl, -⟩, -, h₃⟩ := doBorrow_ok h
  have hpaid := transfer_vouchers h₃
  exact (accrueInterest_vouchers h₁).trans ⟨hpaid.supply, hpaid.deposits⟩

theorem repay_vouchers (h : doRepayBorrow s who asset n = .ok s') : SameVouchers s s' := by
  obtain ⟨s₁, borrows, h₁, -, h₂⟩ := doRepayBorrow_ok h
  obtain ⟨-, s₂, s₃, ⟨rewards, rfl, -⟩, h₃, rfl⟩ := doRepayBorrowWithAmount_ok h₂
  have hpaid := transfer_vouchers h₃
  exact (accrueInterest_vouchers h₁).trans ⟨hpaid.supply, hpaid.deposits⟩

def Call.movesVouchers : Call AccountId → Bool
  | .mint .. | .redeem .. | .redeemAll .. | .doRedeem .. | .reduceIncentiveReserves ..
  | .collateralAsset .. | .doCollateralAsset .. | .liquidateBorrow .. | .transferLendToken .. => true
  | _ => false

theorem step_sameVouchers {a : Call AccountId} (ha : a.movesVouchers = false)
    (h : step s a = .ok s') : SameVouchers s s' := by
  by_cases hadmin : a.administers = true
  · have hframe := step_administers hadmin h
    exact ⟨hframe.totalSupply, hframe.accountDeposits⟩
  · cases a with
    | addReward who n =>
      simp only [step, addReward, bind_eq_ok] at h
      obtain ⟨_, -, h⟩ := h
      exact transfer_vouchers h
    | withdrawMissingReward target n =>
      simp only [step, withdrawMissingReward, bind_eq_ok] at h
      obtain ⟨_, -, h⟩ := h
      exact transfer_vouchers h
    | updateMarketRewardSpeed asset supply borrow =>
      obtain ⟨rewards, rfl⟩ := updateMarketRewardSpeed_ok h
      exact ⟨rfl, rfl⟩
    | claimReward who =>
      simp only [step, claimReward, bind_eq_ok] at h
      obtain ⟨s₁, h₁, h₂⟩ := h
      obtain ⟨rewards, rfl⟩ := collectMarketRewards_ok h₁
      have hpaid := payReward_vouchers h₂
      exact ⟨hpaid.supply, hpaid.deposits⟩
    | claimRewardForMarket who asset =>
      simp only [step, claimRewardForMarket, bind_eq_ok] at h
      obtain ⟨s₁, h₁, h₂⟩ := h
      obtain ⟨rewards, rfl⟩ := collectMarketReward_ok h₁
      have hpaid := payReward_vouchers h₂
      exact ⟨hpaid.supply, hpaid.deposits⟩
    | borrow who asset n => exact borrow_vouchers h
    | repayBorrow who asset n => exact repay_vouchers h
    | repayBorrowAll who asset =>
      obtain ⟨s₁, borrows, h₁, -, h₂⟩ := repayBorrowAll_ok h
      exact (accrueInterest_vouchers h₁).trans (repay_vouchers h₂)
    | addReserves payer asset n =>
      obtain ⟨s₁, h₁, rfl⟩ := addReserves_ok h
      have hpaid := transfer_vouchers h₁
      exact ⟨hpaid.supply, hpaid.deposits⟩
    | reduceReserves receiver asset n =>
      obtain ⟨-, h₁⟩ := reduceReserves_ok h
      have hpaid := transfer_vouchers h₁
      exact ⟨hpaid.supply, hpaid.deposits⟩
    | accrueInterest asset => exact accrueInterest_vouchers h
    | moveAssets asset source dest n => exact transfer_vouchers h
    | _ => simp_all [Call.movesVouchers, Call.administers]

/-- A liquidation reserves no more than it takes. -/
def ReserveCovered (s : State cfg) : Call AccountId → Prop
  | .liquidateBorrow who borrower asset n collateral => ∀ seized reserved,
    s.seizedVouchers who borrower asset n collateral = .ok (seized, reserved) → reserved ≤ seized
  | _ => True

omit [DecidableEq AccountId] in
theorem incentiveReservedAmount_le {market : Market} {seized reserved : ℕ}
    (hincentive : (FixedU128.ofPermill market.liquidateIncentiveReservedFactor).inner ≤
      market.liquidateIncentive.inner)
    (h : incentiveReservedAmount market seized = .ok reserved) : reserved ≤ seized := by
  simp only [incentiveReservedAmount, FixedU128.checkedDiv, bind_eq_ok, okOr_eq_ok, pure_eq_ok,
    Option.map_eq_some_iff, U128.mulDiv_eq_some] at h
  obtain ⟨_, ⟨_, ⟨-, rfl, -⟩, rfl⟩, rfl⟩ := h
  have hquotient := Nat.div_mul_le_self (seized * FixedU128.accuracy) market.liquidateIncentive.inner
  have hfactor : seized * FixedU128.accuracy / market.liquidateIncentive.inner *
      (market.liquidateIncentiveReservedFactor.parts * 1000000000000) ≤
        seized * FixedU128.accuracy :=
    (Nat.mul_le_mul_left _ hincentive).trans hquotient
  apply Nat.div_le_of_le_mul
  simp only [FixedU128.accuracy, Permill.accuracy] at hfactor ⊢
  rw [← Nat.mul_assoc] at hfactor
  omega

theorem reserveCovered_of_incentive {who borrower : AccountId} {collateral : CurrencyId}
    {market : Market} (hmarket : s.markets.get asset = some market)
    (hincentive : (FixedU128.ofPermill market.liquidateIncentiveReservedFactor).inner ≤
      market.liquidateIncentive.inner) :
    ReserveCovered s (.liquidateBorrow who borrower asset n collateral) := by
  intro seized reserved h
  simp only [State.seizedVouchers, State.market, bind_eq_ok, okOr_eq_ok, pure_eq_ok,
    Prod.mk.injEq] at h
  obtain ⟨s₁, h₁, s₂, h₂, market', hmarket', _, -, _, -, _, -, _, -, _, hreserved, rfl, rfl⟩ := h
  rw [(accrueInterest_frame h₂).markets, (accrueInterest_frame h₁).markets, hmarket] at hmarket'
  cases hmarket'
  exact incentiveReservedAmount_le hincentive hreserved

theorem step_conserved_iff {a : Call AccountId} (h : step s a = .ok s')
    (hs : VouchersConserved s) : VouchersConserved s' ↔ ReserveCovered s a := by
  cases hmoves : a.movesVouchers with
  | false =>
    have hcovered : ReserveCovered s a := by
      cases a with
      | liquidateBorrow who borrower asset n collateral => contradiction
      | _ => trivial
    exact iff_of_true ((step_sameVouchers hmoves h).conserved hs) hcovered
  | true =>
    cases a with
    | mint who asset n => exact iff_of_true (mint_conserved h hs) trivial
    | redeem who asset n =>
      simp only [step, bind_eq_ok, pure_eq_ok] at h
      obtain ⟨_, -, ⟨paid, s₁⟩, h₁, rfl⟩ := h
      exact iff_of_true (redeem_conserved h₁ hs) trivial
    | doRedeem who asset n =>
      simp only [step, bind_eq_ok, pure_eq_ok] at h
      obtain ⟨⟨paid, s₁⟩, h₁, rfl⟩ := h
      exact iff_of_true (redeem_conserved h₁ hs) trivial
    | redeemAll who asset =>
      simp only [step, bind_eq_ok, pure_eq_ok] at h
      obtain ⟨⟨paid, s₁⟩, h₁, rfl⟩ := h
      exact iff_of_true (redeemAll_conserved h₁ hs) trivial
    | reduceIncentiveReserves receiver asset n =>
      obtain ⟨rate, v, paid, s₁, -, -, h₁, h₂⟩ := reduceIncentiveReserves_ok h
      exact iff_of_true ((transfer_vouchers h₂).conserved (redeemVoucher_conserved h₁ hs)) trivial
    | collateralAsset who asset enable =>
      exact iff_of_true (doCollateralAsset_conserved (collateralAsset_ok h).2 hs) trivial
    | doCollateralAsset who asset enable =>
      exact iff_of_true (doCollateralAsset_conserved h hs) trivial
    | liquidateBorrow who borrower asset n collateral => exact liquidate_conserved_iff h hs
    | transferLendToken token source dest n =>
      exact iff_of_true (transferLendToken_conserved h hs) trivial
    | _ => contradiction

omit [DecidableEq AccountId] in
theorem conserved_genesis (ledger : cfg.assets.Ledger) (prices : CurrencyId → Option FixedU128)
    (now block : ℕ) : VouchersConserved (genesis cfg ledger prices now block) :=
  fun _ => rfl

theorem conserved_run {as : List (Call AccountId)} (hs : VouchersConserved s)
    (has : Meets step ReserveCovered s as) : VouchersConserved (run step s as) :=
  run_invariant (fun _ _ _ hs hcovered h => (step_conserved_iff h hs).mpr hcovered) as hs has

/-- Along every run whose liquidations reserve no more than they take, the total supply is the
sum of the vouchers of all accounts, and the first liquidation that reserves more ends it. -/
theorem voucher_supply_conserved (ledger : cfg.assets.Ledger)
    (prices : CurrencyId → Option FixedU128) (now block : ℕ) (as : List (Call AccountId))
    (has : Meets step ReserveCovered (genesis cfg ledger prices now block) as) :
    let s := run step (genesis cfg ledger prices now block) as
    (∀ asset, s.totalSupply asset =
        Table.sum (fun _ d => d.voucherBalance) (s.accountDeposits asset)) ∧
      ∀ a s', step s a = .ok s' → ((∀ asset, s'.totalSupply asset =
        Table.sum (fun _ d => d.voucherBalance) (s'.accountDeposits asset)) ↔
          ReserveCovered s a) := by
  intro s
  have hs : VouchersConserved s := conserved_run (conserved_genesis ledger prices now block) has
  refine ⟨hs, ?_⟩
  intro a s' h
  exact step_conserved_iff h hs

end Operations

namespace Sample

def ksm : CurrencyId := .token .KSM

def wealth : Assets.Accounts ℕ := fun _ x => if x = 1 ∨ x = 2 ∨ x = 3 then 100000 else 0

def wealthy : State config := genesis config wealth (fun _ => some .one) 1 1

def underwater (incentive : FixedU128) : List (Call ℕ) :=
  [.addMarket dot { market with liquidateIncentive := incentive }, .activateMarket dot,
    .addMarket ksm { market with lendTokenId := .lend 1 }, .activateMarket ksm,
    .addMarketBond dot [ksm], .mint 2 dot 10000, .mint 1 ksm 10000, .collateralAsset 1 ksm true,
    .borrow 1 dot 5000, .setPrice ksm (some ⟨900000000000000000⟩)]

def liquidation : Call ℕ := .liquidateBorrow 3 1 dot 2000 ksm

end Sample

/-- With an incentive of 1.1 the liquidation takes 122200 vouchers and reserves 3332 of them. -/
theorem voucher_supply_conserved_sample :
    let s := run step Sample.wealthy (Sample.underwater ⟨1100000000000000000⟩ ++
      [Sample.liquidation])
    s.totalSupply Sample.ksm = 500000 ∧
      Table.sum (fun _ d => d.voucherBalance) (s.accountDeposits Sample.ksm) = 500000 := by
  have hcalls : ∀ a ∈ Sample.underwater ⟨1100000000000000000⟩, ∀ s : State Sample.config,
      ReserveCovered s a := by
    repeat' refine List.forall_mem_cons.mpr ⟨fun _ => trivial, ?_⟩
    exact List.forall_mem_nil _
  have hcovered : ReserveCovered
      (run step Sample.wealthy (Sample.underwater ⟨1100000000000000000⟩)) Sample.liquidation := by
    have hmarket : (run step Sample.wealthy
        (Sample.underwater ⟨1100000000000000000⟩)).markets.get Sample.dot =
          some { Sample.market with state := .active } := by
      decide +kernel
    exact reserveCovered_of_incentive hmarket (by decide)
  have hlast : Meets step ReserveCovered
      (run step Sample.wealthy (Sample.underwater ⟨1100000000000000000⟩)) [Sample.liquidation] :=
    ⟨fun _ _ => hcovered, trivial⟩
  have hmeets := meets_append (meets_of_forall _ hcalls Sample.wealthy) hlast
  have hconserved := (@voucher_supply_conserved ℕ Sample.config _ Sample.wealth
    (fun _ => some .one) 1 1 _ hmeets).1 Sample.ksm
  have hsupply : (run step Sample.wealthy (Sample.underwater ⟨1100000000000000000⟩ ++
      [Sample.liquidation])).totalSupply Sample.ksm = 500000 := by decide +kernel
  intro s
  exact ⟨hsupply, hconserved.symm.trans hsupply⟩

/-- With an incentive of 0.01 it takes 1100 vouchers, reserves 3300 and gives the liquidator the
difference modulo `2 ^ 128`. -/
theorem vouchers_created :
    let s := run step Sample.wealthy (Sample.underwater ⟨10000000000000000⟩)
    let s' := exec step s Sample.liquidation
    (step s Sample.liquidation).toBool = true ∧
      (s.totalSupply Sample.ksm, s.circulating Sample.ksm) = (500000, 500000) ∧
      (s'.depositsOf Sample.ksm 3).voucherBalance = 2 ^ 128 - 2200 ∧
      s'.totalSupply Sample.ksm = 500000 ∧
      Table.sum (fun _ d => d.voucherBalance) (s'.accountDeposits Sample.ksm) = 500000 + 2 ^ 128 :=
  ⟨by decide +kernel, by decide +kernel, by decide +kernel, by decide +kernel, by decide +kernel⟩

end Bifrost.LendMarket
