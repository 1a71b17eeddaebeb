import Bifrost.NoInterestLoans.Pallet

/-!
# What a successful call does

Each call is a list of payments and a change of storage. `step_cases` says which, call by
call, and the later files argue from it alone.
-/

namespace Bifrost.NoInterestLoans

open Result
set_option autoImplicit false

variable {AccountId : Type} {cfg : Config AccountId} {s s' : State cfg}

def settle (cfg : Config AccountId) :
    cfg.currency.Ledger → List (Payment AccountId) → Except TokenError cfg.currency.Ledger
  | L, [] => pure L
  | L, p :: ps => do
    let L ← cfg.currency.transfer L p.currency p.source p.dest p.amount
    settle cfg L ps

theorem settle_append {L L' : cfg.currency.Ledger} (ps qs : List (Payment AccountId)) :
    settle cfg L (ps ++ qs) = .ok L' ↔
      ∃ M, settle cfg L ps = .ok M ∧ settle cfg M qs = .ok L' := by
  induction ps generalizing L with
  | nil => simp [settle]
  | cons p ps ih =>
    simp only [List.cons_append, settle, bind_eq_ok, ih]
    constructor
    · rintro ⟨K, hK, M, hM, h⟩
      exact ⟨M, ⟨K, hK, hM⟩, h⟩
    · rintro ⟨M, ⟨K, hK, hM⟩, h⟩
      exact ⟨K, hK, M, hM, h⟩

theorem pay_eq_ok {p : Payment AccountId} :
    s.pay p = .ok s' ↔ ∃ L, cfg.currency.transfer s.ledger p.currency p.source p.dest p.amount =
      .ok L ∧ s' = { s with ledger := L, payments := s.payments ++ [p] } := by
  simp only [State.pay, bind_eq_ok, mapErr_eq_ok, pure_eq_ok]
  constructor
  · rintro ⟨L, hL, h⟩
    exact ⟨L, hL, h.symm⟩
  · rintro ⟨L, hL, h⟩
    exact ⟨L, hL, h.symm⟩

/-! The payments of each call. -/

def openingPayments (cfg : Config AccountId) (loanId : ℕ) (loan : LoanPosition AccountId) :
    List (Payment AccountId) :=
  [⟨.collateralIn, some loanId, loan.collateralVtoken, loan.borrower, cfg.accountId,
      loan.collateralAmount⟩,
    ⟨.loanOut, some loanId, loan.loanCurrency, cfg.accountId, loan.borrower, loan.loanAmount⟩]

def repaymentOf (cfg : Config AccountId) (loanId : ℕ) (loan : LoanPosition AccountId)
    (payer : AccountId) : Payment AccountId :=
  ⟨.repayment, some loanId, loan.loanCurrency, payer, cfg.accountId, loan.loanAmount⟩

def collateralReturn (cfg : Config AccountId) (loanId : ℕ) (loan : LoanPosition AccountId)
    (receiver : AccountId) : Payment AccountId :=
  ⟨.collateralOut, some loanId, loan.collateralVtoken, cfg.accountId, receiver,
    loan.collateralAmount⟩

def platformShare (cfg : Config AccountId) (rewards : ℕ) : ℕ :=
  cfg.stakingRewardFee.mulFloor rewards

theorem platformShare_le (cfg : Config AccountId) (rewards : ℕ) :
    platformShare cfg rewards ≤ rewards := Permill.mulFloor_le _ _

def rewardPayments (cfg : Config AccountId) (loanId : ℕ) (loan : LoanPosition AccountId)
    (rewards : ℕ) : List (Payment AccountId) :=
  if rewards = 0 then []
  else [⟨.borrowerReward, some loanId, loan.collateralVtoken, cfg.accountId, loan.borrower,
      rewards - platformShare cfg rewards⟩,
    ⟨.treasuryReward, some loanId, loan.collateralVtoken, cfg.accountId, cfg.treasuryAccount,
      platformShare cfg rewards⟩]

def rewardEvents (cfg : Config AccountId) (loanId rewards : ℕ) : List (Event AccountId) :=
  if rewards = 0 then []
  else [.rewardsClaimed loanId rewards (platformShare cfg rewards)
    (rewards - platformShare cfg rewards)]

def State.clearedRewards (s : State cfg) (loanId : ℕ) : Table ℕ ℕ :=
  if s.rewardsOf loanId = 0 then s.loanRewards else s.loanRewards.write loanId (some 0)

theorem State.clearedRewards_getD (s : State cfg) (loanId j : ℕ) :
    ((s.clearedRewards loanId).get j).getD 0 = if j = loanId then 0 else s.rewardsOf j := by
  unfold clearedRewards
  split
  · split
    · subst j
      assumption
    · rfl
  · rw [Table.get_write]
    split <;> rfl

theorem claimLoanRewards_ok {loanId : ℕ} (h : s.claimLoanRewards loanId = .ok s') :
    ∃ loan L, s.loans.get loanId = some loan ∧ loan.status = .active ∧
      settle cfg s.ledger (rewardPayments cfg loanId loan (s.rewardsOf loanId)) = .ok L ∧
      s' = { s with
        ledger := L
        loanRewards := s.clearedRewards loanId
        payments := s.payments ++ rewardPayments cfg loanId loan (s.rewardsOf loanId)
        events := s.events ++ rewardEvents cfg loanId (s.rewardsOf loanId) } := by
  simp only [State.claimLoanRewards, bind_eq_ok, okOr_eq_ok, ensure_eq_ok] at h
  obtain ⟨loan, hloan, -, hactive, h⟩ := h
  split at h
  · rename_i h0
    simp only [pure_eq_ok] at h
    subst h
    exact ⟨loan, s.ledger, hloan, hactive, by simp [rewardPayments, h0, settle],
      by simp [rewardPayments, rewardEvents, State.clearedRewards, h0]⟩
  · rename_i h0
    simp only [bind_eq_ok, pay_eq_ok, pure_eq_ok, State.depositEvent] at h
    obtain ⟨s₁, ⟨L₁, h₁, rfl⟩, s₂, ⟨L₂, h₂, rfl⟩, rfl⟩ := h
    refine ⟨loan, L₂, hloan, hactive, ?_, ?_⟩
    · simp only [rewardPayments, h0, if_false, settle, bind_eq_ok, pure_eq_ok]
      exact ⟨L₁, h₁, L₂, h₂, rfl⟩
    · simp only [rewardPayments, rewardEvents, State.clearedRewards, h0, if_false,
        List.append_assoc, List.cons_append, List.nil_append, platformShare]

def State.opened (s : State cfg) (loan : LoanPosition AccountId) [DecidableEq AccountId]
    (ids : List ℕ) (L : cfg.currency.Ledger) : State cfg :=
  { s with
    loans := s.loans.write s.nextLoanId (some loan)
    loanRewards := s.loanRewards.write s.nextLoanId (some 0)
    userLoans := Function.update s.userLoans loan.borrower (some ids)
    nextLoanId := s.nextLoanId + 1
    ledger := L
    payments := s.payments ++ openingPayments cfg s.nextLoanId loan
    events := s.events ++ [.loanCreated s.nextLoanId loan.borrower loan.collateralVtoken
      loan.collateralAmount loan.loanCurrency loan.loanAmount] }

def State.closed (s : State cfg) (loanId : ℕ) (loan : LoanPosition AccountId)
    (status : LoanStatus) (ps : List (Payment AccountId)) (e : Event AccountId)
    (L : cfg.currency.Ledger) : State cfg :=
  { s with
    loans := s.loans.write loanId (some { loan with status := status })
    loanRewards := s.clearedRewards loanId
    ledger := L
    payments := s.payments ++ ps
    events := s.events ++ (rewardEvents cfg loanId (s.rewardsOf loanId) ++ [e]) }

section Calls

variable [DecidableEq AccountId]

def newLoan (s : State cfg) (who : AccountId) (v : CurrencyId) (ca : ℕ) (lc : CurrencyId)
    (la : ℕ) : LoanPosition AccountId :=
  ⟨who, v, ca, lc, la, s.blockNumber, .active⟩

theorem createLoan_ok {who : AccountId} {v lc : CurrencyId} {ca la : ℕ}
    (h : createLoan cfg s who v ca lc la = .ok s') :
    ∃ ids L, isValidVtokenCollateral v = true ∧
      pushLoan (s.userLoans who) s.nextLoanId = .ok ids ∧ s.nextLoanId + 1 ≤ cfg.maxLoanId ∧
      settle cfg s.ledger (openingPayments cfg s.nextLoanId (newLoan s who v ca lc la)) = .ok L ∧
      s' = s.opened (newLoan s who v ca lc la) ids L := by
  simp only [createLoan, bind_eq_ok, ensure_eq_ok, pay_eq_ok, pure_eq_ok] at h
  obtain ⟨-, hv, s₁, ⟨L₁, h₁, rfl⟩, ids, hids, -, hnext, s₂, ⟨L₂, h₂, rfl⟩, rfl⟩ := h
  refine ⟨ids, L₂, hv, hids, hnext, ?_, ?_⟩
  · simp only [openingPayments, newLoan, settle, bind_eq_ok, pure_eq_ok]
    exact ⟨L₁, h₁, L₂, h₂, rfl⟩
  · simp [State.opened, State.depositEvent, openingPayments, newLoan]

def repayPayments (s : State cfg) (who : AccountId) (loanId : ℕ)
    (loan : LoanPosition AccountId) : List (Payment AccountId) :=
  repaymentOf cfg loanId loan who :: (rewardPayments cfg loanId loan (s.rewardsOf loanId) ++
    [collateralReturn cfg loanId loan who])

def liquidationPayments (s : State cfg) (liquidator : AccountId) (loanId : ℕ)
    (loan : LoanPosition AccountId) : List (Payment AccountId) :=
  rewardPayments cfg loanId loan (s.rewardsOf loanId) ++
    [repaymentOf cfg loanId loan liquidator, collateralReturn cfg loanId loan liquidator]

theorem settleRepayment_ok {s t : State cfg} {who : AccountId} {loanId : ℕ}
    {loan : LoanPosition AccountId} (h : settleRepayment cfg s who loanId = .ok (loan, t)) :
    ∃ L, s.loans.get loanId = some loan ∧ loan.status = .active ∧ loan.borrower = who ∧
      settle cfg s.ledger (repaymentOf cfg loanId loan who ::
        rewardPayments cfg loanId loan (s.rewardsOf loanId)) = .ok L ∧
      t = { s with
        ledger := L
        loanRewards := s.clearedRewards loanId
        payments := s.payments ++ (repaymentOf cfg loanId loan who ::
          rewardPayments cfg loanId loan (s.rewardsOf loanId))
        events := s.events ++ rewardEvents cfg loanId (s.rewardsOf loanId) } := by
  simp only [settleRepayment, bind_eq_ok, okOr_eq_ok, ensure_eq_ok, pay_eq_ok, pure_eq_ok,
    Prod.mk.injEq] at h
  obtain ⟨loan₁, hloan, -, hwho, -, hactive, s₁, ⟨L₁, h₁, rfl⟩, s₂, h₂, rfl, rfl⟩ := h
  obtain ⟨loan₂, L, hloan₂, -, hL, rfl⟩ := claimLoanRewards_ok h₂
  have heq : loan₂ = loan₁ := Option.some_inj.mp (hloan₂.symm.trans hloan)
  subst loan₂
  refine ⟨L, hloan, hactive, hwho, ?_, ?_⟩
  · simp only [settle, bind_eq_ok]
    exact ⟨L₁, h₁, hL⟩
  · simp only [List.append_assoc, List.cons_append, List.nil_append, repaymentOf]
    rfl

omit [DecidableEq AccountId] in
theorem settleLiquidation_ok {s t : State cfg} {liquidator : AccountId} {loanId : ℕ}
    {loan : LoanPosition AccountId}
    (h : settleLiquidation cfg s liquidator loanId = .ok (loan, t)) :
    ∃ L, s.loans.get loanId = some loan ∧ loan.status = .active ∧
      s.isLiquidatable loanId = .ok true ∧
      settle cfg s.ledger (rewardPayments cfg loanId loan (s.rewardsOf loanId) ++
        [repaymentOf cfg loanId loan liquidator]) = .ok L ∧
      t = { s with
        ledger := L
        loanRewards := s.clearedRewards loanId
        payments := s.payments ++ (rewardPayments cfg loanId loan (s.rewardsOf loanId) ++
          [repaymentOf cfg loanId loan liquidator])
        events := s.events ++ rewardEvents cfg loanId (s.rewardsOf loanId) } := by
  simp only [settleLiquidation, bind_eq_ok, okOr_eq_ok, ensure_eq_ok, pay_eq_ok, pure_eq_ok,
    Prod.mk.injEq] at h
  obtain ⟨loan₁, hloan, -, hactive, liq, hliq, -, hliqt, s₁, h₁, s₂, ⟨L₂, h₂, rfl⟩, rfl, rfl⟩ :=
    h
  obtain ⟨loan₂, L, hloan₂, -, hL, rfl⟩ := claimLoanRewards_ok h₁
  have heq : loan₂ = loan₁ := Option.some_inj.mp (hloan₂.symm.trans hloan)
  subst loan₂ liq
  refine ⟨L₂, hloan, hactive, hliq, ?_, ?_⟩
  · rw [settle_append]
    refine ⟨L, hL, ?_⟩
    simp only [settle, bind_eq_ok, pure_eq_ok]
    exact ⟨L₂, h₂, rfl⟩
  · simp [repaymentOf]

theorem repayLoan_ok {who : AccountId} {loanId : ℕ} (h : repayLoan cfg s who loanId = .ok s') :
    ∃ loan L, s.loans.get loanId = some loan ∧ loan.status = .active ∧ loan.borrower = who ∧
      settle cfg s.ledger (repayPayments s who loanId loan) = .ok L ∧
      s' = s.closed loanId loan .repaid (repayPayments s who loanId loan)
        (.loanRepaid loanId who) L := by
  simp only [repayLoan, releaseCollateral, bind_eq_ok, pay_eq_ok, pure_eq_ok] at h
  obtain ⟨⟨loan, t⟩, ht, s₁, ⟨s₂, ⟨L, hL, rfl⟩, rfl⟩, rfl⟩ := h
  obtain ⟨M, hloan, hactive, hwho, hM, rfl⟩ := settleRepayment_ok ht
  refine ⟨loan, L, hloan, hactive, hwho, ?_, ?_⟩
  · have hcons : repayPayments s who loanId loan = (repaymentOf cfg loanId loan who ::
        rewardPayments cfg loanId loan (s.rewardsOf loanId)) ++
          [collateralReturn cfg loanId loan who] := rfl
    rw [hcons, settle_append]
    refine ⟨M, hM, ?_⟩
    simp only [settle, bind_eq_ok, pure_eq_ok]
    exact ⟨L, hL, rfl⟩
  · simp [State.closed, State.depositEvent, repayPayments, collateralReturn]

omit [DecidableEq AccountId] in
theorem liquidateLoan_ok {liquidator : AccountId} {loanId : ℕ}
    (h : liquidateLoan cfg s liquidator loanId = .ok s') :
    ∃ loan L, s.loans.get loanId = some loan ∧ loan.status = .active ∧
      s.isLiquidatable loanId = .ok true ∧
      settle cfg s.ledger (liquidationPayments s liquidator loanId loan) = .ok L ∧
      s' = s.closed loanId loan .liquidated (liquidationPayments s liquidator loanId loan)
        (.loanLiquidated loanId loan.borrower liquidator loan.collateralAmount loan.loanAmount)
        L := by
  simp only [liquidateLoan, releaseCollateral, bind_eq_ok, pay_eq_ok, pure_eq_ok] at h
  obtain ⟨⟨loan, t⟩, ht, s₁, ⟨s₂, ⟨L, hL, rfl⟩, rfl⟩, rfl⟩ := h
  obtain ⟨M, hloan, hactive, hliq, hM, rfl⟩ := settleLiquidation_ok ht
  refine ⟨loan, L, hloan, hactive, hliq, ?_, ?_⟩
  · have happ : liquidationPayments s liquidator loanId loan =
        (rewardPayments cfg loanId loan (s.rewardsOf loanId) ++
          [repaymentOf cfg loanId loan liquidator]) ++
            [collateralReturn cfg loanId loan liquidator] := by
      simp [liquidationPayments]
    rw [happ, settle_append]
    refine ⟨M, hM, ?_⟩
    simp only [settle, bind_eq_ok, pure_eq_ok]
    exact ⟨L, hL, rfl⟩
  · simp [State.closed, State.depositEvent, liquidationPayments, collateralReturn]

def totalAssetValue (s : State cfg) : ℕ :=
  ((activeLoans cfg s).map (assetValue cfg s)).sum % 2 ^ 128

def State.distributed (s : State cfg) (cycleRewards : ℕ) : State cfg :=
  { s with
    loanRewards := (activeLoans cfg s).foldl (creditLoan cycleRewards (totalAssetValue s))
      s.loanRewards
    events := s.events ++ [.cycleRewardsDistributed cycleRewards (totalAssetValue s)
      (activeLoans cfg s).length] }

inductive Transition (s : State cfg) : Call AccountId → State cfg → Prop
  | opens {who v ca lc la} (ids : List ℕ) (L : cfg.currency.Ledger)
      (collateral : isValidVtokenCollateral v = true)
      (pushed : pushLoan (s.userLoans who) s.nextLoanId = .ok ids)
      (room : s.nextLoanId + 1 ≤ cfg.maxLoanId)
      (paid : settle cfg s.ledger (openingPayments cfg s.nextLoanId (newLoan s who v ca lc la)) =
        .ok L) :
      Transition s (.createLoan who v ca lc la) (s.opened (newLoan s who v ca lc la) ids L)
  | repays {who id} (loan : LoanPosition AccountId) (L : cfg.currency.Ledger)
      (stored : s.loans.get id = some loan) (active : loan.status = .active)
      (owner : loan.borrower = who)
      (paid : settle cfg s.ledger (repayPayments s who id loan) = .ok L) :
      Transition s (.repayLoan who id) (s.closed id loan .repaid (repayPayments s who id loan)
        (.loanRepaid id who) L)
  | liquidates {liquidator id} (loan : LoanPosition AccountId) (L : cfg.currency.Ledger)
      (stored : s.loans.get id = some loan) (active : loan.status = .active)
      (unhealthy : s.isLiquidatable id = .ok true)
      (paid : settle cfg s.ledger (liquidationPayments s liquidator id loan) = .ok L) :
      Transition s (.liquidateLoan liquidator id) (s.closed id loan .liquidated
        (liquidationPayments s liquidator id loan)
        (.loanLiquidated id loan.borrower liquidator loan.collateralAmount loan.loanAmount) L)
  | skips {cycleRewards} (none : activeLoans cfg s = []) :
      Transition s (.distributeCycleRewards cycleRewards) s
  | distributes {cycleRewards} (some : activeLoans cfg s ≠ []) (value : 0 < totalAssetValue s) :
      Transition s (.distributeCycleRewards cycleRewards) (s.distributed cycleRewards)
  | transfers {who dest c n} (L : cfg.currency.Ledger)
      (paid : settle cfg s.ledger [⟨.external, none, c, who, dest, n⟩] = .ok L) :
      Transition s (.transfer who dest c n)
        { s with ledger := L, payments := s.payments ++ [⟨.external, none, c, who, dest, n⟩] }
  | setsPrice {c p} :
      Transition s (.setPrice c p) { s with prices := Function.update s.prices c p }
  | passes : Transition s .nextBlock { s with blockNumber := s.blockNumber + 1 }

theorem step_transition {a : Call AccountId} (h : step cfg s a = .ok s') : Transition s a s' := by
  cases a with
  | createLoan who v ca lc la =>
    obtain ⟨ids, L, hv, hids, hroom, hL, rfl⟩ := createLoan_ok h
    exact .opens ids L hv hids hroom hL
  | repayLoan who id =>
    obtain ⟨loan, L, hloan, hactive, hwho, hL, rfl⟩ := repayLoan_ok h
    exact .repays loan L hloan hactive hwho hL
  | liquidateLoan liquidator id =>
    obtain ⟨loan, L, hloan, hactive, hliq, hL, rfl⟩ := liquidateLoan_ok h
    exact .liquidates loan L hloan hactive hliq hL
  | distributeCycleRewards r =>
    simp only [step, distributeCycleRewards] at h
    split at h
    · rename_i hnone
      cases h
      exact .skips hnone
    · rename_i hsome
      simp only [bind_eq_ok, ensure_eq_ok, pure_eq_ok] at h
      obtain ⟨-, hvalue, rfl⟩ := h
      exact .distributes hsome (Nat.pos_of_ne_zero hvalue)
  | transfer who dest c n =>
    obtain ⟨L, hL, rfl⟩ := pay_eq_ok.mp h
    refine .transfers L ?_
    simp only [settle, bind_eq_ok, pure_eq_ok]
    exact ⟨L, hL, rfl⟩
  | setPrice c p =>
    cases h
    exact .setsPrice
  | nextBlock =>
    cases h
    exact .passes

end Calls

end Bifrost.NoInterestLoans
