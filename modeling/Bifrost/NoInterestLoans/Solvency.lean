import Bifrost.NoInterestLoans.Lifecycle

/-!
# Collateral and the pallet account

The pallet account pools collateral, lent assets and rewards. No call checks that what it
pays out is not somebody's collateral; `Covered` is that check. A run whose calls pass it
keeps the collateral of all active loans in the account.
-/

namespace Bifrost.NoInterestLoans

open Machine
set_option autoImplicit false

variable {AccountId : Type} {cfg : Config AccountId} {loan : LoanPosition AccountId}

def State.pot (s : State cfg) (c : CurrencyId) : ℕ :=
  cfg.currency.freeBalance s.ledger c cfg.accountId

def lockedBy (c : CurrencyId) (_ : ℕ) (loan : LoanPosition AccountId) : ℕ :=
  if loan.status = .active ∧ loan.collateralVtoken = c then loan.collateralAmount else 0

def State.locked (s : State cfg) (c : CurrencyId) : ℕ := s.loans.sum (lockedBy c)

def debtIn (c : CurrencyId) (loan : LoanPosition AccountId) : ℕ :=
  if loan.loanCurrency = c then loan.loanAmount else 0

/-- The pallet does not sign, lends nothing that is collateral, and claims no reward that
collateral would have to pay for. -/
def Covered (s : State cfg) (a : Call AccountId) : Prop :=
  a.signer ≠ some cfg.accountId ∧
  match a with
  | .createLoan _ _ _ lc la => s.locked lc + la ≤ s.pot lc
  | .repayLoan _ id | .liquidateLoan _ id => ∀ loan, s.loans.get id = some loan →
      0 < s.rewardsOf id → s.locked loan.collateralVtoken + s.rewardsOf id ≤
        s.pot loan.collateralVtoken + debtIn loan.collateralVtoken loan
  | _ => True

def Solvent (s : State cfg) : Prop := ∀ c, s.locked c ≤ s.pot c

theorem locked_write (s : State cfg) (c : CurrencyId) (id : ℕ) (loan : LoanPosition AccountId) :
    (s.loans.write id (some loan)).sum (lockedBy c) +
        Table.weight (lockedBy c) id (s.loans.get id) =
      s.locked c + lockedBy c id loan :=
  Table.sum_write _ _ _ _

theorem lockedBy_closed (c : CurrencyId) (id : ℕ) (loan : LoanPosition AccountId)
    {status : LoanStatus} (h : status ≠ .active) :
    lockedBy c id { loan with status := status } = 0 := by
  simp [lockedBy, h]

theorem lockedBy_active (c : CurrencyId) (id : ℕ) (h : loan.status = .active) :
    lockedBy c id loan = if loan.collateralVtoken = c then loan.collateralAmount else 0 := by
  simp [lockedBy, h]

theorem lockedBy_le (s : State cfg) {id : ℕ}
    (h : s.loans.get id = some loan) (c : CurrencyId) : lockedBy c id loan ≤ s.locked c :=
  Table.le_sum (lockedBy c) h

section Steps

variable [DecidableEq AccountId] {s : State cfg} {L : cfg.currency.Ledger}

/-! What the payments of a call mean for the pallet account. -/

theorem rewardPayments_pot (cfg : Config AccountId) (id rewards : ℕ)
    (loan : LoanPosition AccountId) (c : CurrencyId) :
    debits c cfg.accountId (rewardPayments cfg id loan rewards) ≤
        (if loan.collateralVtoken = c then rewards else 0) ∧
      credits c cfg.accountId (rewardPayments cfg id loan rewards) = 0 := by
  have hshare := platformShare_le cfg rewards
  unfold rewardPayments
  split
  · simp
  · constructor
    · simp only [debits_cons, debits_nil, Payment.debit]
      split_ifs <;> first | omega | simp_all
    · simp [Payment.credit]

theorem repaymentOf_pot (cfg : Config AccountId) (id : ℕ) (loan : LoanPosition AccountId)
    {payer : AccountId} (h : payer ≠ cfg.accountId) (c : CurrencyId) :
    (repaymentOf cfg id loan payer).debit c cfg.accountId = 0 ∧
      (repaymentOf cfg id loan payer).credit c cfg.accountId = debtIn c loan := by
  simp [Payment.debit, Payment.credit, repaymentOf, debtIn, h]

theorem collateralReturn_pot (cfg : Config AccountId) (id : ℕ) (loan : LoanPosition AccountId)
    {receiver : AccountId} (h : receiver ≠ cfg.accountId) (c : CurrencyId) :
    (collateralReturn cfg id loan receiver).debit c cfg.accountId =
        (if loan.collateralVtoken = c then loan.collateralAmount else 0) ∧
      (collateralReturn cfg id loan receiver).credit c cfg.accountId = 0 := by
  simp [Payment.debit, Payment.credit, collateralReturn, h]

theorem closing_pot {id : ℕ} {who : AccountId}
    (hwho : who ≠ cfg.accountId) {ps : List (Payment AccountId)}
    (hps : ps = repayPayments s who id loan ∨ ps = liquidationPayments s who id loan)
    (hL : settle cfg s.ledger ps = .ok L) (c : CurrencyId) :
    s.pot c + debtIn c loan ≤ cfg.currency.freeBalance L c cfg.accountId +
      (if loan.collateralVtoken = c then s.rewardsOf id + loan.collateralAmount else 0) := by
  have hbal := settle_balance hL c cfg.accountId
  obtain ⟨hrd, hrc⟩ := rewardPayments_pot cfg id (s.rewardsOf id) loan c
  obtain ⟨hpd, hpc⟩ := repaymentOf_pot cfg id loan hwho c
  obtain ⟨hcd, hcc⟩ := collateralReturn_pot cfg id loan hwho c
  have hd : debits c cfg.accountId ps =
      debits c cfg.accountId (rewardPayments cfg id loan (s.rewardsOf id)) +
        (if loan.collateralVtoken = c then loan.collateralAmount else 0) := by
    rcases hps with rfl | rfl
    · simp only [repayPayments, debits_cons, debits_append, debits_nil, hpd, hcd]
      omega
    · simp only [liquidationPayments, debits_cons, debits_append, debits_nil, hpd, hcd]
      omega
  have hc : credits c cfg.accountId ps = debtIn c loan := by
    rcases hps with rfl | rfl
    · simp only [repayPayments, credits_cons, credits_append, credits_nil, hpc, hcc, hrc]
      omega
    · simp only [liquidationPayments, credits_cons, credits_append, credits_nil, hpc, hcc, hrc]
      omega
  unfold State.pot
  split_ifs at * <;> omega

theorem opening_pot {id : ℕ} (hwho : loan.borrower ≠ cfg.accountId)
    (hL : settle cfg s.ledger (openingPayments cfg id loan) = .ok L) (c : CurrencyId) :
    cfg.currency.freeBalance L c cfg.accountId + debtIn c loan =
      s.pot c + (if loan.collateralVtoken = c then loan.collateralAmount else 0) := by
  have hbal := settle_balance hL c cfg.accountId
  simp only [openingPayments, debits_cons, debits_nil, credits_cons, credits_nil, Payment.debit,
    Payment.credit, debtIn, State.pot] at hbal ⊢
  simpa [hwho] using hbal

theorem transfer_pot {who dest : AccountId} (hwho : who ≠ cfg.accountId) {c : CurrencyId} {n : ℕ}
    (hL : settle cfg s.ledger [⟨.external, none, c, who, dest, n⟩] = .ok L) (d : CurrencyId) :
    s.pot d ≤ cfg.currency.freeBalance L d cfg.accountId := by
  have hbal := settle_balance hL d cfg.accountId
  have hd : debits d cfg.accountId [⟨.external, none, c, who, dest, n⟩] = 0 := by
    simp [Payment.debit, hwho]
  unfold State.pot
  omega

theorem Solvent.closed (hs : Solvent s) {id : ℕ}
    (hloan : s.loans.get id = some loan) (hactive : loan.status = .active) {status : LoanStatus}
    (hclosed : status ≠ .active) {who : AccountId} (hwho : who ≠ cfg.accountId)
    (hcov : 0 < s.rewardsOf id → s.locked loan.collateralVtoken + s.rewardsOf id ≤
      s.pot loan.collateralVtoken + debtIn loan.collateralVtoken loan)
    {ps : List (Payment AccountId)}
    (hps : ps = repayPayments s who id loan ∨ ps = liquidationPayments s who id loan)
    (hL : settle cfg s.ledger ps = .ok L) (e : Event AccountId) :
    Solvent (s.closed id loan status ps e L) := by
  intro c
  have hpot := closing_pot hwho hps hL c
  have hw := locked_write s c id { loan with status := status }
  rw [hloan, Table.weight_some, lockedBy_closed c id loan hclosed,
    lockedBy_active c id hactive] at hw
  have hc := hs c
  change (s.loans.write id (some { loan with status := status })).sum (lockedBy c) ≤
    cfg.currency.freeBalance L c cfg.accountId
  by_cases hcur : loan.collateralVtoken = c
  · subst c
    simp only [if_true] at hpot hw
    rcases Nat.eq_zero_or_pos (s.rewardsOf id) with h0 | hpos
    · omega
    · have h := hcov hpos
      omega
  · simp only [hcur, if_false] at hpot hw
    omega

theorem Solvent.step {s s' : State cfg} {a : Call AccountId} (hs : Solvent s)
    (hl : Lifecycle s) (hcov : Covered s a) (h : Transition s a s') : Solvent s' := by
  obtain ⟨hsigner, hcov⟩ := hcov
  cases h with
  | @opens who v ca lc la ids L _ _ _ paid =>
    intro c
    have hwho : (newLoan s who v ca lc la).borrower ≠ cfg.accountId :=
      fun heq => hsigner (congrArg some heq)
    have hpot := opening_pot hwho paid c
    have hw := locked_write s c s.nextLoanId (newLoan s who v ca lc la)
    rw [hl.fresh, Table.weight_none, lockedBy_active c _ rfl] at hw
    have hc := hs c
    have hdebt : debtIn c (newLoan s who v ca lc la) = if lc = c then la else 0 := rfl
    change (s.loans.write s.nextLoanId (some (newLoan s who v ca lc la))).sum (lockedBy c) ≤
      cfg.currency.freeBalance L c cfg.accountId
    by_cases hcur : lc = c
    · subst lc
      have hcov : s.locked c + la ≤ s.pot c := hcov
      rw [if_pos rfl] at hdebt
      omega
    · rw [if_neg hcur] at hdebt
      omega
  | @repays who id loan L stored active _ paid =>
    have hwho : who ≠ cfg.accountId := fun heq => hsigner (congrArg some heq)
    exact hs.closed stored active (by simp) hwho (hcov loan stored) (Or.inl rfl) paid _
  | @liquidates liquidator id loan L stored active _ paid =>
    have hwho : liquidator ≠ cfg.accountId := fun heq => hsigner (congrArg some heq)
    exact hs.closed stored active (by simp) hwho (hcov loan stored) (Or.inr rfl) paid _
  | transfers L paid =>
    intro c
    have hwho := fun heq => hsigner (congrArg some heq)
    exact (hs c).trans (transfer_pot hwho paid c)
  | skips _ => exact hs
  | distributes _ _ => exact hs
  | setsPrice => exact hs
  | passes => exact hs

omit [DecidableEq AccountId] in
theorem solvent_genesis (L : cfg.currency.Ledger) (prices : CurrencyId → Option FixedU128)
    (block : ℕ) : Solvent (genesis cfg L prices block) := by
  intro c
  exact Nat.zero_le _

theorem solvent_run (hs : Solvent s) (hl : Lifecycle s)
    {as : List (Call AccountId)} (has : Meets (step cfg) Covered s as) :
    Solvent (run (step cfg) s as) := by
  have h : Lifecycle (run (step cfg) s as) ∧ Solvent (run (step cfg) s as) := by
    refine run_invariant (I := fun t : State cfg => Lifecycle t ∧ Solvent t) ?_ as ⟨hl, hs⟩ has
    rintro t a t' ⟨htl, hts⟩ hok h
    have htr := step_transition h
    exact ⟨htl.step htr, hts.step htl hok htr⟩
  exact h.2

theorem collateral_left (hs : Solvent s) {id : ℕ} (hloan : s.loans.get id = some loan)
    (hactive : loan.status = .active) {who : AccountId} (hwho : who ≠ cfg.accountId)
    (hcov : 0 < s.rewardsOf id → s.locked loan.collateralVtoken + s.rewardsOf id ≤
      s.pot loan.collateralVtoken + debtIn loan.collateralVtoken loan)
    {ps : List (Payment AccountId)}
    (hps : ps = repaymentOf cfg id loan who :: rewardPayments cfg id loan (s.rewardsOf id) ∨
      ps = rewardPayments cfg id loan (s.rewardsOf id) ++ [repaymentOf cfg id loan who])
    (hL : settle cfg s.ledger ps = .ok L) :
    loan.collateralAmount ≤ cfg.currency.freeBalance L loan.collateralVtoken cfg.accountId := by
  have hbal := settle_balance hL loan.collateralVtoken cfg.accountId
  obtain ⟨hrd, hrc⟩ := rewardPayments_pot cfg id (s.rewardsOf id) loan
    loan.collateralVtoken
  obtain ⟨hpd, hpc⟩ := repaymentOf_pot cfg id loan hwho loan.collateralVtoken
  have hle := lockedBy_le s hloan loan.collateralVtoken
  have hc := hs loan.collateralVtoken
  have hd : debits loan.collateralVtoken cfg.accountId ps ≤ s.rewardsOf id := by
    rw [if_pos rfl] at hrd
    rcases hps with rfl | rfl
    · simpa only [debits_cons, hpd, Nat.zero_add] using hrd
    · simpa only [debits_append, debits_cons, debits_nil, hpd, Nat.add_zero] using hrd
  have hk : credits loan.collateralVtoken cfg.accountId ps =
      debtIn loan.collateralVtoken loan := by
    rcases hps with rfl | rfl
    · simp only [credits_cons, hpc, hrc, Nat.add_zero]
    · simp only [credits_append, credits_cons, credits_nil, hpc, hrc, Nat.zero_add, Nat.add_zero]
  rw [lockedBy_active _ _ hactive, if_pos rfl] at hle
  unfold State.pot at hc hcov
  rcases Nat.eq_zero_or_pos (s.rewardsOf id) with h0 | hpos
  · omega
  · have h := hcov hpos
    omega

/-- In every run of covered calls the account holds the collateral of all active loans, and
the return of the collateral in a covered `repay_loan` or `liquidate_loan` does not fail for
lack of funds. -/
theorem collateral_solvency (L : cfg.currency.Ledger) (prices : CurrencyId → Option FixedU128)
    (block : ℕ) (as : List (Call AccountId))
    (has : Meets (step cfg) Covered (genesis cfg L prices block) as) :
    let s := run (step cfg) (genesis cfg L prices block) as
    (∀ c, s.locked c ≤ s.pot c) ∧
    (∀ who id loan t, Covered s (.repayLoan who id) →
      settleRepayment cfg s who id = .ok (loan, t) → ∀ dest, cfg.currency.transfer t.ledger
        loan.collateralVtoken cfg.accountId dest loan.collateralAmount ≠ .error .balanceTooLow) ∧
    (∀ liquidator id loan t, Covered s (.liquidateLoan liquidator id) →
      settleLiquidation cfg s liquidator id = .ok (loan, t) →
        ∀ dest, cfg.currency.transfer t.ledger loan.collateralVtoken cfg.accountId dest
          loan.collateralAmount ≠ .error .balanceTooLow) := by
  intro s
  have hs : Solvent s := solvent_run (solvent_genesis L prices block)
    (lifecycle_genesis L prices block) has
  refine ⟨hs, ?_, ?_⟩
  · intro who id loan t hcov h dest hlow
    obtain ⟨M, hloan, hactive, -, hM, rfl⟩ := settleRepayment_ok h
    have hwho : who ≠ cfg.accountId := fun heq => hcov.1 (congrArg some heq)
    have hle := collateral_left hs hloan hactive hwho (hcov.2 loan hloan) (Or.inl rfl) hM
    exact Nat.not_lt.mpr hle (cfg.currency.transfer_low hlow)
  · intro liquidator id loan t hcov h dest hlow
    obtain ⟨M, hloan, hactive, -, hM, rfl⟩ := settleLiquidation_ok h
    have hwho : liquidator ≠ cfg.accountId := fun heq => hcov.1 (congrArg some heq)
    have hle := collateral_left hs hloan hactive hwho (hcov.2 loan hloan) (Or.inr rfl) hM
    exact Nat.not_lt.mpr hle (cfg.currency.transfer_low hlow)

end Steps

/-! A pallet with account 0, and two holders of vDOT. -/

namespace Sample

def vDOT : CurrencyId := .vToken2 0
def kUSD : CurrencyId := .stable .KUSD

def config : Config ℕ := .runtime (Tokens.multiCurrency ℕ fun _ => 0) 0 9

/-- Accounts 1 and 2 hold vDOT, the pallet holds what it lends. -/
def balances : Tokens.Accounts ℕ := fun c x =>
  if c = vDOT ∧ (x = 1 ∨ x = 2) then 1000 else if c = kUSD ∧ x = 0 then 800 else 0

def start : State config := genesis config balances (fun _ => some .one) 1

end Sample

theorem collateral_solvency_sample :
    let s := run (step Sample.config) Sample.start
      [.createLoan 1 Sample.vDOT 1000 Sample.kUSD 500, .repayLoan 1 0]
    ∀ c, s.locked c ≤ s.pot c := by
  refine (@collateral_solvency _ Sample.config _ Sample.balances (fun _ => some .one) 1
    [.createLoan 1 Sample.vDOT 1000 Sample.kUSD 500, .repayLoan 1 0] ?_).1
  refine ⟨fun _ _ => ⟨by decide, by decide⟩, fun _ _ => ⟨by decide, ?_⟩, trivial⟩
  intro loan _ hpos
  exact absurd hpos (by decide)

/-- The second borrower's loan currency is the first one's collateral. -/
theorem collateral_drained :
    let s := run (step Sample.config) Sample.start
      [.createLoan 1 Sample.vDOT 1000 Sample.kUSD 500,
        .createLoan 2 Sample.vDOT 1 Sample.vDOT 1001]
    s.pot Sample.vDOT = 0 ∧ s.locked Sample.vDOT = 1001 ∧
      step Sample.config s (.repayLoan 1 0) = .error (.token .balanceTooLow) := by
  refine ⟨by decide, by decide, rfl⟩

end Bifrost.NoInterestLoans
