import Bifrost.NoInterestLoans.Transitions

/-!
# The life of a loan

Over any run of the calls a loan is active until it is closed, once and for good; its
collateral leaves and its debt comes in exactly when it is closed; `UserLoans` is the index
of `Loans` by borrower. The balances of every account are what the payments say.
-/

namespace Bifrost.NoInterestLoans

open Machine
set_option autoImplicit false

variable {AccountId : Type} {cfg : Config AccountId}

/-! Balances follow the payments. -/

section Balances

variable [DecidableEq AccountId]

def Payment.debit (p : Payment AccountId) (c : CurrencyId) (x : AccountId) : ℕ :=
  if p.currency = c ∧ p.source = x ∧ p.dest ≠ x then p.amount else 0

def Payment.credit (p : Payment AccountId) (c : CurrencyId) (x : AccountId) : ℕ :=
  if p.currency = c ∧ p.dest = x ∧ p.source ≠ x then p.amount else 0

def debits (c : CurrencyId) (x : AccountId) (ps : List (Payment AccountId)) : ℕ :=
  (ps.map fun p => p.debit c x).sum

def credits (c : CurrencyId) (x : AccountId) (ps : List (Payment AccountId)) : ℕ :=
  (ps.map fun p => p.credit c x).sum

@[simp] theorem debits_nil (c : CurrencyId) (x : AccountId) : debits c x [] = 0 := rfl
@[simp] theorem credits_nil (c : CurrencyId) (x : AccountId) : credits c x [] = 0 := rfl

@[simp] theorem debits_cons (c : CurrencyId) (x : AccountId) (p : Payment AccountId)
    (ps : List (Payment AccountId)) : debits c x (p :: ps) = p.debit c x + debits c x ps := by
  simp [debits]

@[simp] theorem credits_cons (c : CurrencyId) (x : AccountId) (p : Payment AccountId)
    (ps : List (Payment AccountId)) : credits c x (p :: ps) = p.credit c x + credits c x ps := by
  simp [credits]

@[simp] theorem debits_append (c : CurrencyId) (x : AccountId) (ps qs : List (Payment AccountId)) :
    debits c x (ps ++ qs) = debits c x ps + debits c x qs := by
  simp [debits]

@[simp] theorem credits_append (c : CurrencyId) (x : AccountId)
    (ps qs : List (Payment AccountId)) :
    credits c x (ps ++ qs) = credits c x ps + credits c x qs := by
  simp [credits]

theorem transfer_balance {L L' : cfg.currency.Ledger} {p : Payment AccountId}
    (h : cfg.currency.transfer L p.currency p.source p.dest p.amount = .ok L') (c : CurrencyId)
    (x : AccountId) :
    cfg.currency.freeBalance L' c x + p.debit c x =
      cfg.currency.freeBalance L c x + p.credit c x := by
  by_cases hself : p.source = p.dest
  · have hframe := cfg.currency.transfer_frame (d := c) (x := x) h (Or.inl hself)
    have hd : p.debit c x = 0 := if_neg fun ⟨_, hs, hn⟩ => hn (hself ▸ hs)
    have hc : p.credit c x = 0 := if_neg fun ⟨_, hs, hn⟩ => hn (hself ▸ hs)
    omega
  · by_cases hs : p.source = x
    · have hout := cfg.currency.transfer_out h hself c
      have hd : p.debit c x = if c = p.currency then p.amount else 0 := by
        have hne : p.dest ≠ x := fun hx => hself (hs.trans hx.symm)
        simp [Payment.debit, hs, hne, eq_comm]
      have hc : p.credit c x = 0 := if_neg fun ⟨_, _, hn⟩ => hn hs
      rw [← hs] at hd hc ⊢
      omega
    · by_cases hx : p.dest = x
      · have hin := cfg.currency.transfer_in h hself c
        have hd : p.debit c x = 0 := if_neg fun ⟨_, hn, _⟩ => hs hn
        have hc : p.credit c x = if c = p.currency then p.amount else 0 := by
          simp [Payment.credit, hx, hs, eq_comm]
        rw [← hx] at hd hc ⊢
        omega
      · have hframe := cfg.currency.transfer_frame (d := c) (x := x) h
          (Or.inr (Or.inr ⟨fun h => hs h.symm, fun h => hx h.symm⟩))
        have hd : p.debit c x = 0 := if_neg fun ⟨_, hn, _⟩ => hs hn
        have hc : p.credit c x = 0 := if_neg fun ⟨_, hn, _⟩ => hx hn
        omega

theorem settle_balance {L L' : cfg.currency.Ledger} {ps : List (Payment AccountId)}
    (h : settle cfg L ps = .ok L') (c : CurrencyId) (x : AccountId) :
    cfg.currency.freeBalance L' c x + debits c x ps =
      cfg.currency.freeBalance L c x + credits c x ps := by
  induction ps generalizing L with
  | nil =>
    simp only [settle, Result.pure_eq_ok] at h
    simp [h]
  | cons p ps ih =>
    simp only [settle, Result.bind_eq_ok] at h
    obtain ⟨M, hM, h⟩ := h
    have hp := transfer_balance hM c x
    have hps := ih h
    simp only [debits_cons, credits_cons]
    omega

theorem Transition.settles {s s' : State cfg} {a : Call AccountId} (h : Transition s a s') :
    ∃ ps, s'.payments = s.payments ++ ps ∧ settle cfg s.ledger ps = .ok s'.ledger := by
  cases h with
  | opens ids L _ _ _ paid => exact ⟨_, rfl, paid⟩
  | repays loan L _ _ _ paid => exact ⟨_, rfl, paid⟩
  | liquidates loan L _ _ _ paid => exact ⟨_, rfl, paid⟩
  | transfers L paid => exact ⟨_, rfl, paid⟩
  | skips _ => exact ⟨[], (List.append_nil _).symm, rfl⟩
  | distributes _ _ => exact ⟨[], (List.append_nil _).symm, rfl⟩
  | setsPrice => exact ⟨[], (List.append_nil _).symm, rfl⟩
  | passes => exact ⟨[], (List.append_nil _).symm, rfl⟩

def Balanced (L₀ : cfg.currency.Ledger) (s : State cfg) : Prop :=
  ∀ c x, cfg.currency.freeBalance s.ledger c x + debits c x s.payments =
    cfg.currency.freeBalance L₀ c x + credits c x s.payments

theorem Balanced.step {L₀ : cfg.currency.Ledger} {s s' : State cfg} {a : Call AccountId}
    (hs : Balanced L₀ s) (h : Transition s a s') : Balanced L₀ s' := by
  obtain ⟨ps, hps, hL⟩ := h.settles
  intro c x
  have h₁ := hs c x
  have h₂ := settle_balance hL c x
  rw [hps, debits_append, credits_append]
  omega

end Balances

/-! The payments made for one loan. -/

def forLoan (id : ℕ) (purpose : Purpose) (ps : List (Payment AccountId)) :
    List (Payment AccountId) :=
  ps.filter fun p => p.loanId = some id ∧ p.purpose = purpose

@[simp] theorem forLoan_append (id : ℕ) (purpose : Purpose) (ps qs : List (Payment AccountId)) :
    forLoan id purpose (ps ++ qs) = forLoan id purpose ps ++ forLoan id purpose qs :=
  List.filter_append ..

theorem forLoan_eq_nil {id : ℕ} {purpose : Purpose} {ps : List (Payment AccountId)}
    (h : ∀ p ∈ ps, p.loanId ≠ some id) : forLoan id purpose ps = [] := by
  apply List.filter_eq_nil_iff.mpr
  intro p hp
  simp [h p hp]

theorem forLoan_other {id j : ℕ} {ps : List (Payment AccountId)}
    (hps : ∀ p ∈ ps, p.loanId = some id) (hne : j ≠ id) (purpose : Purpose) :
    forLoan j purpose ps = [] := by
  apply forLoan_eq_nil
  intro p hp hj
  exact hne (Option.some_inj.mp (hj.symm.trans (hps p hp)))

theorem forLoan_rewardPayments (id j rewards : ℕ) (loan : LoanPosition AccountId)
    {purpose : Purpose} (hb : purpose ≠ .borrowerReward) (ht : purpose ≠ .treasuryReward) :
    forLoan id purpose (rewardPayments cfg j loan rewards) = [] := by
  unfold rewardPayments
  split
  · rfl
  · simp [forLoan, hb.symm, ht.symm]

/-- An active loan has been neither repaid nor released. A closed one has been once each,
by and to the one account that closed it. -/
def Accounted (cfg : Config AccountId) (ps : List (Payment AccountId)) (id : ℕ)
    (loan : LoanPosition AccountId) : Prop :=
  (loan.status = .active ∧ forLoan id .repayment ps = [] ∧ forLoan id .collateralOut ps = []) ∨
  (loan.status ≠ .active ∧ ∃ who, (loan.status = .repaid → who = loan.borrower) ∧
    forLoan id .repayment ps = [repaymentOf cfg id loan who] ∧
    forLoan id .collateralOut ps = [collateralReturn cfg id loan who])

/-- What holds of loans, index and payments in every reachable state. -/
structure Lifecycle (s : State cfg) : Prop where
  stored : ∀ id, (s.loans.get id).isSome ↔ id < s.nextLoanId
  listed_nodup : ∀ who, ((s.userLoans who).getD []).Nodup
  listed : ∀ who id, id ∈ (s.userLoans who).getD [] ↔
    ∃ loan, s.loans.get id = some loan ∧ loan.borrower = who
  known : ∀ p ∈ s.payments, ∀ id, p.loanId = some id → id < s.nextLoanId
  accounted : ∀ id loan, s.loans.get id = some loan → Accounted cfg s.payments id loan

theorem Lifecycle.fresh {s : State cfg} (hs : Lifecycle s) : s.loans.get s.nextLoanId = none := by
  have h := mt (hs.stored s.nextLoanId).mp (Nat.lt_irrefl _)
  exact Option.not_isSome_iff_eq_none.mp h

theorem Lifecycle.unpaid {s : State cfg} (hs : Lifecycle s) {id : ℕ}
    (hnone : s.loans.get id = none) (purpose : Purpose) : forLoan id purpose s.payments = [] := by
  apply forLoan_eq_nil
  intro p hp hid
  have hlt := (hs.stored id).mpr (hs.known p hp id hid)
  rw [hnone] at hlt
  contradiction

theorem lifecycle_genesis (L : cfg.currency.Ledger) (prices : CurrencyId → Option FixedU128)
    (n : ℕ) : Lifecycle (genesis cfg L prices n) where
  stored id := by simp [genesis]
  listed_nodup who := by simp [genesis]
  listed who id := by simp [genesis]
  known p hp := by simp [genesis] at hp
  accounted id loan h := by simp [genesis] at h

theorem pushLoan_ok {loans : Option (List ℕ)} {id : ℕ} {ids : List ℕ}
    (h : pushLoan loans id = .ok ids) : ids = loans.getD [] ++ [id] := by
  simp only [pushLoan, Result.bind_eq_ok, Result.ensure_eq_ok, Result.pure_eq_ok] at h
  obtain ⟨-, -, rfl⟩ := h
  rfl

theorem Lifecycle.opened [DecidableEq AccountId] {s : State cfg} (hs : Lifecycle s)
    {loan : LoanPosition AccountId} (hactive : loan.status = .active) {ids : List ℕ}
    (hids : pushLoan (s.userLoans loan.borrower) s.nextLoanId = .ok ids)
    (L : cfg.currency.Ledger) : Lifecycle (s.opened loan ids L) := by
  have hfresh : s.nextLoanId ∉ (s.userLoans loan.borrower).getD [] := by
    intro hmem
    obtain ⟨l, hl, -⟩ := (hs.listed _ _).mp hmem
    rw [hs.fresh] at hl
    contradiction
  have hids' := pushLoan_ok hids
  have hout : ∀ p ∈ openingPayments cfg s.nextLoanId loan, p.loanId = some s.nextLoanId := by
    simp [openingPayments]
  refine ⟨?_, ?_, ?_, ?_, ?_⟩
  · intro id
    simp only [State.opened, Table.get_write]
    split
    · simp [*]
    · rw [hs.stored]
      omega
  · intro who
    simp only [State.opened, Function.update_apply]
    split
    · rw [hids', Option.getD_some]
      apply List.nodup_append.mpr
      refine ⟨hs.listed_nodup _, List.nodup_singleton _, ?_⟩
      intro a ha b hb
      have hb' : b = s.nextLoanId := List.mem_singleton.mp hb
      subst b
      rintro rfl
      exact hfresh ha
    · exact hs.listed_nodup who
  · intro who id
    simp only [State.opened, Function.update_apply, Table.get_write]
    by_cases hid : id = s.nextLoanId
    · subst id
      have hother : who ≠ loan.borrower → s.nextLoanId ∉ (s.userLoans who).getD [] := by
        intro _ hmem
        obtain ⟨l, hl, -⟩ := (hs.listed _ _).mp hmem
        rw [hs.fresh] at hl
        contradiction
      by_cases hwho : who = loan.borrower
      · simp [hwho, hids']
      · simp [hwho, hother hwho, Ne.symm hwho]
    · have hl := hs.listed who id
      by_cases hwho : who = loan.borrower
      · subst who
        simp [hids', hid, hl]
      · simp [hwho, hid, hl]
  · intro p hp id hid
    rcases List.mem_append.mp hp with hp | hp
    · exact Nat.lt_succ_of_lt (hs.known p hp id hid)
    · have heq := Option.some_inj.mp ((hout p hp).symm.trans hid)
      exact heq ▸ Nat.lt_succ_self _
  · intro id l hl
    simp only [State.opened, Table.get_write] at hl
    split at hl
    · subst id
      have hl' : loan = l := Option.some_inj.mp hl
      subst l
      have hnone : ∀ purpose, forLoan s.nextLoanId purpose s.payments = [] :=
        hs.unpaid hs.fresh
      refine Or.inl ⟨hactive, ?_, ?_⟩
      · simp only [State.opened, forLoan_append, hnone, List.nil_append]
        simp [forLoan, openingPayments]
      · simp only [State.opened, forLoan_append, hnone, List.nil_append]
        simp [forLoan, openingPayments]
    · rename_i hne
      have hnone : ∀ purpose, forLoan id purpose (openingPayments cfg s.nextLoanId loan) = [] :=
        forLoan_other hout hne
      have h := hs.accounted id l hl
      simpa only [Accounted, State.opened, forLoan_append, hnone, List.append_nil] using h

theorem Lifecycle.closed {s : State cfg} (hs : Lifecycle s) {id : ℕ}
    {loan : LoanPosition AccountId} (hloan : s.loans.get id = some loan)
    (hactive : loan.status = .active) {status : LoanStatus} (hclosed : status ≠ .active)
    (who : AccountId) (hwho : status = .repaid → who = loan.borrower)
    {ps : List (Payment AccountId)} (hps : ∀ p ∈ ps, p.loanId = some id)
    (hin : forLoan id .repayment ps = [repaymentOf cfg id loan who])
    (hout : forLoan id .collateralOut ps = [collateralReturn cfg id loan who])
    (e : Event AccountId) (L : cfg.currency.Ledger) :
    Lifecycle (s.closed id loan status ps e L) := by
  refine ⟨?_, hs.listed_nodup, ?_, ?_, ?_⟩
  · intro j
    simp only [State.closed, Table.get_write]
    split
    · subst j
      have h := hs.stored id
      simpa [hloan] using h
    · exact hs.stored j
  · intro x j
    rw [show (s.closed id loan status ps e L).userLoans = s.userLoans from rfl, hs.listed]
    simp only [State.closed, Table.get_write]
    split
    · subst j
      simp [hloan]
    · rfl
  · intro p hp j hj
    rcases List.mem_append.mp hp with hp | hp
    · exact hs.known p hp j hj
    · have heq := Option.some_inj.mp ((hps p hp).symm.trans hj)
      subst j
      exact (hs.stored id).mp (by simp [hloan])
  · intro j l hl
    simp only [State.closed, Table.get_write] at hl
    split at hl
    · subst j
      have hl' := Option.some_inj.mp hl
      subst l
      rcases hs.accounted id loan hloan with ⟨_, h₁, h₂⟩ | ⟨hne, _⟩
      · refine Or.inr ⟨hclosed, who, hwho, ?_, ?_⟩
        · simp only [State.closed, forLoan_append, h₁, hin]
          rfl
        · simp only [State.closed, forLoan_append, h₂, hout]
          rfl
      · exact absurd hactive hne
    · rename_i hne
      have hnone : ∀ purpose, forLoan j purpose ps = [] := forLoan_other hps hne
      have h := hs.accounted j l hl
      simpa only [Accounted, State.closed, forLoan_append, hnone, List.append_nil] using h

theorem rewardPayments_loanId {id rewards : ℕ} {loan : LoanPosition AccountId} :
    ∀ p ∈ rewardPayments cfg id loan rewards, p.loanId = some id := by
  unfold rewardPayments
  split <;> simp

theorem repayPayments_loanId {s : State cfg} {who : AccountId} {id : ℕ}
    {loan : LoanPosition AccountId} : ∀ p ∈ repayPayments s who id loan, p.loanId = some id := by
  intro p hp
  rcases List.mem_cons.mp hp with rfl | hp
  · rfl
  · rcases List.mem_append.mp hp with hp | hp
    · exact rewardPayments_loanId p hp
    · exact List.mem_singleton.mp hp ▸ rfl

theorem liquidationPayments_loanId {s : State cfg} {who : AccountId} {id : ℕ}
    {loan : LoanPosition AccountId} :
    ∀ p ∈ liquidationPayments s who id loan, p.loanId = some id := by
  intro p hp
  rcases List.mem_append.mp hp with hp | hp
  · exact rewardPayments_loanId p hp
  · rcases List.mem_cons.mp hp with rfl | hp
    · rfl
    · exact List.mem_singleton.mp hp ▸ rfl

theorem Lifecycle.step [DecidableEq AccountId] {s s' : State cfg} {a : Call AccountId}
    (hs : Lifecycle s) (h : Transition s a s') : Lifecycle s' := by
  cases h with
  | opens ids L _ pushed _ _ => exact hs.opened rfl pushed L
  | @repays who id loan L stored active owner _ =>
    have hr : ∀ purpose, purpose ≠ .borrowerReward → purpose ≠ .treasuryReward →
        forLoan id purpose (rewardPayments cfg id loan (s.rewardsOf id)) = [] :=
      fun _ hb ht => forLoan_rewardPayments id id _ loan hb ht
    apply hs.closed stored active (by simp) who (fun _ => owner.symm)
    · exact repayPayments_loanId
    · rw [repayPayments, ← List.singleton_append, forLoan_append, forLoan_append,
        hr _ (by simp) (by simp)]
      simp [forLoan, repaymentOf, collateralReturn]
    · rw [repayPayments, ← List.singleton_append, forLoan_append, forLoan_append,
        hr _ (by simp) (by simp)]
      simp [forLoan, repaymentOf, collateralReturn]
  | @liquidates liquidator id loan L stored active _ _ =>
    have hr : ∀ purpose, purpose ≠ .borrowerReward → purpose ≠ .treasuryReward →
        forLoan id purpose (rewardPayments cfg id loan (s.rewardsOf id)) = [] :=
      fun _ hb ht => forLoan_rewardPayments id id _ loan hb ht
    apply hs.closed stored active (by simp) liquidator (by simp)
    · exact liquidationPayments_loanId
    · rw [liquidationPayments, forLoan_append, hr _ (by simp) (by simp)]
      simp [forLoan, repaymentOf, collateralReturn]
    · rw [liquidationPayments, forLoan_append, hr _ (by simp) (by simp)]
      simp [forLoan, repaymentOf, collateralReturn]
  | transfers L _ =>
    have hnone : ∀ id purpose (c : CurrencyId) (x y : AccountId) (n : ℕ),
        forLoan id purpose [⟨.external, none, c, x, y, n⟩] = [] := by
      intro id purpose c x y n
      simp [forLoan]
    refine ⟨hs.stored, hs.listed_nodup, hs.listed, ?_, ?_⟩
    · intro p hp id hid
      rcases List.mem_append.mp hp with hp | hp
      · exact hs.known p hp id hid
      · rw [List.mem_singleton.mp hp] at hid
        contradiction
    · intro id loan hloan
      have h := hs.accounted id loan hloan
      simpa only [Accounted, forLoan_append, hnone, List.append_nil] using h
  | skips _ => exact hs
  | distributes _ _ => exact ⟨hs.stored, hs.listed_nodup, hs.listed, hs.known, hs.accounted⟩
  | setsPrice => exact ⟨hs.stored, hs.listed_nodup, hs.listed, hs.known, hs.accounted⟩
  | passes => exact ⟨hs.stored, hs.listed_nodup, hs.listed, hs.known, hs.accounted⟩

/-- `loan'` is `loan` later on: only the status may differ, and not once it is closed. -/
def Follows (loan loan' : LoanPosition AccountId) : Prop :=
  loan' = { loan with status := loan'.status } ∧ (loan.status ≠ .active → loan' = loan)

theorem Follows.refl (loan : LoanPosition AccountId) : Follows loan loan := ⟨rfl, fun _ => rfl⟩

theorem Follows.trans {l₁ l₂ l₃ : LoanPosition AccountId} (h : Follows l₁ l₂)
    (h' : Follows l₂ l₃) : Follows l₁ l₃ := by
  constructor
  · rw [h'.1, h.1]
  · intro hc
    have h₂ := h.2 hc
    subst l₂
    exact h'.2 hc

section Runs

variable [DecidableEq AccountId]

theorem Transition.follows {s s' : State cfg} {a : Call AccountId} (hs : Lifecycle s)
    (h : Transition s a s') {id : ℕ} {loan : LoanPosition AccountId}
    (hloan : s.loans.get id = some loan) :
    ∃ loan', s'.loans.get id = some loan' ∧ Follows loan loan' := by
  have hclose : ∀ (j : ℕ) (l : LoanPosition AccountId) (status : LoanStatus),
      s.loans.get j = some l → l.status = .active →
      ∃ loan', (s.loans.write j (some { l with status := status })).get id = some loan' ∧
        Follows loan loan' := by
    intro j l status hl hactive
    rw [Table.get_write]
    split
    · subst j
      have heq : loan = l := Option.some_inj.mp (hloan.symm.trans hl)
      subst l
      exact ⟨_, rfl, rfl, fun hne => absurd hactive hne⟩
    · exact ⟨loan, hloan, Follows.refl loan⟩
  cases h with
  | opens ids L _ _ _ _ =>
    have hne : id ≠ s.nextLoanId := by
      rintro rfl
      rw [hs.fresh] at hloan
      contradiction
    exact ⟨loan, (Table.get_write_ne _ _ hne).trans hloan, Follows.refl loan⟩
  | repays l L stored active _ _ => exact hclose _ l .repaid stored active
  | liquidates l L stored active _ _ => exact hclose _ l .liquidated stored active
  | skips _ => exact ⟨loan, hloan, Follows.refl loan⟩
  | distributes _ _ => exact ⟨loan, hloan, Follows.refl loan⟩
  | transfers L _ => exact ⟨loan, hloan, Follows.refl loan⟩
  | setsPrice => exact ⟨loan, hloan, Follows.refl loan⟩
  | passes => exact ⟨loan, hloan, Follows.refl loan⟩

theorem lifecycle_run {s : State cfg} (hs : Lifecycle s) (as : List (Call AccountId)) :
    Lifecycle (run (step cfg) s as) :=
  run_invariant (fun _ _ _ ht _ h => ht.step (step_transition h)) as hs (meets_true as s)

theorem balanced_run {L₀ : cfg.currency.Ledger} {s : State cfg} (hs : Balanced L₀ s)
    (as : List (Call AccountId)) : Balanced L₀ (run (step cfg) s as) :=
  run_invariant (fun _ _ _ ht _ h => ht.step (step_transition h)) as hs (meets_true as s)

/-- However long the run, a loan is found again under its id and has changed at most by
being closed. -/
theorem follows_run {s : State cfg} (hs : Lifecycle s) {id : ℕ} {loan : LoanPosition AccountId}
    (hloan : s.loans.get id = some loan) (as : List (Call AccountId)) :
    ∃ loan', (run (step cfg) s as).loans.get id = some loan' ∧ Follows loan loan' := by
  have hrun : Lifecycle (run (step cfg) s as) ∧
      ∃ loan', (run (step cfg) s as).loans.get id = some loan' ∧ Follows loan loan' := by
    refine run_invariant (I := fun t : State cfg => Lifecycle t ∧
      ∃ loan', t.loans.get id = some loan' ∧ Follows loan loan') ?_ as
      ⟨hs, loan, hloan, Follows.refl loan⟩ (meets_true as s)
    rintro t a t' ⟨ht, l, hl, hf⟩ - h
    have htr := step_transition h
    obtain ⟨l', hl', hf'⟩ := htr.follows ht hl
    exact ⟨ht.step htr, l', hl', hf.trans hf'⟩
  exact hrun.2

theorem Transition.born {s s' : State cfg} {a : Call AccountId} (h : Transition s a s') {id : ℕ}
    {loan : LoanPosition AccountId} (hnone : s.loans.get id = none)
    (hsome : s'.loans.get id = some loan) : id = s.nextLoanId ∧ loan.status = .active := by
  have hclose : ∀ (j : ℕ) (l l' : LoanPosition AccountId), s.loans.get j = some l →
      (s.loans.write j (some l')).get id = some loan → False := by
    intro j l l' hl hw
    rw [Table.get_write] at hw
    split at hw
    · subst j
      rw [hl] at hnone
      contradiction
    · rw [hnone] at hw
      contradiction
  have hsame : s.loans.get id ≠ some loan := by
    rw [hnone]
    simp
  cases h with
  | opens ids L _ _ _ _ =>
    simp only [State.opened, Table.get_write] at hsome
    split at hsome
    · cases hsome
      exact ⟨by assumption, rfl⟩
    · exact absurd hsome hsame
  | repays l L stored _ _ _ => exact (hclose _ l _ stored hsome).elim
  | liquidates l L stored _ _ _ => exact (hclose _ l _ stored hsome).elim
  | skips _ => exact absurd hsome hsame
  | distributes _ _ => exact absurd hsome hsame
  | transfers L _ => exact absurd hsome hsame
  | setsPrice => exact absurd hsome hsame
  | passes => exact absurd hsome hsame

end Runs

def Call.signer : Call AccountId → Option AccountId
  | .createLoan who _ _ _ _ => some who
  | .repayLoan who _ => some who
  | .liquidateLoan liquidator _ => some liquidator
  | .transfer who _ _ _ => some who
  | .distributeCycleRewards _ | .setPrice _ _ | .nextBlock => none

/-- Repayments come from, and collateral goes to, accounts other than the pallet's. -/
def Outward (cfg : Config AccountId) (ps : List (Payment AccountId)) : Prop :=
  ∀ p ∈ ps, (p.purpose = .repayment → p.source ≠ cfg.accountId) ∧
    (p.purpose = .collateralOut → p.dest ≠ cfg.accountId)

theorem outward_append {ps qs : List (Payment AccountId)} :
    Outward cfg (ps ++ qs) ↔ Outward cfg ps ∧ Outward cfg qs := by
  simp only [Outward, List.mem_append]
  constructor
  · intro h
    exact ⟨fun p hp => h p (Or.inl hp), fun p hp => h p (Or.inr hp)⟩
  · rintro ⟨h₁, h₂⟩ p (hp | hp)
    · exact h₁ p hp
    · exact h₂ p hp

theorem outward_rewardPayments (id rewards : ℕ) (loan : LoanPosition AccountId) :
    Outward cfg (rewardPayments cfg id loan rewards) := by
  unfold rewardPayments
  split <;> simp [Outward]

theorem Transition.outward [DecidableEq AccountId] {s s' : State cfg} {a : Call AccountId}
    (h : Transition s a s') (hsigner : a.signer ≠ some cfg.accountId)
    (hs : Outward cfg s.payments) : Outward cfg s'.payments := by
  cases h with
  | opens ids L _ _ _ _ =>
    refine outward_append.mpr ⟨hs, ?_⟩
    simp [Outward, openingPayments]
  | @repays who id loan L _ _ _ _ =>
    have hne : who ≠ cfg.accountId := fun heq => hsigner (congrArg some heq)
    refine outward_append.mpr ⟨hs, ?_⟩
    rw [repayPayments, ← List.singleton_append]
    refine outward_append.mpr ⟨?_, outward_append.mpr ⟨outward_rewardPayments _ _ _, ?_⟩⟩
    · simp [Outward, repaymentOf, hne]
    · simp [Outward, collateralReturn, hne]
  | @liquidates liquidator id loan L _ _ _ _ =>
    have hne : liquidator ≠ cfg.accountId := fun heq => hsigner (congrArg some heq)
    refine outward_append.mpr ⟨hs, outward_append.mpr ⟨outward_rewardPayments _ _ _, ?_⟩⟩
    simp [Outward, repaymentOf, collateralReturn, hne]
  | transfers L _ =>
    refine outward_append.mpr ⟨hs, ?_⟩
    simp [Outward]
  | skips _ => exact hs
  | distributes _ _ => exact hs
  | setsPrice => exact hs
  | passes => exact hs

/-- Over every run from empty storage: loans open active under an id never used before; an
open loan is found under its id ever after, unchanged but for being closed at most once;
its debt is paid in and its collateral handed out once if it is closed and never before;
the index of a borrower lists exactly its loans; the ledger is the initial one moved by
the payments made; and no payment of these stays with the pallet unless it signs itself. -/
theorem loan_lifecycle [DecidableEq AccountId] (L : cfg.currency.Ledger)
    (prices : CurrencyId → Option FixedU128) (block : ℕ) (as : List (Call AccountId)) :
    let s := run (step cfg) (genesis cfg L prices block) as
    (∀ who v ca lc la s', step cfg s (.createLoan who v ca lc la) = .ok s' →
      s.loans.get s.nextLoanId = none ∧
      s'.loans.get s.nextLoanId = some (newLoan s who v ca lc la)) ∧
    (∀ a id loan, s.loans.get id = none → (exec (step cfg) s a).loans.get id = some loan →
      id = s.nextLoanId ∧ loan.status = .active) ∧
    (∀ id loan, s.loans.get id = some loan → ∀ bs,
      ∃ loan', (run (step cfg) s bs).loans.get id = some loan' ∧ Follows loan loan') ∧
    (∀ id, s.loans.get id = none → ∀ purpose, forLoan id purpose s.payments = []) ∧
    (∀ id loan, s.loans.get id = some loan → Accounted cfg s.payments id loan) ∧
    (∀ who, ((s.userLoans who).getD []).Nodup ∧ ∀ id, id ∈ (s.userLoans who).getD [] ↔
      ∃ loan, s.loans.get id = some loan ∧ loan.borrower = who) ∧
    Balanced L s ∧
    ((∀ a ∈ as, a.signer ≠ some cfg.accountId) → Outward cfg s.payments) := by
  intro s
  have hs : Lifecycle s := lifecycle_run (lifecycle_genesis L prices block) as
  refine ⟨?_, ?_, ?_, ?_, hs.accounted, ?_, ?_, ?_⟩
  · intro who v ca lc la s' h
    obtain ⟨ids, M, -, -, -, -, rfl⟩ := createLoan_ok h
    exact ⟨hs.fresh, Table.get_write_self _ _ _⟩
  · intro a id loan hnone hsome
    rcases exec_cases (step cfg) s a with h | h
    · exact (step_transition h).born hnone hsome
    · rw [h, hnone] at hsome
      contradiction
  · intro id loan hloan bs
    exact follows_run hs hloan bs
  · intro id hnone
    exact hs.unpaid hnone
  · intro who
    exact ⟨hs.listed_nodup who, hs.listed who⟩
  · apply balanced_run
    intro c x
    simp [genesis]
  · intro hsigner
    apply run_invariant (I := fun t : State cfg => Outward cfg t.payments) _ as
    · simp [genesis, Outward]
    · exact meets_of_forall as (fun a ha _ => hsigner a ha) _
    · intro t a t' ht hok h
      exact (step_transition h).outward hok ht

end Bifrost.NoInterestLoans
