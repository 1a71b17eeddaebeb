import Bifrost.NoInterestLoans.Solvency
import Mathlib.Algebra.BigOperators.Ring.List

/-!
# Cycle rewards

`distribute_cycle_rewards` credits rewards that nothing has paid in, for any origin, and
splits them by a sum that wraps. `Funded` is what it would have to check. In a run of funded
calls the claims and the open rewards stay within what was distributed, each loan claims at
most once, and the pallet account covers the open rewards beside the collateral.
-/

namespace Bifrost.NoInterestLoans

open Machine
set_option autoImplicit false

variable {AccountId : Type} {cfg : Config AccountId} {s : State cfg} {id : ℕ}
  {loan : LoanPosition AccountId} {ps : List (Payment AccountId)}

/-! What is owed, what was paid, what was distributed. -/

def State.outstanding (s : State cfg) : ℕ := s.loanRewards.sum fun _ rewards => rewards

/-- What a loan's open rewards come to in a currency; they are paid in the collateral's. -/
def State.owedBy (s : State cfg) (c : CurrencyId) (id : ℕ) (loan : LoanPosition AccountId) : ℕ :=
  if loan.collateralVtoken = c then s.rewardsOf id else 0

def State.owed (s : State cfg) (c : CurrencyId) : ℕ := s.loans.sum (s.owedBy c)

def Payment.reward (p : Payment AccountId) : ℕ :=
  if p.purpose = .borrowerReward ∨ p.purpose = .treasuryReward then p.amount else 0

def rewardsPaid (ps : List (Payment AccountId)) : ℕ := (ps.map Payment.reward).sum

def Event.distributed : Event AccountId → ℕ
  | .cycleRewardsDistributed cycleRewards _ _ => cycleRewards
  | _ => 0

/-- The `cycle_rewards` of all distributions. -/
def rewardsDistributed (es : List (Event AccountId)) : ℕ := (es.map Event.distributed).sum

theorem rewardsPaid_append (ps qs : List (Payment AccountId)) :
    rewardsPaid (ps ++ qs) = rewardsPaid ps + rewardsPaid qs := by
  simp [rewardsPaid]

theorem rewardsDistributed_append (es fs : List (Event AccountId)) :
    rewardsDistributed (es ++ fs) = rewardsDistributed es + rewardsDistributed fs := by
  simp [rewardsDistributed]

theorem rewardsPaid_rewardPayments (cfg : Config AccountId) (id rewards : ℕ)
    (loan : LoanPosition AccountId) :
    rewardsPaid (rewardPayments cfg id loan rewards) = rewards := by
  have hshare := platformShare_le cfg rewards
  unfold rewardPayments
  split
  · simp [rewardsPaid, *]
  · simp [rewardsPaid, Payment.reward]
    omega

theorem rewardsDistributed_rewardEvents (id rewards : ℕ) :
    rewardsDistributed (rewardEvents cfg id rewards) = 0 := by
  unfold rewardEvents
  split <;> simp [rewardsDistributed, Event.distributed]

/-! The table of rewards under the claims and the distribution. -/

theorem outstanding_cleared (s : State cfg) (id : ℕ) :
    (s.clearedRewards id).sum (fun _ rewards => rewards) + s.rewardsOf id = s.outstanding := by
  unfold State.clearedRewards
  split
  · rename_i h0
    rw [h0]
    rfl
  · have hw := Table.sum_write (fun _ rewards => rewards) s.loanRewards id (some 0)
    have hweight : Table.weight (fun _ rewards : ℕ => rewards) id (s.loanRewards.get id) =
        s.rewardsOf id := by
      unfold State.rewardsOf
      cases s.loanRewards.get id <;> rfl
    rw [hweight, Table.weight_some, Nat.add_zero] at hw
    exact hw

theorem saturatingAdd_le (a b : ℕ) : U128.saturatingAdd a b ≤ a + b := Nat.min_le_left _ _

theorem outstanding_credited (r total : ℕ) (es : List (ℕ × LoanPosition AccountId))
    (t : Table ℕ ℕ) :
    (es.foldl (creditLoan r total) t).sum (fun _ rewards => rewards) ≤
      t.sum (fun _ rewards => rewards) +
        (es.map fun e => loaneeShare r total e.2.collateralAmount).sum := by
  induction es generalizing t with
  | nil => exact Nat.le_refl _
  | cons e es ih =>
    have hes := ih (creditLoan r total t e)
    have hw := Table.sum_write (fun _ rewards => rewards) t e.1 (some
      (U128.saturatingAdd ((t.get e.1).getD 0) (loaneeShare r total e.2.collateralAmount)))
    have hweight : Table.weight (fun _ rewards : ℕ => rewards) e.1 (t.get e.1) =
        (t.get e.1).getD 0 := by
      cases t.get e.1 <;> rfl
    have hadd := saturatingAdd_le ((t.get e.1).getD 0)
      (loaneeShare r total e.2.collateralAmount)
    rw [hweight, Table.weight_some] at hw
    simp only [List.foldl_cons, List.map_cons, List.sum_cons]
    unfold creditLoan at hes ⊢
    omega

theorem credited_other (r total : ℕ) {es : List (ℕ × LoanPosition AccountId)} (t : Table ℕ ℕ)
    (h : id ∉ es.map Prod.fst) :
    (es.foldl (creditLoan r total) t).get id = t.get id := by
  induction es generalizing t with
  | nil => rfl
  | cons e es ih =>
    rw [List.map_cons, List.mem_cons, not_or] at h
    rw [List.foldl_cons, ih _ h.2]
    exact Table.get_write_ne _ _ h.1

theorem credited_get (r total : ℕ) {es : List (ℕ × LoanPosition AccountId)} (t : Table ℕ ℕ)
    (hnodup : (es.map Prod.fst).Nodup) {e : ℕ × LoanPosition AccountId} (h : e ∈ es) :
    (es.foldl (creditLoan r total) t).get e.1 =
      some (U128.saturatingAdd ((t.get e.1).getD 0)
        (loaneeShare r total e.2.collateralAmount)) := by
  induction es generalizing t with
  | nil => simp at h
  | cons e' es ih =>
    rw [List.map_cons, List.nodup_cons] at hnodup
    rw [List.foldl_cons]
    rcases List.mem_cons.mp h with rfl | h
    · rw [credited_other r total _ hnodup.1]
      exact Table.get_write_self _ _ _
    · have hne : e.1 ≠ e'.1 := by
        intro heq
        exact hnodup.1 (heq ▸ List.mem_map_of_mem h)
      have hget : (creditLoan r total t e').get e.1 = t.get e.1 := Table.get_write_ne _ _ hne
      rw [ih (creditLoan r total t e') hnodup.2 h, hget]

theorem credited_le (r total : ℕ) {es : List (ℕ × LoanPosition AccountId)} (t : Table ℕ ℕ)
    (hnodup : (es.map Prod.fst).Nodup)
    (h : (id, loan) ∈ es) :
    ((es.foldl (creditLoan r total) t).get id).getD 0 ≤
      (t.get id).getD 0 + loaneeShare r total loan.collateralAmount := by
  rw [credited_get r total t hnodup h]
  exact saturatingAdd_le _ _

theorem sum_div_le (xs : List ℕ) (n : ℕ) : (xs.map fun x => x / n).sum ≤ xs.sum / n := by
  induction xs with
  | nil => exact Nat.zero_le _
  | cons x xs ih =>
    rw [List.map_cons, List.sum_cons, List.sum_cons]
    exact (Nat.add_le_add_left ih _).trans Nat.div_add_div_le_add_div

theorem shares_le (r total : ℕ) (xs : List ℕ) (h : xs.sum ≤ total) :
    (xs.map fun x => loaneeShare r total x).sum ≤ r := by
  have hle : ∀ x ∈ xs, loaneeShare r total x ≤ r * x / total := by
    intro x _
    exact Nat.div_le_div_right (Nat.min_le_left _ _)
  have hsum : (xs.map fun x => r * x).sum = r * (xs.map id).sum := List.sum_map_mul_left ..
  calc (xs.map fun x => loaneeShare r total x).sum
      ≤ (xs.map fun x => r * x / total).sum := List.sum_le_sum hle
    _ = ((xs.map fun x => r * x).map fun y => y / total).sum := by
        rw [List.map_map]
        rfl
    _ ≤ (xs.map fun x => r * x).sum / total := sum_div_le _ _
    _ = r * xs.sum / total := by rw [hsum, List.map_id]
    _ ≤ r := Nat.div_le_of_le_mul (by
        rw [Nat.mul_comm total]
        exact Nat.mul_le_mul_left r h)

/-! The condition on the calls. -/

/-- The collateral and the open rewards of all active loans. -/
def State.activeValue (s : State cfg) : ℕ :=
  ((activeLoans cfg s).map fun e => e.2.collateralAmount + s.rewardsOf e.1).sum

/-- What a distribution of `cycleRewards` adds to what is owed for a loan. -/
def State.shareIn (s : State cfg) (cycleRewards : ℕ) (c : CurrencyId) (_ : ℕ)
    (loan : LoanPosition AccountId) : ℕ :=
  if loan.status = .active ∧ loan.collateralVtoken = c then
    cycleRewards * loan.collateralAmount / s.activeValue
  else 0

/-- The pallet does not sign and lends nothing that is collateral or owed; a distribution
does not overflow, and the account holds what it credits. -/
def Funded (s : State cfg) (a : Call AccountId) : Prop :=
  a.signer ≠ some cfg.accountId ∧
  match a with
  | .createLoan _ _ _ lc la => s.locked lc + s.owed lc + la ≤ s.pot lc
  | .distributeCycleRewards r => s.activeValue < 2 ^ 128 ∧
      ∀ c, s.locked c + s.owed c + s.loans.sum (s.shareIn r c) ≤ s.pot c
  | _ => True

theorem totalAssetValue_eq (h : s.activeValue < 2 ^ 128) : totalAssetValue s = s.activeValue := by
  have hmap : (activeLoans cfg s).map (assetValue cfg s) =
      (activeLoans cfg s).map fun e => e.2.collateralAmount + s.rewardsOf e.1 := by
    apply List.map_congr_left
    intro e he
    apply Nat.min_eq_left
    have hle : e.2.collateralAmount + s.rewardsOf e.1 ≤ s.activeValue :=
      List.single_le_sum (fun _ _ => Nat.zero_le _) _ (List.mem_map.mpr ⟨e, he, rfl⟩)
    unfold u128Max
    omega
  unfold totalAssetValue
  rw [hmap]
  exact Nat.mod_eq_of_lt h

theorem activeLoans_nodup (s : State cfg) : ((activeLoans cfg s).map Prod.fst).Nodup :=
  List.Nodup.sublist (List.Sublist.map _ List.filter_sublist) s.loans.keys_nodup

theorem mem_activeLoans :
    (id, loan) ∈ activeLoans cfg s ↔ s.loans.get id = some loan ∧ loan.status = .active := by
  simp [activeLoans, Table.mem_entries]

theorem outstanding_distributed (h : s.activeValue < 2 ^ 128) (r : ℕ) :
    (s.distributed r).outstanding ≤ s.outstanding + r := by
  have hcred := outstanding_credited r (totalAssetValue s) (activeLoans cfg s) s.loanRewards
  have hle : ((activeLoans cfg s).map fun e => e.2.collateralAmount).sum ≤ totalAssetValue s := by
    rw [totalAssetValue_eq h]
    apply List.sum_le_sum
    intro e _
    exact Nat.le_add_right _ _
  have hshares := shares_le r (totalAssetValue s) _ hle
  rw [List.map_map] at hshares
  exact hcred.trans (Nat.add_le_add_left hshares _)

theorem rewardsOf_distributed_le (h : s.activeValue < 2 ^ 128) (r : ℕ) (c : CurrencyId)
    (hloan : s.loans.get id = some loan) :
    (s.distributed r).owedBy c id loan ≤ s.owedBy c id loan + s.shareIn r c id loan := by
  unfold State.owedBy State.shareIn
  by_cases hc : loan.collateralVtoken = c
  · rw [if_pos hc, if_pos hc]
    by_cases hactive : loan.status = .active
    · rw [if_pos ⟨hactive, hc⟩]
      have hle := credited_le r (totalAssetValue s) s.loanRewards (activeLoans_nodup s)
        (mem_activeLoans.mpr ⟨hloan, hactive⟩)
      have hshare : loaneeShare r (totalAssetValue s) loan.collateralAmount ≤
          r * loan.collateralAmount / s.activeValue := by
        rw [totalAssetValue_eq h]
        exact Nat.div_le_div_right (Nat.min_le_left _ _)
      exact hle.trans (Nat.add_le_add_left hshare _)
    · have hnot : id ∉ (activeLoans cfg s).map Prod.fst := by
        intro hmem
        obtain ⟨⟨j, l⟩, he, rfl⟩ := List.mem_map.mp hmem
        obtain ⟨hl, hla⟩ := mem_activeLoans.mp he
        rw [hloan] at hl
        cases hl
        exact hactive hla
      have heq := credited_other r (totalAssetValue s) s.loanRewards hnot
      apply Nat.le_add_right_of_le
      exact Nat.le_of_eq (congrArg (Option.getD · 0) heq)
  · rw [if_neg hc]
    exact Nat.zero_le _

theorem owed_distributed_le (h : s.activeValue < 2 ^ 128) (r : ℕ)
    (c : CurrencyId) : (s.distributed r).owed c ≤ s.owed c + s.loans.sum (s.shareIn r c) := by
  unfold State.owed
  rw [← Table.sum_add]
  apply Table.sum_le_sum
  rintro ⟨id, loan⟩ he
  exact rewardsOf_distributed_le h r c (Table.mem_entries.mp he)

theorem owed_closed
    (hloan : s.loans.get id = some loan) (status : LoanStatus) (ps : List (Payment AccountId))
    (e : Event AccountId) (L : cfg.currency.Ledger) (c : CurrencyId) :
    (s.closed id loan status ps e L).owed c + s.owedBy c id loan = s.owed c := by
  let s' := s.closed id loan status ps e L
  have hzero : ∀ l : LoanPosition AccountId, s'.owedBy c id l = 0 := by
    intro l
    have hclear : s'.rewardsOf id = 0 := by
      rw [show s'.rewardsOf id = ((s.clearedRewards id).get id).getD 0 from rfl,
        State.clearedRewards_getD, if_pos rfl]
    unfold State.owedBy
    rw [hclear]
    split <;> rfl
  have hsame : ∀ j (l : LoanPosition AccountId), j ≠ id → s.loans.get j = some l →
      s'.owedBy c j l = s.owedBy c j l := by
    intro j l hne _
    have hclear : s'.rewardsOf j = s.rewardsOf j := by
      rw [show s'.rewardsOf j = ((s.clearedRewards id).get j).getD 0 from rfl,
        State.clearedRewards_getD, if_neg hne]
    unfold State.owedBy
    rw [hclear]
  have hoff := Table.sum_off s.loans id hsame
  have hw := Table.sum_write (s'.owedBy c) s.loans id (some { loan with status := status })
  rw [hloan, Table.weight_some, Table.weight_some, hzero] at hoff hw
  rw [hzero] at hw
  have howed : s'.owed c =
      (s.loans.write id (some { loan with status := status })).sum (s'.owedBy c) := rfl
  have howed' : s.owed c = s.loans.sum (s.owedBy c) := rfl
  change s'.owed c + s.owedBy c id loan = s.owed c
  omega

section Steps

variable [DecidableEq AccountId]

theorem owed_opened (hl : Lifecycle s) (loan : LoanPosition AccountId)
    (ids : List ℕ) (L : cfg.currency.Ledger) (c : CurrencyId) :
    (s.opened loan ids L).owed c = s.owed c := by
  let s' := s.opened loan ids L
  have hzero : s'.owedBy c s.nextLoanId loan = 0 := by
    have hnew : s'.rewardsOf s.nextLoanId = 0 := by
      rw [show s'.rewardsOf s.nextLoanId =
        ((s.loanRewards.write s.nextLoanId (some 0)).get s.nextLoanId).getD 0 from rfl,
        Table.get_write_self]
      rfl
    unfold State.owedBy
    rw [hnew]
    split <;> rfl
  have hsame : ∀ e ∈ s.loans.entries, s'.owedBy c e.1 e.2 = s.owedBy c e.1 e.2 := by
    rintro ⟨j, l⟩ he
    have hne : j ≠ s.nextLoanId := by
      rintro rfl
      have hget := Table.mem_entries.mp he
      rw [hl.fresh] at hget
      contradiction
    have hold : s'.rewardsOf j = s.rewardsOf j :=
      congrArg (Option.getD · 0) (Table.get_write_ne _ _ hne)
    simp only [State.owedBy, hold]
  have hw := Table.sum_write (s'.owedBy c) s.loans s.nextLoanId (some loan)
  rw [hl.fresh, Table.weight_none, Table.weight_some, hzero, Table.sum_congr hsame] at hw
  exact hw

theorem outstanding_opened (s : State cfg) (loan : LoanPosition AccountId) (ids : List ℕ)
    (L : cfg.currency.Ledger) : (s.opened loan ids L).outstanding ≤ s.outstanding := by
  have hw := Table.sum_write (fun _ rewards => rewards) s.loanRewards s.nextLoanId (some 0)
  rw [Table.weight_some] at hw
  exact (Nat.le_add_right _ _).trans (Nat.le_of_eq hw)

/-! The three invariants, step by step. -/

/-- What was paid and what is open stays within what was distributed. -/
def Conserved (s : State cfg) : Prop :=
  rewardsPaid s.payments + s.outstanding ≤ rewardsDistributed s.events

omit [DecidableEq AccountId] in
theorem rewardsPaid_closing {who : AccountId}
    (hps : ps = repayPayments s who id loan ∨ ps = liquidationPayments s who id loan) :
    rewardsPaid ps = s.rewardsOf id := by
  have hr := rewardsPaid_rewardPayments cfg id (s.rewardsOf id) loan
  rcases hps with rfl | rfl
  · rw [repayPayments, ← List.singleton_append, rewardsPaid_append, rewardsPaid_append, hr]
    simp [rewardsPaid, Payment.reward, repaymentOf, collateralReturn]
  · rw [liquidationPayments, rewardsPaid_append, hr]
    simp [rewardsPaid, Payment.reward, repaymentOf, collateralReturn]

omit [DecidableEq AccountId] in
theorem Conserved.closed (hs : Conserved s) (status : LoanStatus) {who : AccountId}
    (hps : ps = repayPayments s who id loan ∨ ps = liquidationPayments s who id loan)
    {e : Event AccountId} (he : e.distributed = 0) (L : cfg.currency.Ledger) :
    Conserved (s.closed id loan status ps e L) := by
  have hpaid := rewardsPaid_closing hps
  have hopen := outstanding_cleared s id
  have hevent : rewardsDistributed [e] = 0 := by simp [rewardsDistributed, he]
  unfold Conserved at hs ⊢
  change rewardsPaid (s.payments ++ ps) + (s.clearedRewards id).sum (fun _ rewards => rewards) ≤
    rewardsDistributed (s.events ++ (rewardEvents cfg id (s.rewardsOf id) ++ [e]))
  rw [rewardsPaid_append, rewardsDistributed_append, rewardsDistributed_append,
    rewardsDistributed_rewardEvents, hevent, hpaid]
  omega

theorem Conserved.step {s s' : State cfg} {a : Call AccountId} (hs : Conserved s)
    (hok : Funded s a) (h : Transition s a s') : Conserved s' := by
  cases h with
  | @opens who v ca lc la ids L _ _ _ _ =>
    have hout := outstanding_opened s (newLoan s who v ca lc la) ids L
    have hpaid : rewardsPaid (openingPayments cfg s.nextLoanId (newLoan s who v ca lc la)) = 0 := by
      simp [rewardsPaid, Payment.reward, openingPayments]
    unfold Conserved at hs ⊢
    rw [show (s.opened (newLoan s who v ca lc la) ids L).payments =
        s.payments ++ openingPayments cfg s.nextLoanId (newLoan s who v ca lc la) from rfl,
      rewardsPaid_append, hpaid]
    refine Nat.le_trans ?_ (hs.trans ?_)
    · exact Nat.add_le_add_left hout _
    · simp only [State.opened, rewardsDistributed_append]
      exact Nat.le_add_right _ _
  | repays loan L _ _ _ _ => exact hs.closed _ (Or.inl rfl) rfl L
  | liquidates loan L _ _ _ _ => exact hs.closed _ (Or.inr rfl) rfl L
  | @distributes r _ _ =>
    have hout := outstanding_distributed hok.2.1 r
    have hevent : rewardsDistributed (s.distributed r).events =
        rewardsDistributed s.events + r := by
      simp [State.distributed, rewardsDistributed, Event.distributed]
    have hpaid : rewardsPaid (s.distributed r).payments = rewardsPaid s.payments := rfl
    unfold Conserved at hs ⊢
    omega
  | @transfers who dest c n L _ =>
    have hpaid : rewardsPaid (s.payments ++ [⟨.external, none, c, who, dest, n⟩]) =
        rewardsPaid s.payments := by
      simp [rewardsPaid, Payment.reward]
    unfold Conserved at hs ⊢
    exact hpaid ▸ hs
  | skips _ => exact hs
  | setsPrice => exact hs
  | passes => exact hs

/-- The account holds the collateral of all active loans and, beside it, all open rewards. -/
def Backed (s : State cfg) : Prop := ∀ c, s.locked c + s.owed c ≤ s.pot c

theorem Backed.closed (hs : Backed s)
    (hloan : s.loans.get id = some loan) (hactive : loan.status = .active) {status : LoanStatus}
    (hclosed : status ≠ .active) {who : AccountId} (hwho : who ≠ cfg.accountId)
    {L : cfg.currency.Ledger}
    (hps : ps = repayPayments s who id loan ∨ ps = liquidationPayments s who id loan)
    (hL : settle cfg s.ledger ps = .ok L) (e : Event AccountId) :
    Backed (s.closed id loan status ps e L) := by
  intro c
  have hpot := closing_pot hwho hps hL c
  have hlocked := locked_write s c id { loan with status := status }
  rw [hloan, Table.weight_some, lockedBy_closed c id loan hclosed,
    lockedBy_active c id hactive] at hlocked
  have howed := owed_closed hloan status ps e L c
  have hc := hs c
  have hl : (s.closed id loan status ps e L).locked c =
      (s.loans.write id (some { loan with status := status })).sum (lockedBy c) := rfl
  have hp : (s.closed id loan status ps e L).pot c =
      cfg.currency.freeBalance L c cfg.accountId := rfl
  rw [State.owedBy] at howed
  split_ifs at * <;> omega

theorem Backed.step {s s' : State cfg} {a : Call AccountId} (hs : Backed s) (hl : Lifecycle s)
    (hok : Funded s a) (h : Transition s a s') : Backed s' := by
  obtain ⟨hsigner, hok⟩ := hok
  cases h with
  | @opens who v ca lc la ids L _ _ _ paid =>
    intro c
    have hwho : (newLoan s who v ca lc la).borrower ≠ cfg.accountId :=
      fun heq => hsigner (congrArg some heq)
    have hpot := opening_pot hwho paid c
    have hw := locked_write s c s.nextLoanId (newLoan s who v ca lc la)
    rw [hl.fresh, Table.weight_none, lockedBy_active c _ rfl] at hw
    have hc := hs c
    have howed := owed_opened hl (newLoan s who v ca lc la) ids L c
    have hdebt : debtIn c (newLoan s who v ca lc la) = if lc = c then la else 0 := rfl
    have hlk : (s.opened (newLoan s who v ca lc la) ids L).locked c =
        (s.loans.write s.nextLoanId (some (newLoan s who v ca lc la))).sum (lockedBy c) := rfl
    have hp : (s.opened (newLoan s who v ca lc la) ids L).pot c =
        cfg.currency.freeBalance L c cfg.accountId := rfl
    by_cases hcur : lc = c
    · subst lc
      have hok : s.locked c + s.owed c + la ≤ s.pot c := hok
      rw [if_pos rfl] at hdebt
      omega
    · rw [if_neg hcur] at hdebt
      omega
  | @repays who id loan L stored active _ paid =>
    have hwho : who ≠ cfg.accountId := fun heq => hsigner (congrArg some heq)
    exact hs.closed stored active (by simp) hwho (Or.inl rfl) paid _
  | @liquidates liquidator id loan L stored active _ paid =>
    have hwho : liquidator ≠ cfg.accountId := fun heq => hsigner (congrArg some heq)
    exact hs.closed stored active (by simp) hwho (Or.inr rfl) paid _
  | @distributes r _ _ =>
    intro c
    have howed := owed_distributed_le hok.1 r c
    have hc := hok.2 c
    have hlk : (s.distributed r).locked c = s.locked c := rfl
    have hp : (s.distributed r).pot c = s.pot c := rfl
    omega
  | transfers L paid =>
    intro c
    have hwho := fun heq => hsigner (congrArg some heq)
    exact (hs c).trans (transfer_pot hwho paid c)
  | skips _ => exact hs
  | setsPrice => exact hs
  | passes => exact hs

end Steps

/-! Each loan claims at most once. -/

/-- The claim of a loan in the log: none while it is active; afterwards the two payments of
one claim, or none, and nothing is left to claim. -/
def ClaimedOnce (s : State cfg) : Prop :=
  ∀ id loan, s.loans.get id = some loan →
    (loan.status = .active ∧ forLoan id .borrowerReward s.payments = [] ∧
      forLoan id .treasuryReward s.payments = []) ∨
    (loan.status ≠ .active ∧ s.rewardsOf id = 0 ∧ ∃ rewards,
      forLoan id .borrowerReward s.payments ++ forLoan id .treasuryReward s.payments =
        rewardPayments cfg id loan rewards)

theorem claim_of_closing {who : AccountId}
    (hps : ps = repayPayments s who id loan ∨ ps = liquidationPayments s who id loan) :
    (∀ p ∈ ps, p.loanId = some id) ∧
      forLoan id .borrowerReward ps ++ forLoan id .treasuryReward ps =
        rewardPayments cfg id loan (s.rewardsOf id) := by
  have hsplit : forLoan id .borrowerReward (rewardPayments cfg id loan (s.rewardsOf id)) ++
      forLoan id .treasuryReward (rewardPayments cfg id loan (s.rewardsOf id)) =
        rewardPayments cfg id loan (s.rewardsOf id) := by
    unfold rewardPayments
    split
    · rfl
    · simp [forLoan]
  have hother : ∀ purpose, purpose = .borrowerReward ∨ purpose = .treasuryReward →
      forLoan id purpose ps = forLoan id purpose (rewardPayments cfg id loan (s.rewardsOf id)) := by
    rintro purpose hp
    rcases hps with rfl | rfl
    · rw [repayPayments, ← List.singleton_append, forLoan_append, forLoan_append]
      rcases hp with rfl | rfl <;> simp [forLoan, repaymentOf, collateralReturn]
    · rw [liquidationPayments, forLoan_append]
      rcases hp with rfl | rfl <;> simp [forLoan, repaymentOf, collateralReturn]
  constructor
  · rcases hps with rfl | rfl
    · exact repayPayments_loanId
    · exact liquidationPayments_loanId
  · rw [hother _ (Or.inl rfl), hother _ (Or.inr rfl), hsplit]

theorem ClaimedOnce.closed (hs : ClaimedOnce s) (hloan : s.loans.get id = some loan)
    (hactive : loan.status = .active) {status : LoanStatus} (hclosed : status ≠ .active)
    {who : AccountId}
    (hps : ps = repayPayments s who id loan ∨ ps = liquidationPayments s who id loan)
    (e : Event AccountId) (L : cfg.currency.Ledger) :
    ClaimedOnce (s.closed id loan status ps e L) := by
  obtain ⟨hids, hclaim⟩ := claim_of_closing hps
  have hrewards : ∀ j, (s.closed id loan status ps e L).rewardsOf j =
      if j = id then 0 else s.rewardsOf j := fun j => State.clearedRewards_getD s id j
  intro j l hl
  rw [hrewards]
  simp only [State.closed, Table.get_write] at hl ⊢
  split at hl
  · subst j
    have hl' := Option.some_inj.mp hl
    subst l
    rcases hs id loan hloan with ⟨_, hb, ht⟩ | ⟨hne, _⟩
    · refine Or.inr ⟨hclosed, if_pos rfl, s.rewardsOf id, ?_⟩
      rw [forLoan_append, forLoan_append, hb, ht, List.nil_append, List.nil_append, hclaim]
      rfl
    · exact absurd hactive hne
  · rename_i hne
    have hnone : ∀ purpose, forLoan j purpose ps = [] := forLoan_other hids hne
    have h := hs j l hl
    simpa only [forLoan_append, hnone, List.append_nil, if_neg hne] using h

section Runs

variable [DecidableEq AccountId]

theorem ClaimedOnce.opened (hs : ClaimedOnce s) (hl : Lifecycle s)
    (hactive : loan.status = .active) (ids : List ℕ)
    (L : cfg.currency.Ledger) : ClaimedOnce (s.opened loan ids L) := by
  have hout : ∀ p ∈ openingPayments cfg s.nextLoanId loan, p.loanId = some s.nextLoanId := by
    simp [openingPayments]
  have hpurpose : ∀ id purpose, purpose = .borrowerReward ∨ purpose = .treasuryReward →
      forLoan id purpose (openingPayments cfg s.nextLoanId loan) = [] := by
    rintro id purpose (rfl | rfl) <;> simp [forLoan, openingPayments]
  intro j l hj
  simp only [State.opened, Table.get_write, forLoan_append, hpurpose _ _ (Or.inl rfl),
    hpurpose _ _ (Or.inr rfl), List.append_nil] at hj ⊢
  split at hj
  · subst j
    have hj' : loan = l := Option.some_inj.mp hj
    subst l
    have hnone : ∀ purpose, forLoan s.nextLoanId purpose s.payments = [] :=
      hl.unpaid hl.fresh
    exact Or.inl ⟨hactive, hnone _, hnone _⟩
  · rename_i hne
    have hold : ((s.loanRewards.write s.nextLoanId (some 0)).get j).getD 0 = s.rewardsOf j :=
      congrArg (Option.getD · 0) (Table.get_write_ne _ _ hne)
    have h := hs j l hj
    simp only [State.rewardsOf] at h hold ⊢
    rwa [hold]

theorem ClaimedOnce.step {s s' : State cfg} {a : Call AccountId} (hs : ClaimedOnce s)
    (hl : Lifecycle s) (h : Transition s a s') : ClaimedOnce s' := by
  cases h with
  | opens ids L _ _ _ _ => exact hs.opened hl rfl ids L
  | repays loan L stored active _ _ => exact hs.closed stored active (by simp) (Or.inl rfl) _ L
  | liquidates loan L stored active _ _ =>
    exact hs.closed stored active (by simp) (Or.inr rfl) _ L
  | @distributes r _ _ =>
    intro id loan hloan
    rcases hs id loan hloan with ha | ⟨hne, h0, hclaim⟩
    · exact Or.inl ha
    · refine Or.inr ⟨hne, ?_, hclaim⟩
      have hnot : id ∉ (activeLoans cfg s).map Prod.fst := by
        intro hmem
        obtain ⟨⟨j, l⟩, he, rfl⟩ := List.mem_map.mp hmem
        obtain ⟨hlj, hla⟩ := mem_activeLoans.mp he
        have heq : l = loan := Option.some_inj.mp (hlj.symm.trans hloan)
        subst l
        exact hne hla
      have heq := credited_other r (totalAssetValue s) s.loanRewards hnot
      exact (congrArg (Option.getD · 0) heq).trans h0
  | @transfers who dest c n L _ =>
    have hnone : ∀ id purpose, forLoan id purpose
        [(⟨.external, none, c, who, dest, n⟩ : Payment AccountId)] = [] := by
      intro id purpose
      simp [forLoan]
    intro id loan hloan
    simp only [forLoan_append, hnone, List.append_nil]
    exact hs id loan hloan
  | skips _ => exact hs
  | setsPrice => exact hs
  | passes => exact hs

/-- In every run of funded calls the rewards claimed and still open stay within what was
distributed, no loan claims twice, and the open rewards are covered beside the collateral. -/
theorem reward_conservation (L : cfg.currency.Ledger) (prices : CurrencyId → Option FixedU128)
    (block : ℕ) (as : List (Call AccountId))
    (has : Meets (step cfg) Funded (genesis cfg L prices block) as) :
    let s := run (step cfg) (genesis cfg L prices block) as
    rewardsPaid s.payments + s.outstanding ≤ rewardsDistributed s.events ∧
    ClaimedOnce s ∧
    ∀ c, s.locked c + s.owed c ≤ s.pot c := by
  intro s
  have h : Lifecycle s ∧ Conserved s ∧ ClaimedOnce s ∧ Backed s := by
    refine run_invariant (I := fun t : State cfg =>
      Lifecycle t ∧ Conserved t ∧ ClaimedOnce t ∧ Backed t) ?_ as ?_ has
    · rintro t a t' ⟨hl, hc, ho, hb⟩ hok h
      have htr := step_transition h
      exact ⟨hl.step htr, hc.step hok htr, ho.step hl htr, hb.step hl hok htr⟩
    · refine ⟨lifecycle_genesis L prices block, ?_, ?_, ?_⟩
      · exact Nat.le_refl 0
      · intro id loan hloan
        simp [genesis] at hloan
      · intro c
        exact Nat.zero_le _
  exact h.2

end Runs

theorem unused_currency {c : CurrencyId}
    (h : ∀ e ∈ s.loans.entries, e.2.collateralVtoken ≠ c) (r : ℕ) :
    s.locked c + s.owed c + s.loans.sum (s.shareIn r c) = 0 := by
  have hl : s.locked c = s.loans.sum fun _ _ => 0 :=
    Table.sum_congr fun e he => if_neg fun hn => h e he hn.2
  have ho : s.owed c = s.loans.sum fun _ _ => 0 :=
    Table.sum_congr fun e he => if_neg (h e he)
  have hr : s.loans.sum (s.shareIn r c) = s.loans.sum fun _ _ => 0 :=
    Table.sum_congr fun e he => if_neg fun hn => h e he hn.2
  rw [hl, ho, hr, Table.sum_zero]

theorem reward_conservation_sample :
    let s := run (step Sample.config) Sample.start
      [.transfer 2 0 Sample.vDOT 300, .createLoan 1 Sample.vDOT 1000 Sample.kUSD 500,
        .distributeCycleRewards 300, .repayLoan 1 0]
    rewardsPaid s.payments + s.outstanding ≤ rewardsDistributed s.events := by
  refine (@reward_conservation _ Sample.config _ Sample.balances (fun _ => some .one) 1
    [.transfer 2 0 Sample.vDOT 300, .createLoan 1 Sample.vDOT 1000 Sample.kUSD 500,
      .distributeCycleRewards 300, .repayLoan 1 0] ?_).1
  refine ⟨fun _ _ => ⟨by decide, trivial⟩, fun _ _ => ⟨by decide, by decide⟩,
    fun _ _ => ⟨by decide, by decide, ?_⟩, fun _ _ => ⟨by decide, trivial⟩, trivial⟩
  intro c
  by_cases hc : c = Sample.vDOT
  · subst c
    decide
  · refine Nat.le_trans (Nat.le_of_eq (unused_currency ?_ 300)) (Nat.zero_le _)
    intro e he
    have heq : e = (0, newLoan Sample.start 1 Sample.vDOT 1000 Sample.kUSD 500) :=
      List.mem_singleton.mp he
    subst e
    exact Ne.symm hc

/-- Anyone may distribute what was never paid in: the claim takes another loan's
collateral. -/
theorem rewards_unfunded :
    let s := run (step Sample.config) Sample.start
      [.createLoan 1 Sample.vDOT 1000 Sample.kUSD 500, .distributeCycleRewards 300]
    s.pot Sample.vDOT = 1000 ∧ s.locked Sample.vDOT = 1000 ∧ s.owed Sample.vDOT = 300 := by
  exact ⟨by decide, by decide, by decide⟩

end Bifrost.NoInterestLoans
