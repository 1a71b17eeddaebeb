import Bifrost.Lib.Pots
import Bifrost.Salp.Pallet

/-!
# The books of the funds

A fund that is withdrawn puts what it has raised into the pool, and every refund and redemption is
paid out of one fund's part. The fund under a parachain's id carries on what a failed one has
raised, so a refund of the failed one lowers both; the pool is paid once.
-/

namespace Bifrost.Salp

open Result Machine
set_option autoImplicit false

variable {AccountId : Type} {cfg : Config AccountId}

/-- The fund under an id, or a failed one under its slots. -/
inductive Record where
  | current (index : UInt32)
  | failed (index firstSlot lastSlot : UInt32)
deriving DecidableEq

/-- The fund that carries on a failed one. -/
def Record.successor : Record → Option Record
  | .current _ => none
  | .failed index _ _ => some (.current index)

/-- What the fund has raised was put into the pool. -/
def FundStatus.withdrawn : FundStatus → Bool
  | .refundWithdrew | .redeemWithdrew | .failedToContinue | .fundEnd => true
  | .ongoing | .retired | .success | .failed => false

def FundInfo.lowered (fund : FundInfo) (value : ℕ) : FundInfo :=
  { fund with raised := fund.raised - value }

/-- What can still be paid for a fund. -/
def FundInfo.payable (fund : FundInfo) : ℕ := if fund.status.withdrawn then fund.raised else 0

namespace State

variable (s : State cfg)

def record : Record → Option FundInfo
  | .current index => s.funds.get index
  | .failed index firstSlot lastSlot => s.failedFundsToRefund.get (index, firstSlot, lastSlot)

def raised (r : Record) : ℕ := ((s.record r).map FundInfo.raised).getD 0

def payable (r : Record) : ℕ := ((s.record r).map FundInfo.payable).getD 0

def found (index firstSlot lastSlot : UInt32) : Record :=
  if (s.failedFundsToRefund.get (index, firstSlot, lastSlot)).isSome then
    .failed index firstSlot lastSlot
  else .current index

end State

namespace Call

/-- The record that a call pays from, and how much. -/
def payout (s : State cfg) : Call AccountId → Option (Record × ℕ)
  | .refund _ index firstSlot lastSlot value => some (s.found index firstSlot lastSlot, value)
  | .redeem _ _ index value => some (.current index, value)
  | _ => none

/-- The fund has the slots that the call names. -/
def Names (fund : FundInfo) : Call AccountId → Prop
  | .refund _ _ firstSlot lastSlot _ => fund.firstSlot = firstSlot ∧ fund.lastSlot = lastSlot
  | _ => True

def IsEdit : Call AccountId → Prop
  | .edit .. => True
  | _ => False

end Call

/-- The state with what was withdrawn and paid for each record. -/
structure Booked (cfg : Config AccountId) where
  state : State cfg
  pots : Table Record Pot

/-- What a call books: a withdrawal all that the fund has raised, a payment its value. -/
def book (s : State cfg) (pots : Table Record Pot) (call : Call AccountId) : Table Record Pot :=
  match call with
  | .withdraw _ index => fill pots (.current index) (s.raised (.current index))
  | call =>
    match call.payout s with
    | some (r, value) => pay pots r value
    | none => pots

def bookedStep (b : Booked cfg) (call : Call AccountId) : Except Fault (Booked cfg) := do
  let state ← step b.state call
  pure ⟨state, book b.state b.pots call⟩

/-- The records are kept as the calls leave them, and the books cover them. -/
structure Booked.Kept (b : Booked cfg) : Prop where
  current_status : ∀ index fund, b.state.funds.get index = some fund →
    fund.status ≠ .failedToContinue
  failed_status : ∀ key fund, b.state.failedFundsToRefund.get key = some fund →
    fund.status = .failedToContinue
  no_pot : ∀ index fund, b.state.funds.get index = some fund → fund.status.withdrawn = false →
    b.pots.get (.current index) = none
  covered : Covered b.pots b.state.redeemPool b.state.payable

/-- The value is taken off the record, and off the one that carries it on as far as it goes. -/
structure PaidFrom (s s' : State cfg) (call : Call AccountId) (r : Record) (value : ℕ) : Prop where
  lowered : ∃ fund, s.record r = some fund ∧ call.Names fund ∧ value ≤ fund.raised ∧
    s'.record r = some (fund.lowered value)
  carried : ∀ k, r.successor = some k → ∃ fund, s.record k = some fund ∧
    s'.record k = some (fund.lowered value)
  others : ∀ k, k ≠ r → r.successor ≠ some k → s'.record k = s.record k

variable {s s' : State cfg} {index firstSlot lastSlot : UInt32} {value : ℕ} {fund : FundInfo}
  {call : Call AccountId} {b : Booked cfg} {L : cfg.currency.Ledger}

/-! What the calls do. -/

def State.paidCurrent (s : State cfg) (index : UInt32) (fund : FundInfo) (value : ℕ)
    (ledger : cfg.currency.Ledger) : State cfg :=
  { s.setFund index (some (fund.lowered value)) with redeemPool := s.redeemPool - value, ledger }

/-- A payment from a failed fund, which the fund under the id carries on. -/
def State.paidFailed (s : State cfg) (index firstSlot lastSlot : UInt32) (fund present : FundInfo)
    (value : ℕ) (ledger : cfg.currency.Ledger) : State cfg :=
  { s.paidCurrent index present value ledger with
    failedFundsToRefund := s.failedFundsToRefund.write (index, firstSlot, lastSlot)
      (some (fund.lowered value)) }

theorem payOut_ok {ledger : cfg.currency.Ledger} {who : AccountId}
    (h : s.payOut ledger who index value = .ok s') : ∃ L, s' = { s with ledger := L } := by
  simp only [State.payOut, bind_eq_ok, pure_eq_ok] at h
  obtain ⟨L, -, rfl⟩ := h
  exact ⟨L, rfl⟩

theorem redeem_ok {who : AccountId} {now : ℕ} (h : s.redeem who now index value = .ok s') :
    ∃ fund L, s.funds.get index = some fund ∧ fund.status = .redeemWithdrew ∧
      value ≤ fund.raised ∧ value ≤ s.redeemPool ∧ s' = s.paidCurrent index fund value L := by
  simp only [State.redeem, State.fund, bind_eq_ok, okOr_eq_ok, ensure_eq_ok, exists_const] at h
  obtain ⟨fund, hfund, hstatus, hraised, hpool, -, _, -, h⟩ := h
  obtain ⟨L, rfl⟩ := payOut_ok h
  exact ⟨fund, L, hfund, hstatus, hraised, hpool, rfl⟩

theorem refund_ok {who : AccountId} (h : s.refund who index firstSlot lastSlot value = .ok s')
    (hcurrent : ∀ fund, s.funds.get index = some fund → fund.status ≠ .failedToContinue)
    (hfailed : ∀ fund, s.failedFundsToRefund.get (index, firstSlot, lastSlot) = some fund →
      fund.status = .failedToContinue) :
    ∃ fund present L, s.record (s.found index firstSlot lastSlot) = some fund ∧
      s.funds.get index = some present ∧ (fund.firstSlot = firstSlot ∧ fund.lastSlot = lastSlot) ∧
      value ≤ fund.raised ∧ value ≤ s.redeemPool ∧
      (s.found index firstSlot lastSlot = .failed index firstSlot lastSlot ∧
          s' = s.paidFailed index firstSlot lastSlot fund present value L ∨
        s.found index firstSlot lastSlot = .current index ∧ fund.status = .refundWithdrew ∧
          present = fund ∧ s' = s.paidCurrent index fund value L) := by
  simp only [State.refund, bind_eq_ok, mapErr_eq_ok, ensure_eq_ok, exists_const] at h
  obtain ⟨fund, hfound, hstatus, hslots, hraised, hpool, ledger, -, present, hpresent, h⟩ := h
  simp only [State.fund, okOr_eq_ok] at hpresent
  unfold State.findFund at hfound
  unfold State.found
  cases hget : s.failedFundsToRefund.get (index, firstSlot, lastSlot) with
  | some old =>
    simp only [hget, pure_eq_ok] at hfound
    subst hfound
    rw [if_pos (hfailed old hget)] at h
    obtain ⟨L, rfl⟩ := payOut_ok h
    exact ⟨old, present, L, hget, hpresent, hslots, hraised, hpool, Or.inl ⟨rfl, rfl⟩⟩
  | none =>
    simp only [hget, okOr_eq_ok] at hfound
    have hsame : present = fund := Option.some.inj (hpresent.symm.trans hfound)
    subst hsame
    rw [if_neg (hcurrent present hpresent)] at h
    obtain ⟨L, rfl⟩ := payOut_ok h
    exact ⟨present, present, L, hpresent, hpresent, hslots, hraised, hpool,
      Or.inr ⟨rfl, hstatus.resolve_left (hcurrent present hpresent), rfl, rfl⟩⟩

theorem withdraw_ok (h : s.withdraw index = .ok s') :
    ∃ fund status, s.funds.get index = some fund ∧ fund.status.withdrawn = false ∧
      (status = .redeemWithdrew ∨ status = .refundWithdrew) ∧
      s' = { s.setFund index (some { fund with status }) with
        redeemPool := s.redeemPool + fund.raised } := by
  simp only [State.withdraw, State.fund, bind_eq_ok, okOr_eq_ok, ensure_eq_ok, exists_const,
    U128.checkedAdd_eq_some, pure_eq_ok] at h
  obtain ⟨fund, hfund, hstatus, _, ⟨rfl, -⟩, rfl⟩ := h
  refine ⟨fund, _, hfund, ?_, ?_, rfl⟩
  · rcases hstatus with hstatus | hstatus
    · rw [hstatus]; rfl
    · rw [hstatus]; rfl
  · split
    · exact Or.inl rfl
    · exact Or.inr rfl

theorem dissolve_ok (h : s.dissolve index = .ok s') :
    s'.failedFundsToRefund = s.failedFundsToRefund ∧ s'.redeemPool = s.redeemPool ∧
      (s'.funds = s.funds ∨ s'.funds = s.funds.write index none) := by
  simp only [State.dissolve, State.fund, bind_eq_ok, okOr_eq_ok, ensure_eq_ok, exists_const] at h
  obtain ⟨fund, -, -, h⟩ := h
  split at h
  · simp only [bind_eq_ok, pure_eq_ok] at h
    obtain ⟨_, -, _, -, rfl⟩ := h
    exact ⟨rfl, rfl, Or.inr rfl⟩
  · rw [pure_eq_ok] at h
    rw [← h]
    exact ⟨rfl, rfl, Or.inl rfl⟩

/-! The records after a payment. -/

theorem record_paidCurrent (s : State cfg) (index : UInt32) (fund : FundInfo) (value : ℕ)
    (L : cfg.currency.Ledger) (r : Record) : (s.paidCurrent index fund value L).record r =
      if r = .current index then some (fund.lowered value) else s.record r := by
  cases r with
  | current i =>
    simp only [State.record, State.paidCurrent, State.setFund, Table.get_write,
      Record.current.injEq]
  | failed i f l => rw [if_neg (by simp)]; rfl

theorem record_paidFailed (s : State cfg) (index firstSlot lastSlot : UInt32)
    (fund present : FundInfo) (value : ℕ) (L : cfg.currency.Ledger) (r : Record) :
    (s.paidFailed index firstSlot lastSlot fund present value L).record r =
      if r = .failed index firstSlot lastSlot then some (fund.lowered value)
      else (s.paidCurrent index present value L).record r := by
  cases r with
  | current i => rw [if_neg (by simp)]; rfl
  | failed i f l =>
    simp only [State.record, State.paidFailed, Table.get_write, Prod.mk.injEq,
      Record.failed.injEq]
    rfl

/-! Every payment is taken off its record. -/

theorem paidCurrent_paidFrom
    (hfund : s.funds.get index = some fund) (hnames : call.Names fund) (hraised : value ≤ fund.raised) :
    PaidFrom s (s.paidCurrent index fund value L) call (.current index) value where
  lowered := ⟨fund, hfund, hnames, hraised, by rw [record_paidCurrent, if_pos rfl]⟩
  carried _ hk := nomatch hk
  others k hk _ := by rw [record_paidCurrent, if_neg hk]

theorem paidFailed_paidFrom {present : FundInfo}
    (hfund : s.record (.failed index firstSlot lastSlot) = some fund)
    (hpresent : s.funds.get index = some present) (hnames : call.Names fund)
    (hraised : value ≤ fund.raised) :
    PaidFrom s (s.paidFailed index firstSlot lastSlot fund present value L) call
      (.failed index firstSlot lastSlot) value where
  lowered := ⟨fund, hfund, hnames, hraised, by rw [record_paidFailed, if_pos rfl]⟩
  carried k hk := by
    have hcurrent : k = .current index := (Option.some.inj hk).symm
    refine ⟨present, hcurrent ▸ hpresent, ?_⟩
    rw [hcurrent, record_paidFailed, if_neg (by simp), record_paidCurrent, if_pos rfl]
  others k hk hnot := by
    have hne : k ≠ .current index := fun heq => hnot (by rw [heq]; rfl)
    rw [record_paidFailed, if_neg hk, record_paidCurrent, if_neg hne]

theorem paidFrom_of_step (hkept : b.Kept) {r : Record}
    (h : step b.state call = .ok s') (hpayout : call.payout b.state = some (r, value)) :
    PaidFrom b.state s' call r value := by
  cases call with
  | refund origin index firstSlot lastSlot v =>
    simp only [step, bind_eq_ok] at h
    obtain ⟨who, -, h⟩ := h
    obtain ⟨rfl, rfl⟩ := Prod.mk.inj (Option.some.inj hpayout)
    obtain ⟨fund, present, L, hfund, hpresent, hslots, hraised, -, hcase⟩ :=
      refund_ok h (hkept.current_status index) (hkept.failed_status _)
    rcases hcase with ⟨hfound, rfl⟩ | ⟨hfound, -, rfl, rfl⟩
    · rw [hfound] at hfund ⊢
      exact paidFailed_paidFrom hfund hpresent hslots hraised
    · rw [hfound]
      exact paidCurrent_paidFrom hpresent hslots hraised
  | redeem origin now index v =>
    simp only [step, bind_eq_ok] at h
    obtain ⟨who, -, h⟩ := h
    obtain ⟨rfl, rfl⟩ := Prod.mk.inj (Option.some.inj hpayout)
    obtain ⟨fund, L, hfund, -, hraised, -, rfl⟩ := redeem_ok h
    exact paidCurrent_paidFrom hfund trivial hraised
  | fundRetire | fundEnd | edit | withdraw | dissolveRefunded | dissolve => cases hpayout

/-! The books stay covered. -/

theorem payable_of_record {r : Record} {o : Option FundInfo} (h : s.record r = o) :
    s.payable r = (o.map FundInfo.payable).getD 0 := by
  rw [State.payable, h]

theorem payable_le_raised (fund : FundInfo) : fund.payable ≤ fund.raised := by
  unfold FundInfo.payable
  split
  · exact Nat.le_refl _
  · exact Nat.zero_le _

theorem payable_lowered_le (fund : FundInfo) (value : ℕ) :
    (fund.lowered value).payable ≤ fund.payable := by
  unfold FundInfo.payable FundInfo.lowered
  split
  · exact Nat.sub_le _ _
  · exact Nat.le_refl _

theorem payable_lowered_add (hwithdrawn : fund.status.withdrawn = true) (hle : value ≤ fund.raised) :
    (fund.lowered value).payable + value = fund.payable := by
  simp only [FundInfo.payable, FundInfo.lowered, hwithdrawn, if_true]
  omega

theorem covered_of_paidFrom {r : Record}
    (hcovered : Covered b.pots b.state.redeemPool b.state.payable)
    (hpaid : PaidFrom b.state s' call r value)
    (hwithdrawn : ∀ fund, b.state.record r = some fund → fund.status.withdrawn = true) :
    Covered (pay b.pots r value) (b.state.redeemPool - value) s'.payable := by
  obtain ⟨fund, hfund, -, hle, hfund'⟩ := hpaid.lowered
  have hself := payable_lowered_add (hwithdrawn fund hfund) hle
  have hbefore : b.state.payable r = fund.payable := payable_of_record hfund
  have hafter : s'.payable r = (fund.lowered value).payable := payable_of_record hfund'
  apply hcovered.pay
  · omega
  · omega
  · intro k hk
    by_cases hcarried : r.successor = some k
    · obtain ⟨present, hpresent, hpresent'⟩ := hpaid.carried k hcarried
      rw [payable_of_record hpresent, payable_of_record hpresent']
      exact payable_lowered_le present value
    · rw [payable_of_record (hpaid.others k hk hcarried)]
      exact Nat.le_refl _

theorem kept_paidCurrent (hkept : b.Kept) (hfund : b.state.funds.get index = some fund)
    (hwithdrawn : fund.status.withdrawn = true)
    (hpaid : PaidFrom b.state (b.state.paidCurrent index fund value L) call (.current index) value) :
    Booked.Kept ⟨b.state.paidCurrent index fund value L, pay b.pots (.current index) value⟩ where
  current_status i f hf := by
    rw [State.paidCurrent, State.setFund, Table.get_write] at hf
    split at hf
    · obtain rfl := Option.some.inj hf
      exact hkept.current_status index fund hfund
    · exact hkept.current_status i f hf
  failed_status := hkept.failed_status
  no_pot i f hf hnot := by
    rw [State.paidCurrent, State.setFund, Table.get_write] at hf
    split at hf
    · obtain rfl := Option.some.inj hf
      have hboth : fund.status.withdrawn = false := hnot
      rw [hwithdrawn] at hboth
      cases hboth
    · rename_i hne
      rw [pay, Table.get_write_ne _ _ (by simpa using hne)]
      exact hkept.no_pot i f hf hnot
  covered := by
    refine covered_of_paidFrom hkept.covered hpaid ?_
    intro f hf
    rwa [← Option.some.inj (hfund.symm.trans hf)]

theorem kept_paidFailed (hkept : b.Kept) {present : FundInfo}
    (hfund : b.state.record (.failed index firstSlot lastSlot) = some fund)
    (hpresent : b.state.funds.get index = some present)
    (hpaid : PaidFrom b.state (b.state.paidFailed index firstSlot lastSlot fund present value L) call
      (.failed index firstSlot lastSlot) value) :
    Booked.Kept ⟨b.state.paidFailed index firstSlot lastSlot fund present value L,
      pay b.pots (.failed index firstSlot lastSlot) value⟩ where
  current_status i f hf := by
    rw [State.paidFailed, State.paidCurrent, State.setFund, Table.get_write] at hf
    split at hf
    · obtain rfl := Option.some.inj hf
      exact hkept.current_status index present hpresent
    · exact hkept.current_status i f hf
  failed_status key f hf := by
    rw [State.paidFailed, Table.get_write] at hf
    split at hf
    · obtain rfl := Option.some.inj hf
      exact hkept.failed_status _ fund hfund
    · exact hkept.failed_status key f hf
  no_pot i f hf hnot := by
    rw [State.paidFailed, State.paidCurrent, State.setFund, Table.get_write] at hf
    rw [pay, Table.get_write_ne _ _ (by simp)]
    split at hf
    · rename_i heq
      obtain rfl := Option.some.inj hf
      rw [heq]
      exact hkept.no_pot index present hpresent hnot
    · exact hkept.no_pot i f hf hnot
  covered := by
    refine covered_of_paidFrom hkept.covered hpaid ?_
    intro f hf
    rw [hkept.failed_status _ f hf]
    rfl

/-- A fund moves on without its raised amount being touched, and asks for no more than before. -/
theorem kept_setFund (hkept : b.Kept) {status : FundStatus}
    (hfund : b.state.funds.get index = some fund) (hstatus : status ≠ .failedToContinue)
    (hsame : status.withdrawn = fund.status.withdrawn) :
    Booked.Kept ⟨b.state.setFund index (some { fund with status }), b.pots⟩ where
  current_status i f hf := by
    rw [State.setFund, Table.get_write] at hf
    split at hf
    · obtain rfl := Option.some.inj hf
      exact hstatus
    · exact hkept.current_status i f hf
  failed_status := hkept.failed_status
  no_pot i f hf hnot := by
    rw [State.setFund, Table.get_write] at hf
    split at hf
    · rename_i heq
      obtain rfl := Option.some.inj hf
      rw [heq]
      exact hkept.no_pot index fund hfund (hsame.symm.trans hnot)
    · exact hkept.no_pot i f hf hnot
  covered := by
    apply hkept.covered.mono
    intro r
    cases r with
    | failed i f l => exact Nat.le_refl _
    | current i =>
      simp only [State.payable, State.record, State.setFund, Table.get_write]
      split
      · rename_i heq
        rw [heq, hfund]
        simp only [Option.map_some, Option.getD_some, FundInfo.payable, hsame]
        exact Nat.le_refl _
      · exact Nat.le_refl _

theorem kept_withdrawn (hkept : b.Kept) {status : FundStatus}
    (hfund : b.state.funds.get index = some fund) (hold : fund.status.withdrawn = false)
    (hstatus : status = .redeemWithdrew ∨ status = .refundWithdrew) :
    Booked.Kept ⟨{ b.state.setFund index (some { fund with status }) with
      redeemPool := b.state.redeemPool + fund.raised }, fill b.pots (.current index) fund.raised⟩ where
  current_status i f hf := by
    simp only [State.setFund, Table.get_write] at hf
    split at hf
    · obtain rfl := Option.some.inj hf
      rcases hstatus with rfl | rfl
      · exact FundStatus.noConfusion
      · exact FundStatus.noConfusion
    · exact hkept.current_status i f hf
  failed_status := hkept.failed_status
  no_pot i f hf hnot := by
    simp only [State.setFund, Table.get_write] at hf
    split at hf
    · obtain rfl := Option.some.inj hf
      rcases hstatus with rfl | rfl
      · cases hnot
      · cases hnot
    · rename_i hne
      rw [fill, Table.get_write_ne _ _ (by simpa using hne)]
      exact hkept.no_pot i f hf hnot
  covered := by
    apply hkept.covered.fill (hkept.no_pot index fund hfund hold)
    · simp only [State.payable, State.record, State.setFund, Table.get_write_self, Option.map_some,
        Option.getD_some]
      exact payable_le_raised _
    · intro r hr
      cases r with
      | failed i f l => exact Nat.le_refl _
      | current i =>
        have hne : i ≠ index := fun heq => hr (by rw [heq])
        simp only [State.payable, State.record, State.setFund, Table.get_write_ne _ _ hne]
        exact Nat.le_refl _

theorem Booked.Kept.of_fewer (hkept : b.Kept) (hpool : s'.redeemPool = b.state.redeemPool)
    (hcurrent : ∀ i f, s'.funds.get i = some f → b.state.funds.get i = some f)
    (hfailed : ∀ key f, s'.failedFundsToRefund.get key = some f →
      b.state.failedFundsToRefund.get key = some f) : Booked.Kept ⟨s', b.pots⟩ where
  current_status i f hf := hkept.current_status i f (hcurrent i f hf)
  failed_status key f hf := hkept.failed_status key f (hfailed key f hf)
  no_pot i f hf := hkept.no_pot i f (hcurrent i f hf)
  covered := by
    change Covered b.pots s'.redeemPool s'.payable
    rw [hpool]
    apply hkept.covered.mono
    intro r
    cases hr : s'.record r with
    | none => rw [payable_of_record hr]; exact Nat.zero_le _
    | some f =>
      have hbefore : b.state.record r = some f := by
        cases r with
        | current i => exact hcurrent i f hr
        | failed i first last => exact hfailed _ f hr
      rw [payable_of_record hr, payable_of_record hbefore]

theorem kept_step {b b' : Booked cfg} (hkept : b.Kept)
    (hedit : ¬call.IsEdit) (h : bookedStep b call = .ok b') : b'.Kept := by
  simp only [bookedStep, bind_eq_ok, pure_eq_ok] at h
  obtain ⟨s', h, rfl⟩ := h
  have hpaid (r : Record) (value : ℕ) (hpayout : call.payout b.state = some (r, value)) :=
    paidFrom_of_step hkept h hpayout
  cases call with
  | fundRetire origin index =>
    simp only [step, State.fundRetire, State.fund, bind_eq_ok, okOr_eq_ok, ensure_eq_ok,
      exists_const, pure_eq_ok] at h
    obtain ⟨-, -, fund, hfund, hstatus, rfl⟩ := h
    exact kept_setFund hkept hfund FundStatus.noConfusion (by rw [hstatus]; rfl)
  | fundEnd origin index =>
    simp only [step, State.fundEnd, State.fund, bind_eq_ok, okOr_eq_ok, ensure_eq_ok,
      exists_const, pure_eq_ok] at h
    obtain ⟨-, -, fund, hfund, hstatus, rfl⟩ := h
    apply kept_setFund hkept hfund FundStatus.noConfusion
    rcases hstatus with hstatus | hstatus
    · rw [hstatus]; rfl
    · rw [hstatus]; rfl
  | edit => exact absurd trivial hedit
  | withdraw origin index =>
    simp only [step, bind_eq_ok] at h
    obtain ⟨-, -, h⟩ := h
    obtain ⟨fund, status, hfund, hold, hstatus, rfl⟩ := withdraw_ok h
    have hraised : b.state.raised (.current index) = fund.raised := by
      simp only [State.raised, State.record, hfund, Option.map_some, Option.getD_some]
    simp only [book, hraised]
    exact kept_withdrawn hkept hfund hold hstatus
  | refund origin index firstSlot lastSlot value =>
    simp only [step, bind_eq_ok] at h
    obtain ⟨who, -, h⟩ := h
    obtain ⟨fund, present, L, hfund, hpresent, -, -, -, hcase⟩ :=
      refund_ok h (hkept.current_status index) (hkept.failed_status _)
    have hpaid := hpaid _ _ rfl
    simp only [book, Call.payout]
    rcases hcase with ⟨hfound, rfl⟩ | ⟨hfound, hstatus, rfl, rfl⟩
    · rw [hfound] at hfund hpaid ⊢
      exact kept_paidFailed hkept hfund hpresent hpaid
    · rw [hfound] at hpaid ⊢
      exact kept_paidCurrent hkept hpresent (by rw [hstatus]; rfl) hpaid
  | redeem origin now index value =>
    simp only [step, bind_eq_ok] at h
    obtain ⟨who, -, h⟩ := h
    obtain ⟨fund, L, hfund, hstatus, -, -, rfl⟩ := redeem_ok h
    exact kept_paidCurrent hkept hfund (by rw [hstatus]; rfl) (hpaid _ _ rfl)
  | dissolveRefunded origin index firstSlot lastSlot =>
    simp only [step, State.dissolveRefunded, bind_eq_ok, okOr_eq_ok, ensure_eq_ok, exists_const,
      pure_eq_ok] at h
    obtain ⟨-, -, fund, -, -, rfl⟩ := h
    refine hkept.of_fewer ?_ ?_ ?_
    · rfl
    · exact fun _ _ hf => hf
    · intro key f hf
      rw [Table.get_write] at hf
      split at hf
      · cases hf
      · exact hf
  | dissolve origin index =>
    simp only [step, bind_eq_ok] at h
    obtain ⟨-, -, h⟩ := h
    obtain ⟨hfailed, hpool, hfunds⟩ := dissolve_ok h
    apply hkept.of_fewer hpool
    · intro i f hf
      rcases hfunds with hsame | hgone
      · rwa [hsame] at hf
      · rw [hgone, Table.get_write] at hf
        split at hf
        · cases hf
        · exact hf
    · intro key f hf
      rwa [hfailed] at hf

/-- The pool is what was not yet paid for the withdrawn funds, none is paid more than it had raised,
and a payment is taken off its own record. -/
theorem funds_accounted {b : Booked cfg} (hkept : b.Kept) {calls : List (Call AccountId)}
    (hcalls : ∀ call ∈ calls, ¬call.IsEdit) :
    Always bookedStep (fun b => b.state.redeemPool = outstanding b.pots ∧
        ∀ r pot, b.pots.get r = some pot → pot.paid + b.state.payable r ≤ pot.put) b calls ∧
      Meets bookedStep (fun b call => ∀ s', step b.state call = .ok s' → ∀ r value,
        call.payout b.state = some (r, value) → PaidFrom b.state s' call r value) b calls := by
  have hmeets : Meets bookedStep (fun _ call => ¬call.IsEdit) b calls :=
    meets_of_forall calls (fun call hcall _ => hcalls call hcall) b
  have halways : Always bookedStep Booked.Kept b calls :=
    always_of_meets (fun _ _ _ hkept hedit h => kept_step hkept hedit h) calls hkept hmeets
  refine ⟨halways.imp fun b hkept => ⟨hkept.covered.pool_eq, hkept.covered.paid_le⟩, ?_⟩
  refine hmeets.imp_always ?_ halways
  intro b call _ hkept _ _ s' h r value hpayout
  exact paidFrom_of_step hkept h hpayout

namespace Sample

def config : Config ℕ where
  currency := Tokens.multiCurrency ℕ fun _ => 0
  ensureCanWithdraw := fun L c who n => if L c who < n then .error .balanceTooLow else .ok ()
  relayChainToken := .token .KSM
  leasePeriod := 100
  vsBondValidPeriod := 50
  removeKeysLimit := 2
  fundAccountId := fun index => 1000 + index.toNat
  treasuryAccount := 20
  buybackAccount := 21

/-- The fund of slots 1 to 8 failed, was withdrawn and continued with slots 2 to 9. -/
def continued : State config where
  funds := Table.write ∅ 3000 (some ⟨100, 1000, 2, 9, 0, .ongoing⟩)
  failedFundsToRefund := Table.write ∅ (3000, 1, 8)
    (some ⟨100, 1000, 1, 8, 0, .failedToContinue⟩)
  redeemPool := 100
  contributions := fun _ => []
  ledger := fun c who =>
    if c = .token .KSM ∧ who = 4000 ∨ c = .vsToken .KSM ∧ who = 1 ∨
      c = .vsBond .KSM 3000 1 8 ∧ who = 1 then 100 else 0

def withPot : Booked config := ⟨continued, Table.write ∅ (.failed 3000 1 8) (some ⟨100, 0⟩)⟩

def refunds : List (Call ℕ) :=
  [.refund (.signed 1) 3000 1 8 50, .refund (.signed 1) 3000 1 8 60,
    .dissolveRefunded .governance 3000 1 8]

theorem withPot_kept : withPot.Kept where
  current_status index fund h := by
    simp only [withPot, continued, Table.get_write] at h
    split at h
    · obtain rfl := Option.some.inj h
      exact FundStatus.noConfusion
    · cases h
  failed_status key fund h := by
    simp only [withPot, continued, Table.get_write] at h
    split at h
    · obtain rfl := Option.some.inj h
      rfl
    · cases h
  no_pot index fund _ _ := rfl
  covered := {
    pool_eq := rfl
    paid_le := by
      intro r pot h
      simp only [withPot, Table.get_write] at h
      split at h
      · rename_i heq
        obtain rfl := Option.some.inj h
        rw [heq]
        exact Nat.le_refl _
      · cases h
    has_pot := by
      intro r h
      cases r with
      | current index =>
        simp only [withPot, continued, State.payable, State.record, Table.get_write] at h
        split at h
        · cases h
        · cases h
      | failed index firstSlot lastSlot =>
        simp only [withPot, continued, State.payable, State.record, Table.get_write,
          Record.failed.injEq, Prod.mk.injEq] at h ⊢
        split at h
        · rename_i heq
          rw [if_pos heq]
          rfl
        · cases h }

end Sample

/-- A refund of 50, one too large, and the end of the failed fund. -/
theorem funds_accounted_sample :
    Always bookedStep (fun b => b.state.redeemPool = outstanding b.pots ∧
        ∀ r pot, b.pots.get r = some pot → pot.paid + b.state.payable r ≤ pot.put)
        Sample.withPot Sample.refunds ∧
      Meets bookedStep (fun b call => ∀ s', step b.state call = .ok s' → ∀ r value,
        call.payout b.state = some (r, value) → PaidFrom b.state s' call r value)
        Sample.withPot Sample.refunds := by
  apply funds_accounted Sample.withPot_kept
  simp [Sample.refunds, Call.IsEdit]

/-- A refund of the failed fund lowers the fund that is open under the id as well. -/
theorem refund_lowers_the_present_fund :
    ¬∀ s', step Sample.continued (.refund (.signed 1) 3000 1 8 50) = .ok s' →
      s'.raised (.failed 3000 1 8) + 50 = Sample.continued.raised (.failed 3000 1 8) ∧
        ∀ r, r ≠ .failed 3000 1 8 → s'.raised r = Sample.continued.raised r := by
  intro hclaim
  have hlowered := (hclaim _ rfl).2 (.current 3000) (by decide)
  revert hlowered
  decide

end Bifrost.Salp
