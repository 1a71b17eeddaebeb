import Bifrost.Slp.Steps

/-!
# The requests of the one-to-many ledgers

A ledger keeps its pending requests twice, as a list and as a map, next to the totals of its
delegations and of the requests. Leaving rebuilds the list and forgets the map. A message is
checked when it is sent and applied when it is confirmed; by then another request for the validator
may be pending, or its delegation may be smaller.
-/

namespace Bifrost.Slp

open Result Machine
set_option autoImplicit false

variable {AccountId : Type}

def OneToManyDelegationAction.amount : OneToManyDelegationAction → ℕ
  | .revoke amount | .decrease amount => amount

def OneToManyScheduledRequest.brief (request : OneToManyScheduledRequest AccountId) :
    MultiLocation AccountId × TimeUnit × ℕ :=
  (request.validator, request.whenExecutable, request.action.amount)

namespace OneToManyLedger

variable [DecidableEq AccountId] {l l' : OneToManyLedger AccountId} {v : MultiLocation AccountId}
  {n : ℕ} {t : Except Fault TimeUnit} {entry : ParachainStakingLedgerUpdateEntry AccountId}
  {requests : List (OneToManyScheduledRequest AccountId)}

/-- The totals add up and the two collections hold the same requests, each within a delegation. -/
structure Consistent (ledger : OneToManyLedger AccountId) : Prop where
  total : ledger.total = ledger.delegations.sum fun _ amount => amount
  lessTotal : ledger.lessTotal = (ledger.requests.map (·.action.amount)).sum
  briefs : ledger.lessTotal = ledger.requestBriefs.sum fun _ brief => brief.2
  named : (ledger.requests.map (·.brief)).Perm ledger.requestBriefs.entries
  backed : ∀ r ∈ ledger.requests, ∃ d, ledger.delegations.get r.validator = some d ∧
    r.action.amount ≤ d

omit [DecidableEq AccountId] in
theorem sum_requests {briefs : Table (MultiLocation AccountId) (TimeUnit × ℕ)}
    (h : (requests.map (·.brief)).Perm briefs.entries) :
    (requests.map (·.action.amount)).sum = briefs.sum fun _ brief => brief.2 := by
  have hperm := (h.map fun e => e.2.2).sum_eq
  rw [List.map_map] at hperm
  exact hperm

theorem Consistent.validators_nodup (h : l.Consistent) : (l.requests.map (·.validator)).Nodup := by
  have hnodup := l.requestBriefs.keys_nodup
  rw [Table.keys, ← (h.named.map Prod.fst).nodup_iff, List.map_map] at hnodup
  exact hnodup

theorem Consistent.brief_iff (h : l.Consistent) {b : TimeUnit × ℕ} :
    l.requestBriefs.get v = some b ↔ ∃ r ∈ l.requests, r.brief = (v, b) := by
  rw [← Table.mem_entries, ← h.named.mem_iff, List.mem_map]

theorem Consistent.none_iff (h : l.Consistent) :
    l.requestBriefs.get v = none ↔ ∀ r ∈ l.requests, r.validator ≠ v := by
  rw [Option.eq_none_iff_forall_ne_some]
  constructor
  · rintro hnone r hr rfl
    exact hnone _ (h.brief_iff.mpr ⟨r, hr, rfl⟩)
  · intro hall b hb
    obtain ⟨r, hr, hbrief⟩ := h.brief_iff.mp hb
    exact hall r hr (congrArg Prod.fst hbrief)

theorem consistent_empty (account : MultiLocation AccountId) : (empty account).Consistent where
  total := rfl
  lessTotal := rfl
  briefs := rfl
  named := .nil
  backed := List.forall_mem_nil _

/-! Requests come and go. -/

theorem named_addRequest {briefs : Table (MultiLocation AccountId) (TimeUnit × ℕ)}
    (h : (requests.map (·.brief)).Perm briefs.entries)
    {r : OneToManyScheduledRequest AccountId} (hnone : briefs.get r.validator = none) :
    ((requests ++ [r]).map (·.brief)).Perm
      (briefs.write r.validator (some (r.whenExecutable, r.action.amount))).entries := by
  have hfilter : briefs.entries.filter (fun e => e.1 ≠ r.validator) = briefs.entries := by
    apply List.filter_eq_self.mpr
    intro e he
    have hne : e.1 ≠ r.validator := by
      intro heq
      have hget := Table.mem_entries.mp he
      rw [heq, hnone] at hget
      cases hget
    exact decide_eq_true hne
  rw [Table.entries_write, hfilter, List.map_append]
  exact List.perm_append_comm.trans (h.cons _)

theorem eraseP_eq_filter (h : (requests.map (·.validator)).Nodup) (v : MultiLocation AccountId) :
    requests.eraseP (·.validator = v) = requests.filter (·.validator ≠ v) := by
  induction requests with
  | nil => rfl
  | cons r requests ih =>
    obtain ⟨hhead, htail⟩ := List.nodup_cons.mp h
    by_cases hr : r.validator = v
    · have hrest : requests.filter (fun r => r.validator ≠ v) = requests := by
        apply List.filter_eq_self.mpr
        intro x hx
        have hne : x.validator ≠ v := by
          rintro rfl
          exact hhead (List.mem_map.mpr ⟨x, hx, hr.symm⟩)
        exact decide_eq_true hne
      rw [List.eraseP_cons_of_pos (by simpa using hr), List.filter_cons_of_neg (by simpa using hr),
        hrest]
    · rw [List.eraseP_cons_of_neg (by simpa using hr), List.filter_cons_of_pos (by simpa using hr),
        ih htail]

theorem Consistent.named_remove (h : l.Consistent) (v : MultiLocation AccountId) :
    ((l.requests.eraseP (·.validator = v)).map (·.brief)).Perm
      (l.requestBriefs.write v none).entries := by
  rw [eraseP_eq_filter h.validators_nodup, Table.entries_write]
  have hfilter := h.named.filter fun e => e.1 ≠ v
  rwa [List.filter_map] at hfilter

/-! What each operation keeps. -/

theorem bond_consistent (hl : l.Consistent) (h : l.bond v n = .ok l') : l'.Consistent := by
  simp only [bond, bind_eq_ok, okOr_eq_ok, U128.checkedAdd_eq_some, pure_eq_ok] at h
  obtain ⟨-, -, _, ⟨rfl, -⟩, _, ⟨rfl, -⟩, rfl⟩ := h
  constructor
  case total =>
    have hsum := Table.sum_write (fun _ amount => amount) l.delegations v
      (some ((l.delegations.get v).getD 0 + n))
    have htotal := hl.total
    cases hget : l.delegations.get v with
    | none =>
      rw [hget] at hsum
      simp only [Table.weight_none, Table.weight_some, Option.getD_none] at hsum ⊢
      omega
    | some d =>
      rw [hget] at hsum
      simp only [Table.weight_some, Option.getD_some] at hsum ⊢
      omega
  case lessTotal => exact hl.lessTotal
  case briefs => exact hl.briefs
  case named => exact hl.named
  case backed =>
    intro r hr
    obtain ⟨d, hd, hle⟩ := hl.backed r hr
    by_cases hv : r.validator = v
    · rw [hv] at hd ⊢
      rw [Table.get_write_self, hd]
      exact ⟨d + n, rfl, by omega⟩
    · rw [Table.get_write_ne _ _ hv]
      exact ⟨d, hd, hle⟩

/-- A request joins a consistent ledger exactly if its validator has none yet and its delegation
covers it. -/
theorem addRequest_consistent_iff (v : MultiLocation AccountId) (time : TimeUnit)
    (action : OneToManyDelegationAction) (hl : l.Consistent) :
    ({ l with lessTotal := l.lessTotal + action.amount }.addRequest v time action
        action.amount).Consistent ↔
      (∃ d, l.delegations.get v = some d ∧ action.amount ≤ d) ∧
        l.requestBriefs.get v = none := by
  constructor
  · intro h
    obtain ⟨d, hd, hle⟩ := h.backed ⟨v, time, action⟩ (by simp [addRequest])
    refine ⟨⟨d, hd, hle⟩, hl.none_iff.mpr ?_⟩
    rintro r hr rfl
    have hnodup := h.validators_nodup
    simp only [addRequest, List.map_append, List.nodup_append] at hnodup
    exact hnodup.2.2 _ (List.mem_map.mpr ⟨r, hr, rfl⟩) _ (by simp) rfl
  · rintro ⟨⟨d, hd, hle⟩, hnone⟩
    have hnamed := named_addRequest hl.named (r := ⟨v, time, action⟩) hnone
    constructor
    case total => exact hl.total
    case lessTotal =>
      simp only [addRequest, List.map_append, List.sum_append, List.map_cons, List.map_nil,
        List.sum_singleton]
      rw [hl.lessTotal]
    case briefs =>
      refine Eq.trans ?_ (sum_requests hnamed)
      simp only [addRequest, List.map_append, List.sum_append, List.map_cons, List.map_nil,
        List.sum_singleton]
      rw [hl.lessTotal]
    case named => exact hnamed
    case backed =>
      intro r hr
      rcases List.mem_append.mp hr with hr | hr
      · exact hl.backed r hr
      · rw [List.mem_singleton.mp hr]
        exact ⟨d, hd, hle⟩

theorem bondLess_consistent_iff (hl : l.Consistent) (h : l.bondLess v n t = .ok l') :
    l'.Consistent ↔
      (∃ d, l.delegations.get v = some d ∧ n ≤ d) ∧ l.requestBriefs.get v = none := by
  simp only [bondLess, bind_eq_ok, okOr_eq_ok, U128.checkedAdd_eq_some, pure_eq_ok] at h
  obtain ⟨-, -, _, ⟨rfl, -⟩, time, -, rfl⟩ := h
  exact addRequest_consistent_iff v time (.decrease n) hl

theorem revoke_consistent_iff (hl : l.Consistent) (h : l.revoke v t = .ok l') :
    l'.Consistent ↔ l.requestBriefs.get v = none := by
  simp only [revoke, bind_eq_ok, okOr_eq_ok, U128.checkedAdd_eq_some, pure_eq_ok] at h
  obtain ⟨-, -, d, hd, _, ⟨rfl, -⟩, time, -, rfl⟩ := h
  have hiff := addRequest_consistent_iff v time (.revoke d) hl
  refine hiff.trans ⟨And.right, fun hnone => ⟨⟨d, hd, le_rfl⟩, hnone⟩⟩

theorem sum_remove (hl : l.Consistent) {time : TimeUnit} (hv : l.requestBriefs.get v = some (time, n)) :
    ((l.requests.eraseP (·.validator = v)).map (·.action.amount)).sum + n = l.lessTotal ∧
      (l.requestBriefs.write v none).sum (fun _ brief => brief.2) + n = l.lessTotal := by
  have hsum := Table.sum_write (fun _ brief => brief.2) l.requestBriefs v none
  rw [hv] at hsum
  simp only [Table.weight_some, Table.weight_none] at hsum
  rw [sum_requests (hl.named_remove v), hl.briefs]
  omega

theorem removeRequest_ok {e : Error}
    (h : l.removeRequest v e = .ok requests) : requests = l.requests.eraseP (·.validator = v) := by
  simp only [removeRequest, bind_eq_ok, pure_eq_ok] at h
  obtain ⟨-, -, rfl⟩ := h
  rfl

theorem cancelRequest_consistent (hl : l.Consistent) (h : l.cancelRequest v = .ok l') :
    l'.Consistent := by
  simp only [cancelRequest, bind_eq_ok, okOr_eq_ok, U128.checkedSub_eq_some, pure_eq_ok] at h
  obtain ⟨-, -, ⟨time, amount⟩, hbrief, _, ⟨hle, rfl⟩, requests, hremove, rfl⟩ := h
  obtain ⟨hrequests, hbriefs⟩ := sum_remove hl hbrief
  rw [removeRequest_ok hremove]
  dsimp only at hle ⊢
  constructor
  case total => exact hl.total
  case lessTotal =>
    dsimp only
    omega
  case briefs =>
    dsimp only
    omega
  case named => exact hl.named_remove v
  case backed =>
    intro r hr
    exact hl.backed r (List.mem_of_mem_eraseP hr)

theorem leave_consistent_iff (hl : l.Consistent) (h : l.leave t = .ok l') :
    l'.Consistent ↔ l.delegations.entries = [] := by
  simp only [leave, bind_eq_ok, pure_eq_ok] at h
  obtain ⟨-, -, time, -, rfl⟩ := h
  constructor
  · intro h
    have hlength := h.named.length_eq
    simpa using hlength
  · intro hempty
    constructor
    case total => exact hl.total
    case lessTotal =>
      rw [hl.total, Table.sum, hempty]
      rfl
    case briefs =>
      rw [hl.total, Table.sum, hempty]
      rfl
    case named =>
      rw [hempty]
      exact .nil
    case backed =>
      rw [hempty]
      exact List.forall_mem_nil _

theorem cancelLeave_consistent (hl : l.Consistent) (h : l.cancelLeave = .ok l') :
    l'.Consistent := by
  simp only [cancelLeave, bind_eq_ok, pure_eq_ok] at h
  obtain ⟨-, -, rfl⟩ := h
  exact ⟨hl.total, rfl, rfl, .nil, List.forall_mem_nil _⟩

omit [DecidableEq AccountId] in
theorem executeLeave_ok (h : l.executeLeave t = .ok l') :
    l' = empty l.account := by
  unfold executeLeave at h
  split at h
  · rw [bind_eq_ok] at h
    obtain ⟨now, -, h⟩ := h
    split at h
    · simp only [bind_eq_ok, pure_eq_ok] at h
      obtain ⟨-, -, rfl⟩ := h
      rfl
    · simp at h
  · simp at h
  · simp at h

theorem executeRequest_consistent (hl : l.Consistent) (h : l.executeRequest v t = .ok l') :
    l'.Consistent := by
  simp only [executeRequest, bind_eq_ok, okOr_eq_ok, U128.checkedSub_eq_some, pure_eq_ok] at h
  obtain ⟨-, -, now, -, nowRound, -, ⟨time, amount⟩, hbrief, dueRound, -, -, -, _, ⟨htotal, rfl⟩, _,
    ⟨hless, rfl⟩, requests, hremove, d, hd, _, ⟨hle, rfl⟩, rfl⟩ := h
  obtain ⟨hrequests, hbriefs⟩ := sum_remove hl hbrief
  rw [removeRequest_ok hremove]
  dsimp only at htotal hless hle ⊢
  constructor
  case total =>
    have hsum := Table.sum_write (fun _ amount => amount) l.delegations v
      (if d - amount = 0 then none else some (d - amount))
    have hweight : Table.weight (fun (_ : MultiLocation AccountId) (amount : ℕ) => amount) v
        (if d - amount = 0 then none else some (d - amount)) = d - amount := by
      split <;> simp [*]
    rw [hd, hweight, Table.weight_some] at hsum
    have hbefore := hl.total
    dsimp only
    omega
  case lessTotal =>
    dsimp only
    omega
  case briefs =>
    dsimp only
    omega
  case named => exact hl.named_remove v
  case backed =>
    intro r hr
    rw [eraseP_eq_filter hl.validators_nodup, List.mem_filter] at hr
    rw [Table.get_write_ne _ _ (by simpa using hr.2)]
    exact hl.backed r hr.1

theorem update_consistent_iff (hl : l.Consistent) (h : l.update entry = .ok l') :
    l'.Consistent ↔ l.Fits entry := by
  unfold update at h
  unfold Fits
  cases hop : entry.updateOperation with
  | bond =>
    simp only [hop, bind_eq_ok, okOr_eq_ok] at h
    obtain ⟨v, -, h⟩ := h
    exact iff_of_true (bond_consistent hl h) trivial
  | bondLess =>
    simp only [hop, bind_eq_ok, okOr_eq_ok] at h
    obtain ⟨v, hv, h⟩ := h
    rw [bondLess_consistent_iff hl h, hv]
    constructor
    · rintro ⟨⟨d, hd, hle⟩, hnone⟩
      exact ⟨v, d, rfl, hd, hle, hnone⟩
    · rintro ⟨v', d, hv', hd, hle, hnone⟩
      cases hv'
      exact ⟨⟨d, hd, hle⟩, hnone⟩
  | revoke =>
    simp only [hop, bind_eq_ok, okOr_eq_ok] at h
    obtain ⟨v, hv, h⟩ := h
    rw [revoke_consistent_iff hl h, hv]
    simp
  | cancelRequest =>
    simp only [hop, bind_eq_ok, okOr_eq_ok] at h
    obtain ⟨v, -, h⟩ := h
    exact iff_of_true (cancelRequest_consistent hl h) trivial
  | leaveDelegator =>
    simp only [hop] at h
    exact leave_consistent_iff hl h
  | cancelLeave =>
    simp only [hop] at h
    exact iff_of_true (cancelLeave_consistent hl h) trivial
  | executeLeave =>
    simp only [hop] at h
    rw [executeLeave_ok h]
    exact iff_of_true (consistent_empty _) trivial
  | executeRequest =>
    simp only [hop, bind_eq_ok, okOr_eq_ok] at h
    obtain ⟨v, -, h⟩ := h
    exact iff_of_true (executeRequest_consistent hl h) trivial

end OneToManyLedger

section Leaving

variable [DecidableEq AccountId] {c c' : CurrencyId} {who who' : MultiLocation AccountId}
  {e : Event AccountId} {l l' : OneToManyLedger AccountId}
  {entry : ParachainStakingLedgerUpdateEntry AccountId}

/-- What an event says about whether the delegator is leaving. -/
def Event.leave (c : CurrencyId) (who : MultiLocation AccountId) : Event AccountId → Option Bool
  | .delegatorUnbondAll c' who' _ => if c' = c ∧ who' = who then some true else none
  | .delegated c' who' _ _ | .liquidize c' who' _ _ _ | .delegatorRemoved c' who' =>
    if c' = c ∧ who' = who then some false else none
  | _ => none

/-- A leave of the whole delegator is pending from `unbond_all` on until it is cancelled or
executed. -/
def leavePending (c : CurrencyId) (who : MultiLocation AccountId) (es : List (Event AccountId)) :
    Bool :=
  es.foldl (fun pending e => (e.leave c who).getD pending) false

theorem leavePending_append (es es' : List (Event AccountId)) :
    leavePending c who (es ++ es') =
      es'.foldl (fun pending e => (e.leave c who).getD pending) (leavePending c who es) := by
  simp [leavePending, List.foldl_append]

theorem leavePending_concat (es : List (Event AccountId)) (e : Event AccountId) :
    leavePending c who (es ++ [e]) = (e.leave c who).getD (leavePending c who es) := by
  rw [leavePending_append]
  rfl

theorem leavePending_eq {es es' : List (Event AccountId)}
    (h : ∀ e ∈ es', e.leave c who = none) :
    leavePending c who (es ++ es') = leavePending c who es := by
  rw [leavePending_append]
  induction es' generalizing es with
  | nil => rfl
  | cons e es' ih =>
    obtain ⟨he, hes'⟩ := List.forall_mem_cons.mp h
    rw [List.foldl_cons, he, Option.getD_none]
    exact ih hes'

theorem Event.About.leave_eq (h : e.About c) (hc : c' ≠ c) : e.leave c' who = none := by
  cases e <;> simp_all [Event.About, Event.leave, eq_comm]

theorem Event.IsBurn.leave_eq (h : e.IsBurn c) : e.leave c' who = none := by
  obtain ⟨fee, rfl⟩ := h
  rfl

theorem Event.IsNote.leave_eq (h : e.IsNote c) : e.leave c' who = none := by
  cases e <;> simp_all [Event.IsNote, Event.leave]

theorem Event.IsTransfer.leave_eq (h : e.IsTransfer) : e.leave c' who = none := by
  cases e <;> simp_all [Event.IsTransfer, Event.leave]

theorem update_status (h : l.update entry = .ok l') :
    (l'.status ≠ .active ↔ entry.updateOperation = .leaveDelegator) ∧
      (l.status = .active ∨ entry.updateOperation = .cancelLeave ∨
        entry.updateOperation = .executeLeave) := by
  unfold OneToManyLedger.update at h
  cases hop : entry.updateOperation with
  | bond =>
    simp only [hop, OneToManyLedger.bond, bind_eq_ok, ensure_eq_ok, pure_eq_ok, exists_const] at h
    obtain ⟨v, -, hactive, _, -, _, -, rfl⟩ := h
    simp [hactive]
  | bondLess =>
    simp only [hop, OneToManyLedger.bondLess, bind_eq_ok, ensure_eq_ok, pure_eq_ok,
      exists_const] at h
    obtain ⟨v, -, hactive, _, -, _, -, rfl⟩ := h
    simp [OneToManyLedger.addRequest, hactive]
  | revoke =>
    simp only [hop, OneToManyLedger.revoke, bind_eq_ok, ensure_eq_ok, pure_eq_ok,
      exists_const] at h
    obtain ⟨v, -, hactive, _, -, _, -, _, -, rfl⟩ := h
    simp [OneToManyLedger.addRequest, hactive]
  | cancelRequest =>
    simp only [hop, OneToManyLedger.cancelRequest, bind_eq_ok, ensure_eq_ok, pure_eq_ok,
      exists_const] at h
    obtain ⟨v, -, hactive, _, -, _, -, _, -, rfl⟩ := h
    simp [hactive]
  | leaveDelegator =>
    simp only [hop, OneToManyLedger.leave, bind_eq_ok, ensure_eq_ok, pure_eq_ok,
      exists_const] at h
    obtain ⟨hactive, _, -, rfl⟩ := h
    simp [hactive]
  | cancelLeave =>
    simp only [hop, OneToManyLedger.cancelLeave, bind_eq_ok, pure_eq_ok] at h
    obtain ⟨-, -, rfl⟩ := h
    simp
  | executeLeave =>
    simp only [hop] at h
    rw [OneToManyLedger.executeLeave_ok h]
    simp [OneToManyLedger.empty]
  | executeRequest =>
    simp only [hop, OneToManyLedger.executeRequest, bind_eq_ok, ensure_eq_ok, pure_eq_ok,
      exists_const] at h
    obtain ⟨v, -, hactive, _, -, _, -, _, -, _, -, -, _, -, _, -, _, -, _, -, _, -, rfl⟩ := h
    simp [hactive]

theorem update_leaving (h : l.update entry = .ok l')
    (he : entry.updateOperation.ReportedBy c who e) {pending : Bool}
    (hp : l.status ≠ .active ↔ pending = true) :
    l'.status ≠ .active ↔ (e.leave c who).getD pending = true := by
  obtain ⟨hleaving, hbefore⟩ := update_status h
  rw [hleaving]
  cases hop : entry.updateOperation with
  | leaveDelegator =>
    rw [hop] at he
    obtain ⟨q, rfl⟩ := he
    simp [Event.leave]
  | cancelLeave =>
    rw [hop] at he
    obtain ⟨targets, q, rfl⟩ := he
    simp [Event.leave]
  | executeLeave | executeRequest =>
    rw [hop] at he
    obtain ⟨time, q, n, rfl⟩ := he
    simp [Event.leave]
  | bond =>
    rw [hop] at he
    obtain ⟨n, q, v, rfl | rfl⟩ := he <;> simp_all [Event.leave]
  | bondLess | cancelRequest =>
    rw [hop] at he
    obtain ⟨n, q, v, rfl⟩ := he
    simp_all [Event.leave]
  | revoke =>
    rw [hop] at he
    obtain ⟨targets, q, rfl⟩ := he
    simp_all [Event.leave]

theorem ReportedBy.leave_ne {operation : ParachainStakingLedgerUpdateOperation}
    (he : operation.ReportedBy c who e) (hop : operation ≠ .leaveDelegator) (c' : CurrencyId)
    (who' : MultiLocation AccountId) : e.leave c' who' ≠ some true := by
  cases operation with
  | leaveDelegator => exact absurd rfl hop
  | bond => obtain ⟨n, q, v, rfl | rfl⟩ := he <;> simp [Event.leave]
  | bondLess | cancelRequest => obtain ⟨n, q, v, rfl⟩ := he; simp [Event.leave]
  | revoke | cancelLeave => obtain ⟨targets, q, rfl⟩ := he; simp [Event.leave]
  | executeLeave | executeRequest => obtain ⟨time, q, n, rfl⟩ := he; simp [Event.leave]

end Leaving

variable [DecidableEq AccountId] {cfg : Config AccountId} {s s' : State cfg} {c : CurrencyId}
  {who : MultiLocation AccountId} {agent : Agent}
  {entry : ParachainStakingLedgerUpdateEntry AccountId}

def Ledger.oneToMany : Ledger AccountId → Option (OneToManyLedger AccountId)
  | .parachainStaking ledger => some ledger
  | .substrate _ | .moonbeam _ | .phala _ => none

def State.oneToMany (s : State cfg) (c : CurrencyId) (who : MultiLocation AccountId) :
    Option (OneToManyLedger AccountId) :=
  (s.getLedger c who).bind Ledger.oneToMany

theorem oneToMany_eq_some {l : OneToManyLedger AccountId} :
    s.oneToMany c who = some l ↔ s.getLedger c who = some (.parachainStaking l) := by
  unfold State.oneToMany
  rw [Option.bind_eq_some_iff]
  constructor
  · rintro ⟨ledger, hget, hl⟩
    cases ledger <;> simp_all [Ledger.oneToMany]
  · intro hget
    exact ⟨_, hget, rfl⟩

theorem oneToMany_setLedger (s : State cfg) (c c' : CurrencyId)
    (who who' : MultiLocation AccountId) (o : Option (Ledger AccountId)) :
    (s.setLedger c who o).oneToMany c' who' =
      if c' = c ∧ who' = who then o.bind Ledger.oneToMany else s.oneToMany c' who' := by
  unfold State.oneToMany
  rw [getLedger_setLedger]
  split
  · rfl
  · rfl

/-- Every one-to-many ledger is consistent, and leaving exactly while a leave is pending. -/
def State.RequestsAgree (s : State cfg) : Prop :=
  ∀ c who l, s.getLedger c who = some (.parachainStaking l) →
    l.Consistent ∧ (l.status ≠ .active ↔ leavePending c who s.events = true)

/-- What holds whatever the calls: the ledgers are where their agent keeps them, only ledgers of
BNC can be leaving, and no message asks for leaving. -/
structure State.Accountable (s : State cfg) : Prop where
  agent : ∀ c who l, s.getLedger c who = some (.parachainStaking l) →
    getCurrencyStakingAgent c = .ok .parachainStaking
  pending : ∀ c who, getCurrencyStakingAgent c = .ok .parachainStaking →
    leavePending c who s.events = true → c = bnc ∧ (s.oneToMany c who).isSome
  queue : ∀ q entry timeout,
    s.delegatorLedgerXcmUpdateQueue q = some (.parachainStaking entry, timeout) →
    entry.updateOperation ≠ .leaveDelegator

/-- Nothing of the delegator has changed. -/
def Untouched (s s' : State cfg) (c : CurrencyId) (who : MultiLocation AccountId) : Prop :=
  s'.oneToMany c who = s.oneToMany c who ∧
    (getCurrencyStakingAgent c = .ok .parachainStaking →
      leavePending c who s'.events = leavePending c who s.events)

def Agrees (s : State cfg) (c : CurrencyId) (who : MultiLocation AccountId) : Prop :=
  ∀ l, s.oneToMany c who = some l →
    l.Consistent ∧ (l.status ≠ .active ↔ leavePending c who s.events = true)

theorem requestsAgree_iff : s.RequestsAgree ↔ ∀ c who, Agrees s c who := by
  simp only [State.RequestsAgree, Agrees, oneToMany_eq_some]

theorem Untouched.agrees (h : Untouched s s' c who) (hs : s.Accountable) (ha : Agrees s c who) :
    Agrees s' c who := by
  intro l hl
  rw [h.1] at hl
  rw [h.2 (hs.agent c who l (oneToMany_eq_some.mp hl))]
  exact ha l hl

theorem requestsAgree_iff_of_untouched (hs : s.Accountable) (ha : s.RequestsAgree)
    (h : ∀ c' who', ¬(c' = c ∧ who' = who) → Untouched s s' c' who') :
    s'.RequestsAgree ↔ Agrees s' c who := by
  rw [requestsAgree_iff] at ha ⊢
  refine ⟨fun hall => hall c who, fun hone c' who' => ?_⟩
  by_cases heq : c' = c ∧ who' = who
  · obtain ⟨rfl, rfl⟩ := heq
    exact hone
  · exact (h c' who' heq).agrees hs (ha c' who')

theorem requestsAgree_of_untouched (hs : s.Accountable) (ha : s.RequestsAgree)
    (h : ∀ c who, Untouched s s' c who) : s'.RequestsAgree := by
  rw [requestsAgree_iff] at ha ⊢
  exact fun c who => (h c who).agrees hs (ha c who)

theorem Untouched.accountable_agent (hs : s.Accountable) (h : Untouched s s' c who)
    {l : OneToManyLedger AccountId} (hl : s'.oneToMany c who = some l) :
    getCurrencyStakingAgent c = .ok .parachainStaking := by
  rw [h.1] at hl
  exact hs.agent c who l (oneToMany_eq_some.mp hl)

theorem Untouched.accountable_pending (hs : s.Accountable) (h : Untouched s s' c who)
    (hagent : getCurrencyStakingAgent c = .ok .parachainStaking)
    (hp : leavePending c who s'.events = true) : c = bnc ∧ (s'.oneToMany c who).isSome := by
  rw [h.2 hagent] at hp
  rw [h.1]
  exact hs.pending c who hagent hp

theorem accountable_of_untouched (hs : s.Accountable)
    (h : ∀ c' who', ¬(c' = c ∧ who' = who) → Untouched s s' c' who')
    (hagent : (s'.oneToMany c who).isSome → getCurrencyStakingAgent c = .ok .parachainStaking)
    (hpending : leavePending c who s'.events = true → c = bnc ∧ (s'.oneToMany c who).isSome)
    (hqueue : ∀ q entry timeout,
      s'.delegatorLedgerXcmUpdateQueue q = some (.parachainStaking entry, timeout) →
      entry.updateOperation ≠ .leaveDelegator) : s'.Accountable := by
  constructor
  case agent =>
    intro c' who' l hl
    rw [← oneToMany_eq_some] at hl
    by_cases heq : c' = c ∧ who' = who
    · obtain ⟨rfl, rfl⟩ := heq
      exact hagent (by rw [hl]; rfl)
    · exact (h c' who' heq).accountable_agent hs hl
  case pending =>
    intro c' who' hagent' hp
    by_cases heq : c' = c ∧ who' = who
    · obtain ⟨rfl, rfl⟩ := heq
      exact hpending hp
    · exact (h c' who' heq).accountable_pending hs hagent' hp
  case queue => exact hqueue

theorem accountable_of_forall (hs : s.Accountable) (h : ∀ c who, Untouched s s' c who)
    (hqueue : ∀ q entry timeout,
      s'.delegatorLedgerXcmUpdateQueue q = some (.parachainStaking entry, timeout) →
      entry.updateOperation ≠ .leaveDelegator) : s'.Accountable where
  agent := fun c who _ hl => (h c who).accountable_agent hs (oneToMany_eq_some.mpr hl)
  pending := fun c who hagent hp => (h c who).accountable_pending hs hagent hp
  queue := hqueue

/-! Operations. -/

section Operations

variable {e : Event AccountId} {s₀ s₁ : State cfg}

theorem Opens.oneToMany_eq (h : Opens agent c s s₀) (c' : CurrencyId)
    (who' : MultiLocation AccountId) :
    s₀.oneToMany c' who' = s.oneToMany c' who' ∨
      c' = c ∧ s.oneToMany c' who' = none ∧
        (s₀.oneToMany c' who' = none ∨
          agent = .parachainStaking ∧ s₀.oneToMany c' who' = some (.empty who')) := by
  cases h with
  | nothing => exact Or.inl rfl
  | ledger who l hopened =>
    by_cases heq : c' = c ∧ who' = who
    · obtain ⟨rfl, rfl⟩ := heq
      have hopens := oneToMany_setLedger s c' c' who' who' (some l)
      simp only [and_self, if_true, Option.bind_some] at hopens
      refine Or.inr ⟨rfl, ?_⟩
      rw [hopens, State.oneToMany]
      generalize s.getLedger c' who' = o at hopened
      cases hopened with
      | substrate agent hagent => exact ⟨rfl, Or.inl rfl⟩
      | oneToMany o ho =>
        refine ⟨?_, Or.inr ⟨rfl, rfl⟩⟩
        rw [Option.bind_eq_none_iff]
        intro ledger hledger
        cases ledger with
        | parachainStaking l => exact absurd hledger (ho l)
        | substrate l => rfl
        | moonbeam l => rfl
        | phala l => rfl
      | phala => exact ⟨rfl, Or.inl rfl⟩
    · refine Or.inl ?_
      rw [oneToMany_setLedger, if_neg heq]

theorem Effect.oneToMany_eq (h : Effect agent c e s s₁) (hagent : agent ≠ .parachainStaking)
    (c' : CurrencyId) (who' : MultiLocation AccountId) :
    s₁.oneToMany c' who' = s.oneToMany c' who' ∨ c' = c ∧ s₁.oneToMany c' who' = none := by
  have hopened {s₀ : State cfg} (hopens : Opens agent c s s₀) :
      s₀.oneToMany c' who' = s.oneToMany c' who' ∨ c' = c ∧ s₀.oneToMany c' who' = none := by
    rcases hopens.oneToMany_eq c' who' with heq | ⟨hc, -, hnone | ⟨hparachain, -⟩⟩
    · exact Or.inl heq
    · exact Or.inr ⟨hc, hnone⟩
    · exact absurd hparachain hagent
  cases h with
  | quiet x L es hx hes he => exact Or.inl rfl
  | queued s₀ s₁ entry q hopens hqueued hentry =>
    obtain ⟨r, x, L, es, -, -, rfl⟩ := hqueued
    have hs₀ := hopened hopens
    exact hs₀
  | nominated r x L es q who validators hpolkadot hq hes => exact Or.inl rfl
  | native s₀ entry l l' L occ hparachain hc hopens hget hupdate hfits he =>
    exact absurd hparachain hagent
  | phala s₀ who l es hphala hopens hes =>
    have hset := oneToMany_setLedger s₀ c c' who who' (some (.phala l))
    have hview : ((s₀.setLedger c who (some (.phala l))).around s₀.xcm s₀.outside es).oneToMany
        c' who' = (s₀.setLedger c who (some (.phala l))).oneToMany c' who' := rfl
    rw [hview, hset]
    split
    · rename_i heq
      exact Or.inr ⟨heq.1, rfl⟩
    · exact hopened hopens

theorem effect_untouched (hs : s.Accountable) (hc : getCurrencyStakingAgent c = .ok agent)
    (hagent : agent ≠ .parachainStaking) (he : e.About c) (h : Effect agent c e s s₁)
    (c' : CurrencyId) (who' : MultiLocation AccountId) :
    Untouched s (s₁.depositEvent e) c' who' := by
  have hne (hc' : getCurrencyStakingAgent c' = .ok .parachainStaking) : c' ≠ c := by
    rintro rfl
    rw [hc] at hc'
    cases hc'
    exact hagent rfl
  constructor
  · have hview : (s₁.depositEvent e).oneToMany c' who' = s₁.oneToMany c' who' := rfl
    rw [hview]
    rcases h.oneToMany_eq hagent c' who' with heq | ⟨rfl, hnone⟩
    · exact heq
    · cases hold : s.oneToMany c' who' with
      | none => exact hnone
      | some l =>
        have hc' := hs.agent c' who' l (oneToMany_eq_some.mp hold)
        exact absurd rfl (hne hc')
  · intro hc'
    obtain ⟨es, hes, habout, -⟩ := h.events
    have hevents : (s₁.depositEvent e).events = s.events ++ (es ++ [e]) := by
      rw [← List.append_assoc, ← hes]
      rfl
    rw [hevents]
    apply leavePending_eq
    intro e' he'
    rcases List.mem_append.mp he' with he' | he'
    · exact (habout e' he').leave_eq (hne hc')
    · rw [List.mem_singleton.mp he']
      exact he.leave_eq (hne hc')

theorem opens_agree (hs : s.Accountable) (ha : s.RequestsAgree)
    (hc : getCurrencyStakingAgent c = .ok .parachainStaking)
    (h : Opens .parachainStaking c s s₀) : s₀.Accountable ∧ s₀.RequestsAgree := by
  obtain ⟨ledgers, heq, -⟩ := h.eq
  have hevents : s₀.events = s.events := by rw [heq]
  have hqueue : s₀.delegatorLedgerXcmUpdateQueue = s.delegatorLedgerXcmUpdateQueue := by rw [heq]
  have hview := h.oneToMany_eq
  have hsame {c' : CurrencyId} {who' : MultiLocation AccountId}
      (hsame : s₀.oneToMany c' who' = s.oneToMany c' who') : Untouched s s₀ c' who' :=
    ⟨hsame, fun _ => by rw [hevents]⟩
  refine ⟨⟨?_, ?_, ?_⟩, requestsAgree_iff.mpr fun c' who' => ?_⟩
  · intro c' who' l hl
    rw [← oneToMany_eq_some] at hl
    rcases hview c' who' with heq | ⟨rfl, -, -⟩
    · exact (hsame heq).accountable_agent hs hl
    · exact hc
  · intro c' who' hagent hp
    rcases hview c' who' with heq | ⟨rfl, hnone, -⟩
    · exact (hsame heq).accountable_pending hs hagent hp
    · rw [hevents] at hp
      have hsome := (hs.pending c' who' hagent hp).2
      rw [hnone] at hsome
      cases hsome
  · rw [hqueue]
    exact hs.queue
  · rcases hview c' who' with heq | ⟨rfl, hnone, hopened⟩
    · exact (hsame heq).agrees hs (requestsAgree_iff.mp ha c' who')
    · intro l hl
      rw [hl] at hopened
      rcases hopened with hopened | ⟨-, hopened⟩
      · cases hopened
      · cases hopened
        refine ⟨OneToManyLedger.consistent_empty who', iff_of_false (fun h => h rfl) fun hp => ?_⟩
        rw [hevents] at hp
        have hsome := (hs.pending c' who' hc hp).2
        rw [hnone] at hsome
        cases hsome

theorem ReportedBy.leave_eq {operation : ParachainStakingLedgerUpdateOperation}
    {who' : MultiLocation AccountId} {c' : CurrencyId} (he : operation.ReportedBy c who e)
    (hne : ¬(c' = c ∧ who' = who)) : e.leave c' who' = none := by
  have hne' : ¬(c = c' ∧ who = who') := fun h => hne ⟨h.1.symm, h.2.symm⟩
  cases operation with
  | bond => obtain ⟨n, q, v, rfl | rfl⟩ := he <;> rfl
  | bondLess | cancelRequest =>
    obtain ⟨n, q, v, rfl⟩ := he
    rfl
  | revoke =>
    obtain ⟨targets, q, rfl⟩ := he
    rfl
  | cancelLeave =>
    obtain ⟨targets, q, rfl⟩ := he
    exact if_neg hne'
  | leaveDelegator =>
    obtain ⟨q, rfl⟩ := he
    exact if_neg hne'
  | executeLeave | executeRequest =>
    obtain ⟨time, q, n, rfl⟩ := he
    exact if_neg hne'

theorem queued_untouched (hs : s₀.Accountable) {entry : LedgerUpdateEntry AccountId} {q : ℕ}
    (hc : getCurrencyStakingAgent c = .ok .parachainStaking)
    (hqueued : Queued s₀ c entry q s₁) (hentry : entry.SentBy c e .parachainStaking)
    (c' : CurrencyId) (who' : MultiLocation AccountId) :
    Untouched s₀ (s₁.depositEvent e) c' who' := by
  obtain ⟨r, x, L, es, -, hes, rfl⟩ := hqueued
  refine ⟨rfl, fun hc' => ?_⟩
  have hevents : ((s₀.around x L es).setLedgerQuery q (some (entry, s₀.timeout)) |>.depositEvent
      e).events = (s₀.events ++ es) ++ [e] := rfl
  rw [hevents, leavePending_concat, leavePending_eq fun e he => (hes e he).leave_eq]
  cases entry with
  | substrate entry => exact hentry.elim
  | moonbeam entry => exact hentry.elim
  | parachainStaking entry =>
    obtain ⟨hcurrency, hbnc, hop, he⟩ := hentry
    by_cases heq : c' = c ∧ who' = entry.delegatorId
    · obtain ⟨rfl, rfl⟩ := heq
      have hnot : leavePending c' entry.delegatorId s₀.events = false := by
        rw [Bool.eq_false_iff]
        exact fun hp => hbnc (hs.pending c' _ hc' hp).1
      have hleave := ReportedBy.leave_ne he hop c' entry.delegatorId
      rw [hnot]
      cases hsays : e.leave c' entry.delegatorId with
      | none => rfl
      | some b =>
        cases b with
        | false => rfl
        | true => exact absurd hsays hleave
    · rw [ReportedBy.leave_eq he heq, Option.getD_none]

theorem effect_queue (hs : s.Accountable) (h : Effect agent c e s s₁) {q : ℕ}
    {timeout : ℕ}
    (hq : s₁.delegatorLedgerXcmUpdateQueue q = some (.parachainStaking entry, timeout)) :
    entry.updateOperation ≠ .leaveDelegator := by
  cases h with
  | quiet x L es hx hes he => exact hs.queue q entry timeout hq
  | queued s₀ s₁ entry' q' hopens hqueued hentry =>
    obtain ⟨ledgers, rfl, -⟩ := hopens.eq
    obtain ⟨r, x, L, es, -, -, rfl⟩ := hqueued
    have hupdate : Function.update s.delegatorLedgerXcmUpdateQueue q' _ q = _ := hq
    by_cases heq : q = q'
    · subst q'
      rw [Function.update_self] at hupdate
      cases hupdate
      cases agent with
      | parachainStaking => exact hentry.2.2.1
      | polkadot => exact hentry.elim
      | phala => exact hentry.elim
      | astar => exact hentry.elim
    · rw [Function.update_of_ne heq] at hupdate
      exact hs.queue q entry timeout hupdate
  | nominated r x L es q' who validators hagent hq' hes => exact hs.queue q entry timeout hq
  | native s₀ entry' l l' L occ hagent hc hopens hget hupdate hfits he =>
    obtain ⟨ledgers, rfl, -⟩ := hopens.eq
    exact hs.queue q entry timeout hq
  | phala s₀ who l es hagent hopens hes =>
    obtain ⟨ledgers, rfl, -⟩ := hopens.eq
    exact hs.queue q entry timeout hq

theorem updated_agrees_iff (hs : s.Accountable) (ha : s.RequestsAgree)
    {l l' : OneToManyLedger AccountId}
    (hl : s.oneToMany c who = some l) (hupdate : l.update entry = .ok l')
    (hview : ∀ c' who', s'.oneToMany c' who' =
      if c' = c ∧ who' = who then some l' else s.oneToMany c' who')
    (hevents : ∀ c' who', ¬(c' = c ∧ who' = who) →
      leavePending c' who' s'.events = leavePending c' who' s.events)
    (hleaving : l'.status ≠ .active ↔ leavePending c who s'.events = true)
    (hbnc : leavePending c who s'.events = true → c = bnc)
    (hqueue : ∀ q entry timeout,
      s'.delegatorLedgerXcmUpdateQueue q = some (.parachainStaking entry, timeout) →
      entry.updateOperation ≠ .leaveDelegator) :
    s'.Accountable ∧ (s'.RequestsAgree ↔ l.Fits entry) := by
  have huntouched (c' : CurrencyId) (who' : MultiLocation AccountId)
      (hne : ¬(c' = c ∧ who' = who)) : Untouched s s' c' who' := by
    refine ⟨?_, fun _ => hevents c' who' hne⟩
    rw [hview, if_neg hne]
  have hself : s'.oneToMany c who = some l' := by
    rw [hview, if_pos ⟨rfl, rfl⟩]
  have hconsistent := (requestsAgree_iff.mp ha c who l hl).1
  constructor
  · refine accountable_of_untouched hs huntouched (fun _ => ?_) (fun hp => ?_) hqueue
    · exact hs.agent c who l (oneToMany_eq_some.mp hl)
    · exact ⟨hbnc hp, by rw [hself]; rfl⟩
  · rw [requestsAgree_iff_of_untouched hs ha huntouched, Agrees, hself,
      ← OneToManyLedger.update_consistent_iff hconsistent hupdate]
    constructor
    · intro h
      exact (h l' rfl).1
    · rintro h l'' hl''
      cases hl''
      exact ⟨h, hleaving⟩

theorem native_agrees_iff (hs : s.Accountable) (ha : s.RequestsAgree) (hbnc : c = bnc)
    {l l' : OneToManyLedger AccountId}
    (hl : s.oneToMany c entry.delegatorId = some l) (hupdate : l.update entry = .ok l')
    (hfits : entry.updateOperation ≠ .leaveDelegator → l.Fits entry)
    (he : entry.updateOperation.ReportedBy c entry.delegatorId e)
    (hview : ∀ c' who', s'.oneToMany c' who' =
      if c' = c ∧ who' = entry.delegatorId then some l' else s.oneToMany c' who')
    (hevents : s'.events = s.events ++ [e])
    (hqueue : ∀ q entry timeout,
      s'.delegatorLedgerXcmUpdateQueue q = some (.parachainStaking entry, timeout) →
      entry.updateOperation ≠ .leaveDelegator) :
    s'.Accountable ∧ (s'.RequestsAgree ↔ ∀ who q l, e = .delegatorUnbondAll c who q →
      s.oneToMany c who = some l → l.delegations.entries = []) := by
  have hafter := update_leaving hupdate he (requestsAgree_iff.mp ha c _ l hl).2
  rw [← leavePending_concat, ← hevents] at hafter
  have hothers (c' : CurrencyId) (who' : MultiLocation AccountId)
      (hne : ¬(c' = c ∧ who' = entry.delegatorId)) :
      leavePending c' who' s'.events = leavePending c' who' s.events := by
    rw [hevents, leavePending_concat, ReportedBy.leave_eq he hne, Option.getD_none]
  obtain ⟨hs', hiff⟩ := updated_agrees_iff hs ha hl hupdate hview hothers hafter (fun _ => hbnc)
    hqueue
  refine ⟨hs', hiff.trans ?_⟩
  by_cases hop : entry.updateOperation = .leaveDelegator
  · rw [hop] at he
    obtain ⟨q, rfl⟩ := he
    rw [OneToManyLedger.Fits, hop]
    constructor
    · intro hempty who q' l₁ heq hl₁
      cases heq
      rw [hl] at hl₁
      cases hl₁
      exact hempty
    · intro hall
      exact hall _ q l rfl hl
  · refine iff_of_true (hfits hop) fun who q l₁ heq _ => ?_
    have hleave := ReportedBy.leave_ne he hop c who
    rw [heq] at hleave
    exact absurd (if_pos ⟨rfl, rfl⟩) hleave

/-- An operation keeps the ledgers in order, unless it makes a delegator with delegations leave. -/
theorem effect_agrees_iff (hs : s.Accountable) (ha : s.RequestsAgree)
    (hc : getCurrencyStakingAgent c = .ok agent) (habout : e.About c)
    (h : Effect agent c e s s₁) :
    (s₁.depositEvent e).Accountable ∧
      ((s₁.depositEvent e).RequestsAgree ↔ ∀ who q l, e = .delegatorUnbondAll c who q →
        s.oneToMany c who = some l → l.delegations.entries = []) := by
  by_cases hagent : agent = .parachainStaking
  swap
  · have huntouched := effect_untouched hs hc hagent habout h
    refine ⟨accountable_of_forall hs huntouched fun q entry timeout hq => effect_queue hs h hq,
      iff_of_true (requestsAgree_of_untouched hs ha huntouched) fun who q l _ hl => ?_⟩
    rw [oneToMany_eq_some] at hl
    rw [hs.agent c who l hl] at hc
    cases hc
    exact absurd rfl hagent
  subst agent
  have hqueue (q : ℕ) (entry : ParachainStakingLedgerUpdateEntry AccountId) (timeout : ℕ)
      (hq : (s₁.depositEvent e).delegatorLedgerXcmUpdateQueue q =
        some (.parachainStaking entry, timeout)) : entry.updateOperation ≠ .leaveDelegator :=
    effect_queue hs h hq
  cases h with
  | quiet x L es hx hes he =>
    have huntouched (c' : CurrencyId) (who' : MultiLocation AccountId) :
        Untouched s ((s.around x L es).depositEvent e) c' who' := by
      refine ⟨rfl, fun _ => ?_⟩
      have hevents : ((s.around x L es).depositEvent e).events = s.events ++ es ++ [e] := rfl
      rw [hevents, leavePending_concat, leavePending_eq fun e he => (hes e he).leave_eq,
        (he rfl).leave_eq, Option.getD_none]
    refine ⟨accountable_of_forall hs huntouched hqueue,
      iff_of_true (requestsAgree_of_untouched hs ha huntouched) fun who q l heq _ => ?_⟩
    rw [heq] at he
    exact (he rfl).elim
  | queued s₀ s₁ entry q hopens hqueued hentry =>
    obtain ⟨hs₀, ha₀⟩ := opens_agree hs ha hc hopens
    have huntouched := queued_untouched hs₀ hc hqueued hentry
    refine ⟨accountable_of_forall hs₀ huntouched hqueue,
      iff_of_true (requestsAgree_of_untouched hs₀ ha₀ huntouched) fun who q l heq _ => ?_⟩
    cases entry with
    | substrate entry => exact hentry.elim
    | moonbeam entry => exact hentry.elim
    | parachainStaking entry =>
      have hleave := ReportedBy.leave_ne hentry.2.2.2 hentry.2.2.1 c who
      rw [heq] at hleave
      exact absurd (if_pos ⟨rfl, rfl⟩) hleave
  | nominated r x L es q who validators hpolkadot hq hes => cases hpolkadot
  | native s₀ entry l l' L occ hagent hbnc hopens hget hupdate hfits he =>
    obtain ⟨hs₀, ha₀⟩ := opens_agree hs ha hc hopens
    obtain ⟨hs', hiff⟩ := native_agrees_iff hs₀ ha₀ hbnc (oneToMany_eq_some.mpr hget) hupdate hfits
      he (fun c' who' => oneToMany_setLedger s₀ c c' entry.delegatorId who' _)
      (congrArg (· ++ [e]) (List.append_nil s₀.events)) hqueue
    refine ⟨hs', hiff.trans (forall_congr' fun who => forall_congr' fun q => ?_)⟩
    rcases hopens.oneToMany_eq c who with heq | ⟨-, hnone, hopened⟩
    · rw [heq]
    · refine iff_of_true (fun l _ hl => ?_) fun l _ hl => ?_
      · rw [hl] at hopened
        rcases hopened with hopened | ⟨-, hopened⟩
        · cases hopened
        · cases hopened
          rfl
      · rw [hnone] at hl
        cases hl
  | phala s₀ who l es hphala hopens hes => cases hphala

end Operations

/-! Calls. -/

/-- The requests a call adds fit the ledgers: `unbond_all` is for a delegator without delegations,
and an entry that is confirmed fits the ledger it is applied to. -/
def RequestsFit (s : State cfg) (call : Call cfg) : Prop :=
  (∀ origin c who wf l, call = .operate origin c (.unbondAll who wf) →
    s.getLedger c who = some (.parachainStaking l) → l.delegations.entries = []) ∧
  ∀ entry l, s.confirmed call = some (.parachainStaking entry) →
    s.getLedger entry.currencyId entry.delegatorId = some (.parachainStaking l) → l.Fits entry

theorem Tuned.oneToMany_eq (h : Tuned c s s') (c' : CurrencyId) (who' : MultiLocation AccountId) :
    s'.oneToMany c' who' = s.oneToMany c' who' := by
  cases h with
  | nothing => rfl
  | bonded who n l l' hget hl =>
    rw [oneToMany_setLedger]
    split
    · rename_i heq
      rw [heq.1, heq.2, State.oneToMany, hget]
      rfl
    · rfl

theorem Noted.untouched {es : List (Event AccountId)} (h : Noted es s s')
    (hes : ∀ e ∈ es, e.IsNote c) (c' : CurrencyId) (who' : MultiLocation AccountId) :
    Untouched s s' c' who' := by
  constructor
  · rw [State.oneToMany, State.getLedger, h.ledgers]
    rfl
  · intro _
    rw [h.events, leavePending_eq fun e he => (hes e he).leave_eq]

theorem queue_setLedgerQuery (hs : s.Accountable) {q q' : ℕ}
    {timeout : ℕ} (h : (s.setLedgerQuery q' none).delegatorLedgerXcmUpdateQueue q =
      some (.parachainStaking entry, timeout)) : entry.updateOperation ≠ .leaveDelegator := by
  have hupdate : Function.update s.delegatorLedgerXcmUpdateQueue q' none q = _ := h
  by_cases heq : q = q'
  · rw [heq, Function.update_self] at hupdate
    cases hupdate
  · rw [Function.update_of_ne heq] at hupdate
    exact hs.queue q entry timeout hupdate

theorem AppliedBy.oneToMany_inv {entry : LedgerUpdateEntry AccountId} {l l' : Ledger AccountId}
    (h : AppliedBy agent entry who l l') :
    (l.oneToMany = none ∧ l'.oneToMany = none ∧ ∀ e, entry ≠ .parachainStaking e) ∨
      ∃ e l₁ l₂, agent = .parachainStaking ∧ entry = .parachainStaking e ∧ e.delegatorId = who ∧
        e.currencyId ≠ bnc ∧ l = .parachainStaking l₁ ∧ l' = .parachainStaking l₂ ∧
        l₁.update e = .ok l₂ := by
  cases h with
  | polkadot entry l l' h => exact Or.inl ⟨rfl, rfl, fun e h => nomatch h⟩
  | astar entry l l' h => exact Or.inl ⟨rfl, rfl, fun e h => nomatch h⟩
  | phala entry l l' h => exact Or.inl ⟨rfl, rfl, fun e h => nomatch h⟩
  | parachainStaking entry l l' hc h =>
    exact Or.inr ⟨entry, l, l', rfl, rfl, rfl, hc, rfl, rfl, h⟩

theorem confirmed_agrees_iff (hs : s.Accountable) (ha : s.RequestsAgree) {q : ℕ}
    {entry : LedgerUpdateEntry AccountId} (h : LedgerAnswer q s (some entry) s') :
    s'.Accountable ∧ (s'.RequestsAgree ↔ ∀ e l, entry = .parachainStaking e →
      s.getLedger e.currencyId e.delegatorId = some (.parachainStaking l) → l.Fits e) := by
  cases h with
  | confirmed _ timeout c agent who l l' occ hq hdue hc hagent hget hl =>
    rcases hl.oneToMany_inv with ⟨hnone, hnone', hother⟩ | ⟨e, l₁, l₂, rfl, rfl, rfl, hbnc, rfl, rfl,
      hupdate⟩
    · have huntouched (c' : CurrencyId) (who' : MultiLocation AccountId) :
          Untouched s (State.depositEvent { (s.setLedger c who (some l')).setLedgerQuery q none with
            delegationsOccupied := occ } (.delegatorLedgerQueryResponseConfirmed q entry))
            c' who' := by
        refine ⟨(oneToMany_setLedger s c c' who who' (some l')).trans ?_, fun _ => ?_⟩
        · split
          · rename_i heq
            rw [heq.1, heq.2, State.oneToMany, hget, Option.bind_some, Option.bind_some, hnone,
              hnone']
          · rfl
        · exact leavePending_concat _ _
      refine ⟨accountable_of_forall hs huntouched fun q' entry' timeout' hq' =>
          queue_setLedgerQuery hs hq',
        iff_of_true (requestsAgree_of_untouched hs ha huntouched) fun e l he _ => ?_⟩
      exact absurd he (hother e)
    · cases hc
      have hl₁ := oneToMany_eq_some.mpr hget
      obtain ⟨hconsistent, hstatus⟩ := requestsAgree_iff.mp ha _ _ l₁ hl₁
      have hnot : ¬leavePending e.currencyId e.delegatorId s.events = true := fun hp =>
        hbnc (hs.pending _ _ hagent hp).1
      have hactive : ¬l₂.status ≠ .active := by
        rw [(update_status hupdate).1]
        exact hs.queue q e timeout hq
      have hpending : ¬leavePending e.currencyId e.delegatorId
          (s.events ++ [.delegatorLedgerQueryResponseConfirmed q (.parachainStaking e)]) = true := by
        rw [leavePending_concat]
        exact hnot
      refine And.imp_right (fun hiff => hiff.trans ?_) (updated_agrees_iff hs ha hl₁ hupdate
        (fun c' who' => oneToMany_setLedger s _ c' _ who' _)
        (fun c' who' _ => leavePending_concat _ _) (iff_of_false hactive hpending)
        (fun hp => absurd hp hpending) (fun q' entry' timeout' hq' => queue_setLedgerQuery hs hq'))
      refine ⟨fun hfits e' l he hget' => ?_, fun hall => hall e l₁ rfl hget⟩
      cases he
      rw [hget] at hget'
      cases hget'
      exact hfits

theorem removed_agrees (hs : s.Accountable) (ha : s.RequestsAgree)
    (hview : ∀ c' who', s'.oneToMany c' who' =
      if c' = c ∧ who' = who then none else s.oneToMany c' who')
    (hevents : s'.events = s.events ++ [.delegatorRemoved c who])
    (hqueue : s'.delegatorLedgerXcmUpdateQueue = s.delegatorLedgerXcmUpdateQueue) :
    s'.Accountable ∧ s'.RequestsAgree := by
  have huntouched (c' : CurrencyId) (who' : MultiLocation AccountId)
      (hne : ¬(c' = c ∧ who' = who)) : Untouched s s' c' who' := by
    have hother : (Event.delegatorRemoved c who).leave c' who' = none :=
      if_neg fun h => hne ⟨h.1.symm, h.2.symm⟩
    refine ⟨(hview c' who').trans (if_neg hne), fun _ => ?_⟩
    rw [hevents, leavePending_concat, hother, Option.getD_none]
  have hself : s'.oneToMany c who = none := (hview c who).trans (if_pos ⟨rfl, rfl⟩)
  have hcleared : leavePending c who s'.events = false := by
    rw [hevents, leavePending_concat]
    simp [Event.leave]
  constructor
  · refine accountable_of_untouched hs huntouched (fun hsome => ?_) (fun hp => ?_) ?_
    · rw [hself] at hsome
      cases hsome
    · rw [hcleared] at hp
      cases hp
    · rw [hqueue]
      exact hs.queue
  · refine (requestsAgree_iff_of_untouched hs ha huntouched).mpr fun l hl => ?_
    rw [hself] at hl
    cases hl

/-- A call keeps the ledgers in order exactly if its requests fit. -/
theorem agrees_step_iff {call : Call cfg} (hscope : call.KeepsAccount) (hs : s.Accountable)
    (ha : s.RequestsAgree) (h : step s call = .ok s') :
    s'.Accountable ∧ (s'.RequestsAgree ↔ RequestsFit s call) := by
  have hquiet (hnone : s.confirmed call = none)
      (hother : ∀ origin c who wf, call ≠ .operate origin c (.unbondAll who wf))
      (huntouched : ∀ c who, Untouched s s' c who)
      (hqueue : ∀ q entry timeout,
        s'.delegatorLedgerXcmUpdateQueue q = some (.parachainStaking entry, timeout) →
        entry.updateOperation ≠ .leaveDelegator) :
      s'.Accountable ∧ (s'.RequestsAgree ↔ RequestsFit s call) := by
    refine ⟨accountable_of_forall hs huntouched hqueue,
      iff_of_true (requestsAgree_of_untouched hs ha huntouched) ⟨?_, ?_⟩⟩
    · intro origin c who wf l hcall
      exact absurd hcall (hother origin c who wf)
    · intro entry l hentry
      rw [hnone] at hentry
      cases hentry
  have hconcat {e : Event AccountId} (he : ∀ c who, e.leave c who = none) (c : CurrencyId)
      (who : MultiLocation AccountId) :
      leavePending c who (s.events ++ [e]) = leavePending c who s.events := by
    rw [leavePending_concat, he, Option.getD_none]
  cases step_ok h with
  | operated origin c operation agent e s₁ hauth hagent heffect he hleave =>
    obtain ⟨hs', hiff⟩ := effect_agrees_iff hs ha hagent he heffect
    refine ⟨hs', hiff.trans ?_⟩
    simp only [RequestsFit, oneToMany_eq_some]
    constructor
    · intro hall
      refine ⟨?_, fun entry l hentry => by cases hentry⟩
      intro origin' c' who wf l heq hget
      cases heq
      obtain ⟨q, hq⟩ := (hleave who).mpr ⟨wf, rfl⟩
      exact hall who q l hq hget
    · rintro ⟨hall, -⟩ who q l hq hget
      obtain ⟨wf, rfl⟩ := (hleave who).mp ⟨q, hq⟩
      exact hall origin c who wf l rfl hget
  | noted _ _ c es hcall hnoted hes =>
    refine hquiet (confirmed_eq_none hcall.answersLedger_eq) ?_ (hnoted.untouched hes) ?_
    · rintro origin c who wf rfl
      exact hcall
    · rw [hnoted.ledgerQueue]
      exact hs.queue
  | tuned origin c poolValue delegatorValue who s₁ _ es hauth htuned hnoted hes =>
    have hsame : s₁.events = s.events ∧
        s₁.delegatorLedgerXcmUpdateQueue = s.delegatorLedgerXcmUpdateQueue := by
      cases htuned with
      | nothing => exact ⟨rfl, rfl⟩
      | bonded who n l l' hget hl => exact ⟨rfl, rfl⟩
    refine hquiet rfl (by simp) (fun c' who' => ?_) ?_
    · obtain ⟨hview, hevents⟩ := hnoted.untouched hes c' who'
      exact ⟨hview.trans (htuned.oneToMany_eq c' who'), fun hc => by rw [hevents hc, hsame.1]⟩
    · rw [hnoted.ledgerQueue, hsame.2]
      exact hs.queue
  | ledgerSet origin c who ledger hauth => exact hscope.elim
  | ledgerAnswered _ q _ hcall hanswer =>
    have hother : ∀ origin c who wf, call ≠ .operate origin c (.unbondAll who wf) := by
      rintro origin c who wf rfl
      cases hcall
    cases hentry : s.confirmed call with
    | none =>
      rw [hentry] at hanswer
      cases hanswer with
      | failed entry timeout c hq hc =>
        exact hquiet hentry hother (fun c' who' => ⟨rfl, fun _ => hconcat (fun _ _ => rfl) c' who'⟩)
          fun q' entry' timeout' hq' => queue_setLedgerQuery hs hq'
    | some entry =>
      rw [hentry] at hanswer
      obtain ⟨hs', hiff⟩ := confirmed_agrees_iff hs ha hanswer
      refine ⟨hs', hiff.trans ⟨fun hall => ⟨?_, ?_⟩, fun hall e l he => ?_⟩⟩
      · intro origin c who wf l heq
        exact absurd heq (hother origin c who wf)
      · intro e l he
        rw [hentry] at he
        exact hall e l (Option.some.inj he)
      · exact hall.2 e l (by rw [hentry, he])
  | validatorsAnswered _ q _ hcall hanswer =>
    have hother : ∀ origin c who wf, call ≠ .operate origin c (.unbondAll who wf) := by
      rintro origin c who wf rfl
      cases hcall
    refine hquiet (confirmed_eq_none (answersLedger_eq_none hcall)) hother ?_ ?_
    · intro c' who'
      cases hanswer with
      | confirmed entry timeout hq hdue =>
        exact ⟨rfl, fun _ => hconcat (fun _ _ => rfl) c' who'⟩
      | failed entry timeout hq => exact ⟨rfl, fun _ => hconcat (fun _ _ => rfl) c' who'⟩
    · cases hanswer with
      | confirmed entry timeout hq hdue => exact hs.queue
      | failed entry timeout hq => exact hs.queue
  | removed origin c who settings horigin =>
    refine And.imp_right (fun ha' => iff_of_true ha' ?_) (removed_agrees hs ha
      (oneToMany_setLedger { s with settings := settings } c · who · none) rfl rfl)
    exact ⟨fun _ _ _ _ _ hcall => (by cases hcall), fun _ _ hentry => (by cases hentry)⟩
  | validatorsSet origin c who validators list horigin =>
    exact hquiet rfl (by simp)
      (fun c' who' => ⟨rfl, fun _ => hconcat (fun _ _ => rfl) c' who'⟩) hs.queue
  | governed settings boostList =>
    exact hquiet rfl (by simp) (fun _ _ => ⟨rfl, fun _ => rfl⟩) hs.queue
  | otherQuery responder timeout =>
    exact hquiet rfl (by simp) (fun _ _ => ⟨rfl, fun _ => rfl⟩) hs.queue

theorem accountable_genesis (settings : Settings AccountId)
    (minting : VtokenMinting.State cfg.minting) (xcm : cfg.Xcm) :
    (genesis cfg settings minting xcm).Accountable where
  agent := by
    intro c who l hget
    simp [State.getLedger, genesis] at hget
  pending := by
    intro c who _ hp
    cases hp
  queue := by
    intro q entry timeout hq
    cases hq

theorem requestsAgree_genesis (settings : Settings AccountId)
    (minting : VtokenMinting.State cfg.minting) (xcm : cfg.Xcm) :
    (genesis cfg settings minting xcm).RequestsAgree := by
  intro c who l hget
  simp [State.getLedger, genesis] at hget

/-- From empty storage, the requests of every ledger agree in all states of exactly those runs
whose requests fit. -/
theorem one_to_many_ledgers_agree_iff (settings : Settings AccountId)
    (minting : VtokenMinting.State cfg.minting) (xcm : cfg.Xcm) (calls : List (Call cfg))
    (hcalls : ∀ call ∈ calls, call.KeepsAccount) :
    Always step State.RequestsAgree (genesis cfg settings minting xcm) calls ↔
      Meets step RequestsFit (genesis cfg settings minting xcm) calls := by
  have hstep (s : State cfg) (call : Call cfg) (s' : State cfg) (hcall : call.KeepsAccount)
      (hs : s.Accountable) (ha : s.RequestsAgree) (h : step s call = .ok s') :
      (s'.RequestsAgree ↔ RequestsFit s call) ∧ (s'.RequestsAgree → s'.Accountable) := by
    obtain ⟨hs', hiff⟩ := agrees_step_iff hcall hs ha h
    exact ⟨hiff, fun _ => hs'⟩
  exact always_iff_meets (I := State.Accountable) hstep hcalls
    (accountable_genesis settings minting xcm) (requestsAgree_genesis settings minting xcm)

namespace Sample

def bondedBnc : List (Call config) :=
  [.operate (.signed 3) bnc (.bond delegator 100 (some collator) none)]

def unbondedBnc : List (Call config) :=
  bondedBnc ++ [.operate (.signed 3) bnc (.unbond delegator (some collator) 40 none)]

def leftBnc : List (Call config) :=
  bondedBnc ++ [.operate (.signed 3) bnc (.unbondAll delegator none)]

end Sample

/-- One request for less fits. -/
theorem one_to_many_ledgers_agree_sample :
    Always step State.RequestsAgree Sample.start Sample.unbondedBnc := by
  refine (@one_to_many_ledgers_agree_iff _ _ Sample.config Sample.settings Sample.minting (0 : ℕ)
    Sample.unbondedBnc ?_).mpr ?_
  · simp [Sample.unbondedBnc, Sample.bondedBnc, Call.KeepsAccount]
  · exact ⟨fun _ _ => ⟨fun _ _ _ _ _ => nofun, fun _ _ => nofun⟩,
      fun _ _ => ⟨fun _ _ _ _ _ => nofun, fun _ _ => nofun⟩, trivial⟩

/-- `unbond_all` leaves one request in the list and none in the map. -/
theorem leave_forgets_briefs :
    let s := run step Sample.start Sample.leftBnc
    (∃ l, s.getLedger bnc Sample.delegator = some (.parachainStaking l) ∧
      l.requests.length = 1 ∧ l.requestBriefs.entries = []) ∧ ¬ s.RequestsAgree := by
  have hledger : ∃ l, (run step Sample.start Sample.leftBnc).getLedger bnc Sample.delegator =
      some (.parachainStaking l) ∧ l.requests.length = 1 ∧ l.requestBriefs.entries = [] :=
    ⟨_, rfl, rfl, rfl⟩
  refine ⟨hledger, fun hagree => ?_⟩
  obtain ⟨l, hget, hrequests, hbriefs⟩ := hledger
  have hlength := (hagree bnc Sample.delegator l hget).1.named.length_eq
  rw [List.length_map, hrequests, hbriefs] at hlength
  cases hlength

end Bifrost.Slp
