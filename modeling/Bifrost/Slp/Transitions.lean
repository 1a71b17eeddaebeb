import Bifrost.Slp.Calls

/-!
# What the functions of the slp pallet do

One lemma for each function: the storage a successful call leaves, written as the storage before
with the changed items replaced. An operation for a currency has one of four effects on the
ledgers and queues, all of them under that currency.
-/

namespace Bifrost.Slp

open Result
set_option autoImplicit false

variable {AccountId : Type} {cfg : Config AccountId} {s s' : State cfg} {c : CurrencyId}
  {who : MultiLocation AccountId}

/-- An event of an operation on `c`; the answers to queries are not among them. -/
def Event.About (c : CurrencyId) : Event AccountId → Prop
  | .delegatorBonded c' _ _ _ _ | .delegatorBondExtra c' _ _ _ _ | .delegatorUnbond c' _ _ _ _
  | .delegatorUnbondAll c' _ _ | .delegatorRebond c' _ _ _ _ | .delegated c' _ _ _
  | .undelegated c' _ _ _ | .payout c' _ _ | .liquidize c' _ _ _ _ | .chill c' _ _
  | .transferBack c' _ _ _ | .transferTo c' _ _ _ | .convertAsset c' _ _ | .delegatorRemoved c' _
  | .timeUnitUpdated c' _ _ | .poolTokenIncreased c' _ | .hostingFeeCharged c' _
  | .validatorsByDelegatorSet c' _ _ | .delegatorLedgerSet c' _ _
  | .outdatedValidatorBoostListCleaned c' _ _ _ | .burnFeeFailed c' _ => c' = c
  | .delegatorLedgerQueryResponseConfirmed _ _ | .delegatorLedgerQueryResponseFailed _
  | .validatorsByDelegatorQueryResponseConfirmed _ _
  | .validatorsByDelegatorQueryResponseFailed _ => False

/-- A fee that could not be burned. -/
def Event.IsBurn (c : CurrencyId) (e : Event AccountId) : Prop := ∃ fee, e = .burnFeeFailed c fee

theorem Event.IsBurn.about {e : Event AccountId} (h : e.IsBurn c) : e.About c := by
  obtain ⟨fee, rfl⟩ := h
  rfl

/-- The storage after messages and fees on the way: the other pallets, the numbering of queries
and the log have moved on. -/
def State.around (s : State cfg) (xcm : cfg.Xcm) (outside : cfg.minting.currency.Ledger)
    (es : List (Event AccountId)) : State cfg :=
  { s with
    xcm := xcm
    minting := { s.minting with ledger := outside }
    events := s.events ++ es }

/-! Messages and fees. -/

theorem burnFee_ok {fee : ℕ} (h : s.burnFeeFromSourceAccount fee c = .ok s') :
    ∃ L es, (∀ e ∈ es, e.IsBurn c) ∧ s' = s.around s.xcm L es := by
  simp only [State.burnFeeFromSourceAccount, bind_eq_ok] at h
  obtain ⟨-, -, -, -, source, -, h⟩ := h
  split at h
  · rename_i L _
    simp only [pure_eq_ok] at h
    subst s'
    exact ⟨L, [], List.forall_mem_nil _, by simp [State.around, State.withOutside]⟩
  · simp only [pure_eq_ok] at h
    subst s'
    exact ⟨s.outside, [.burnFeeFailed c fee], List.forall_mem_singleton.mpr ⟨fee, rfl⟩, rfl⟩

theorem sendXcm_ok {message : XcmMessage AccountId}
    (h : s.sendXcm c message = .ok s') : ∃ L, s' = s.withOutside L := by
  simp only [State.sendXcm, bind_eq_ok, pure_eq_ok] at h
  obtain ⟨-, -, L, -, rfl⟩ := h
  exact ⟨L, rfl⟩

theorem sendWithoutRecord_ok {operation : XcmOperationType} {call : RemoteCall AccountId}
    {wf : Option (ℕ × ℕ)} (h : s.sendWithoutRecord operation call who c wf = .ok s') :
    ∃ L es, (∀ e ∈ es, e.IsBurn c) ∧ s' = s.around s.xcm L es := by
  simp only [State.sendWithoutRecord, State.constructXcmAndSendAsSubaccountWithoutQueryId,
    bind_eq_ok, pure_eq_ok] at h
  obtain ⟨_, ⟨_, -, _, -, s₁, hsend, rfl⟩, hburn⟩ := h
  obtain ⟨L, rfl⟩ := sendXcm_ok hsend
  obtain ⟨L', es, hes, rfl⟩ := burnFee_ok hburn
  exact ⟨L', es, hes, rfl⟩

theorem sendWithRecord_ok {operation : XcmOperationType} {call : RemoteCall AccountId}
    {wf : Option (ℕ × ℕ)} {record : State cfg → ℕ → ℕ → Except Fault (State cfg)} {q : ℕ}
    (h : s.sendWithRecord operation call who c wf record = .ok (q, s')) :
    ∃ r x L es s₂ L', cfg.newNotifyQuery s.xcm r s.timeout = (q, x) ∧ (∀ e ∈ es, e.IsBurn c) ∧
      record (s.around x L es) q s.timeout = .ok s₂ ∧ s' = s₂.withOutside L' := by
  simp only [State.sendWithRecord, State.constructXcmAsSubaccountWithQueryId, State.getQueryId,
    bind_eq_ok, pure_eq_ok] at h
  obtain ⟨_, ⟨_, ⟨r, -, rfl⟩, _, -, _, -, rfl⟩, s₁, hburn, s₂, hrecord, s₃, hsend, heq⟩ := h
  cases heq
  obtain ⟨L, es, hes, rfl⟩ := burnFee_ok hburn
  obtain ⟨L', rfl⟩ := sendXcm_ok hsend
  exact ⟨r, _, L, es, s₂, L', rfl, hes, hrecord, rfl⟩

/-! Ledgers and queues. -/

theorem asSubstrate_ok {ledger : Ledger AccountId} {l : SubstrateLedger AccountId}
    (h : ledger.asSubstrate = .ok l) : ledger = .substrate l := by
  cases ledger with
  | substrate l' =>
    simp only [Ledger.asSubstrate, pure_eq_ok] at h
    rw [h]
  | moonbeam l' => simp [Ledger.asSubstrate] at h
  | parachainStaking l' => simp [Ledger.asSubstrate] at h
  | phala l' => simp [Ledger.asSubstrate] at h

theorem insertSubstrateEntry_ok {operation : SubstrateLedgerUpdateOperation} {n q timeout : ℕ}
    (h : s.insertSubstrateEntry who operation n q timeout c = .ok s') :
    ∃ u, s' = s.setLedgerQuery q (some (.substrate ⟨c, who, operation, n, u⟩, timeout)) := by
  simp only [State.insertSubstrateEntry, bind_eq_ok, pure_eq_ok] at h
  obtain ⟨u, -, rfl⟩ := h
  exact ⟨u, rfl⟩

theorem insertParachainStakingEntry_ok {validator : Option (MultiLocation AccountId)}
    {operation : ParachainStakingLedgerUpdateOperation} {n q timeout : ℕ}
    (h : s.insertParachainStakingEntry who validator operation n q timeout c = .ok s') :
    ∃ u, s' = s.setLedgerQuery q
      (some (.parachainStaking ⟨c, who, validator, operation, n, u⟩, timeout)) := by
  simp only [State.insertParachainStakingEntry, bind_eq_ok, pure_eq_ok] at h
  obtain ⟨u, -, rfl⟩ := h
  exact ⟨u, rfl⟩

theorem updateAllOccupied_ok (h : s.updateAllOccupiedStatusStorage c = .ok s') :
    ∃ occ, s' = { s with delegationsOccupied := occ } := by
  simp only [State.updateAllOccupiedStatusStorage, bind_eq_ok, pure_eq_ok] at h
  obtain ⟨occ, -, rfl⟩ := h
  exact ⟨_, rfl⟩

section Ledgers

variable [DecidableEq AccountId]

theorem getLedger_setLedger (s : State cfg) (c c' : CurrencyId) (who who' : MultiLocation AccountId)
    (o : Option (Ledger AccountId)) :
    (s.setLedger c who o).getLedger c' who' =
      if c' = c ∧ who' = who then o else s.getLedger c' who' := by
  simp only [State.getLedger, State.setLedger]
  by_cases hc : c' = c
  · subst c'
    simp [Table.get_write]
  · simp [hc]

@[simp] theorem getLedger_setLedger_self (s : State cfg) (c : CurrencyId)
    (who : MultiLocation AccountId) (o : Option (Ledger AccountId)) :
    (s.setLedger c who o).getLedger c who = o := by
  simp [getLedger_setLedger]

theorem oneToManyLedger_ok {e : Error}
    {l : OneToManyLedger AccountId} (h : s.oneToManyLedger c who e = .ok l) :
    s.getLedger c who = some (.parachainStaking l) := by
  unfold State.oneToManyLedger at h
  split at h
  · rename_i heq
    rw [heq, pure_eq_ok.mp h]
  · simp at h

theorem phalaLedger_ok {e : Error} {l : PhalaLedger AccountId} (h : s.phalaLedger c who e = .ok l) :
    s.getLedger c who = some (.phala l) := by
  unfold State.phalaLedger at h
  split at h
  · rename_i heq
    rw [heq, pure_eq_ok.mp h]
  · simp at h

theorem mutateSubstrate_ok
    {f : SubstrateLedger AccountId → Except Fault (SubstrateLedger AccountId)}
    (h : s.mutateSubstrate c who f = .ok s') :
    ∃ l l', s.getLedger c who = some (.substrate l) ∧ f l = .ok l' ∧
      s' = s.setLedger c who (some (.substrate l')) := by
  simp only [State.mutateSubstrate, bind_eq_ok, okOr_eq_ok, pure_eq_ok] at h
  obtain ⟨ledger, hget, l, hl, l', hf, rfl⟩ := h
  rw [asSubstrate_ok hl] at hget
  exact ⟨l, l', hget, hf, rfl⟩

theorem mutateOneToMany_ok
    {f : OneToManyLedger AccountId → Except Fault (OneToManyLedger AccountId)}
    (h : s.mutateOneToMany c who f = .ok s') :
    ∃ l l', s.getLedger c who = some (.parachainStaking l) ∧ f l = .ok l' ∧
      s' = s.setLedger c who (some (.parachainStaking l')) := by
  simp only [State.mutateOneToMany, bind_eq_ok, pure_eq_ok] at h
  obtain ⟨l, hget, l', hf, rfl⟩ := h
  exact ⟨l, l', oneToManyLedger_ok hget, hf, rfl⟩

theorem mutatePhala_ok {e : Error}
    {f : PhalaLedger AccountId → Except Fault (PhalaLedger AccountId)}
    (h : s.mutatePhala c who e f = .ok s') :
    ∃ l l', s.getLedger c who = some (.phala l) ∧ f l = .ok l' ∧
      s' = s.setLedger c who (some (.phala l')) := by
  simp only [State.mutatePhala, bind_eq_ok, pure_eq_ok] at h
  obtain ⟨l, hget, l', hf, rfl⟩ := h
  exact ⟨l, l', phalaLedger_ok hget, hf, rfl⟩

end Ledgers

end Bifrost.Slp
