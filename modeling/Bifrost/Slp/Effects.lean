import Bifrost.Slp.Transitions

/-!
# The effects of the operations

An operation for a currency has one of four effects on the ledgers and queues, all of them under
that currency: none, a ledger update waiting for its response, a nomination waiting for it, or a
ledger changed at once. It may open the ledger it is for.
-/

namespace Bifrost.Slp

open Result
set_option autoImplicit false

variable {AccountId : Type} {cfg : Config AccountId} {s s' : State cfg} {c : CurrencyId}
  {who : MultiLocation AccountId} {wf : Option (ℕ × ℕ)} {n q : ℕ}
  {validator : Option (MultiLocation AccountId)} {operation : XcmOperationType}
  {call : RemoteCall AccountId}

/-- The ledger an operation of the agent opens for `who`. -/
inductive Opened (who : MultiLocation AccountId) :
    Agent → Option (Ledger AccountId) → Ledger AccountId → Prop where
  | substrate (agent : Agent) (hagent : agent = .polkadot ∨ agent = .astar) :
      Opened who agent none (.substrate ⟨who, 0, 0, []⟩)
  | oneToMany (o : Option (Ledger AccountId)) (ho : ∀ l, o ≠ some (.parachainStaking l)) :
      Opened who .parachainStaking o (.parachainStaking (.empty who))
  | phala : Opened who .phala none (.phala (.empty who))

/-- A message is on its way and `entry` waits for its response under the next query id. -/
def Queued (s : State cfg) (c : CurrencyId) (entry : LedgerUpdateEntry AccountId) (q : ℕ)
    (s' : State cfg) : Prop :=
  ∃ r x L es, cfg.newNotifyQuery s.xcm r s.timeout = (q, x) ∧ (∀ e ∈ es, e.IsBurn c) ∧
    s' = (s.around x L es).setLedgerQuery q (some (entry, s.timeout))

theorem sendWithRecord_substrate {update : SubstrateLedgerUpdateOperation}
    (h : s.sendWithRecord operation call who c wf (fun s queryId timeout =>
      s.insertSubstrateEntry who update n queryId timeout c) = .ok (q, s')) :
    ∃ u, Queued s c (.substrate ⟨c, who, update, n, u⟩) q s' := by
  obtain ⟨r, x, L, es, s₂, L', hq, hes, hrecord, rfl⟩ := sendWithRecord_ok h
  obtain ⟨u, rfl⟩ := insertSubstrateEntry_ok hrecord
  exact ⟨u, r, x, L', es, hq, hes, rfl⟩

theorem sendWithRecord_parachainStaking {update : ParachainStakingLedgerUpdateOperation}
    (h : s.sendWithRecord operation call who c wf (fun s queryId timeout =>
      s.insertParachainStakingEntry who validator update n queryId timeout c) = .ok (q, s')) :
    ∃ u, Queued s c (.parachainStaking ⟨c, who, validator, update, n, u⟩) q s' := by
  obtain ⟨r, x, L, es, s₂, L', hq, hes, hrecord, rfl⟩ := sendWithRecord_ok h
  obtain ⟨u, rfl⟩ := insertParachainStakingEntry_ok hrecord
  exact ⟨u, r, x, L', es, hq, hes, rfl⟩

/-- `e` is the event of the operation that makes such an update of the ledger of `who`. -/
def ParachainStakingLedgerUpdateOperation.ReportedBy (c : CurrencyId)
    (who : MultiLocation AccountId) (e : Event AccountId) :
    ParachainStakingLedgerUpdateOperation → Prop
  | .bond => ∃ n q v, e = .delegatorBonded c who n q v ∨ e = .delegatorBondExtra c who n q v
  | .bondLess => ∃ n q v, e = .delegatorUnbond c who n q v
  | .revoke => ∃ targets q, e = .undelegated c who targets q
  | .cancelRequest => ∃ n q v, e = .delegatorRebond c who n q v
  | .leaveDelegator => ∃ q, e = .delegatorUnbondAll c who q
  | .cancelLeave => ∃ targets q, e = .delegated c who targets q
  | .executeLeave | .executeRequest => ∃ time q n, e = .liquidize c who time q n

/-- The entries an agent sends for; none asks for leaving by message. -/
def LedgerUpdateEntry.SentBy (c : CurrencyId) (e : Event AccountId) :
    Agent → LedgerUpdateEntry AccountId → Prop
  | .parachainStaking, .parachainStaking entry =>
    entry.currencyId = c ∧ c ≠ bnc ∧ entry.updateOperation ≠ .leaveDelegator ∧
      entry.updateOperation.ReportedBy c entry.delegatorId e
  | .polkadot, .substrate entry | .phala, .substrate entry | .astar, .substrate entry =>
    entry.currencyId = c
  | _, _ => False

/-- What an operation that changes no ledger of the parachain staking reports. -/
def Event.IsTransfer : Event AccountId → Prop
  | .transferBack _ _ _ _ | .transferTo _ _ _ _ => True
  | _ => False

theorem ParachainStakingAgent.nativeStaking_ok {call : NativeStaking AccountId}
    (h : ParachainStakingAgent.nativeStaking s call = .ok s') :
    ∃ L, s' = s.withOutside L := by
  simp only [ParachainStakingAgent.nativeStaking, bind_eq_ok, pure_eq_ok] at h
  obtain ⟨L, -, rfl⟩ := h
  exact ⟨L, rfl⟩

theorem queried_ok {x : Except Fault (ℕ × State cfg)} {event : ℕ → Event AccountId}
    (h : queried x event = .ok s') :
    ∃ q s₁, x = .ok (q, s₁) ∧ s' = s₁.depositEvent (event q) := by
  simp only [queried, bind_eq_ok, pure_eq_ok] at h
  obtain ⟨⟨q, s₁⟩, hx, rfl⟩ := h
  exact ⟨q, s₁, hx, rfl⟩

theorem reported_ok {x : Except Fault (State cfg)} {event : Event AccountId}
    (h : reported x event = .ok s') : ∃ s₁, x = .ok s₁ ∧ s' = s₁.depositEvent event := by
  simp only [reported, bind_eq_ok, pure_eq_ok] at h
  obtain ⟨s₁, hx, rfl⟩ := h
  exact ⟨s₁, hx, rfl⟩

theorem withOutside_eq_around (s : State cfg) (L : cfg.minting.currency.Ledger) :
    s.withOutside L = s.around s.xcm L [] := by
  simp [State.withOutside, State.around]

variable [DecidableEq AccountId]

/-- The checks of the calls: what a pending request needs of the ledger it is added to. -/
def OneToManyLedger.Fits (ledger : OneToManyLedger AccountId)
    (entry : ParachainStakingLedgerUpdateEntry AccountId) : Prop :=
  match entry.updateOperation with
  | .bondLess => ∃ v d, entry.validatorId = some v ∧ ledger.delegations.get v = some d ∧
      entry.amount ≤ d ∧ ledger.requestBriefs.get v = none
  | .revoke => ∃ v, entry.validatorId = some v ∧ ledger.requestBriefs.get v = none
  | .leaveDelegator => ledger.delegations.entries = []
  | _ => True

/-- The storage with that ledger, if the operation opens one. -/
inductive Opens (agent : Agent) (c : CurrencyId) (s : State cfg) : State cfg → Prop where
  | nothing : Opens agent c s s
  | ledger (who : MultiLocation AccountId) (l : Ledger AccountId)
      (h : Opened who agent (s.getLedger c who) l) : Opens agent c s (s.setLedger c who (some l))

/-- What an operation for `c` does before it deposits its event `e`. -/
inductive Effect (agent : Agent) (c : CurrencyId) (e : Event AccountId) (s : State cfg) :
    State cfg → Prop where
  | quiet (x : cfg.Xcm) (L : cfg.minting.currency.Ledger) (es : List (Event AccountId))
      (hx : x = s.xcm ∨ ∃ r, x = (cfg.newNotifyQuery s.xcm r s.timeout).2)
      (hes : ∀ e ∈ es, e.IsBurn c) (he : agent = .parachainStaking → e.IsTransfer) :
      Effect agent c e s (s.around x L es)
  | queued (s₀ s' : State cfg) (entry : LedgerUpdateEntry AccountId) (q : ℕ)
      (hopens : Opens agent c s s₀) (hqueued : Queued s₀ c entry q s')
      (hentry : entry.SentBy c e agent) : Effect agent c e s s'
  | nominated (r : ℕ) (x : cfg.Xcm) (L : cfg.minting.currency.Ledger)
      (es : List (Event AccountId)) (q : ℕ) (who : MultiLocation AccountId)
      (validators : List (MultiLocation AccountId)) (hagent : agent = .polkadot)
      (hq : cfg.newNotifyQuery s.xcm r s.timeout = (q, x)) (hes : ∀ e ∈ es, e.IsBurn c) :
      Effect agent c e s
        ((s.around x L es).setValidatorsQuery q (some (⟨c, who, validators⟩, s.timeout)))
  | native (s₀ : State cfg) (entry : ParachainStakingLedgerUpdateEntry AccountId)
      (l l' : OneToManyLedger AccountId) (L : cfg.minting.currency.Ledger)
      (occ : CurrencyId → Option Bool) (hagent : agent = .parachainStaking) (hc : c = bnc)
      (hopens : Opens agent c s s₀)
      (hget : s₀.getLedger c entry.delegatorId = some (.parachainStaking l))
      (hupdate : l.update entry = .ok l')
      (hfits : entry.updateOperation ≠ .leaveDelegator → l.Fits entry)
      (he : entry.updateOperation.ReportedBy c entry.delegatorId e) :
      Effect agent c e s { (s₀.around s₀.xcm L []).setLedger c entry.delegatorId
        (some (.parachainStaking l')) with delegationsOccupied := occ }
  | phala (s₀ : State cfg) (who : MultiLocation AccountId) (l : PhalaLedger AccountId)
      (es : List (Event AccountId)) (hagent : agent = .phala) (hopens : Opens agent c s s₀)
      (hes : ∀ e ∈ es, e.About c) :
      Effect agent c e s ((s₀.setLedger c who (some (.phala l))).around s₀.xcm s₀.outside es)

variable {agent : Agent} {e : Event AccountId} {amount : Option ℕ}
  {targets : List (MultiLocation AccountId)}

theorem Opens.eq {s₀ : State cfg} (h : Opens agent c s s₀) :
    ∃ ledgers, s₀ = { s with delegatorLedgers := ledgers } ∧
      ∀ c', c' ≠ c → ledgers c' = s.delegatorLedgers c' := by
  cases h with
  | nothing => exact ⟨s.delegatorLedgers, rfl, fun _ _ => rfl⟩
  | ledger who l h => exact ⟨_, rfl, fun c' hc => Function.update_of_ne hc _ _⟩

theorem Effect.events {s₁ : State cfg} (h : Effect agent c e s s₁) :
    ∃ es, s₁.events = s.events ++ es ∧ (∀ e ∈ es, e.About c) ∧
      (agent = .parachainStaking → ∀ e ∈ es, e.IsBurn c) := by
  cases h with
  | quiet x L es hx hes he => exact ⟨es, rfl, fun e he => (hes e he).about, fun _ => hes⟩
  | queued s₀ s₁ entry q hopens hqueued hentry =>
    obtain ⟨ledgers, rfl, -⟩ := hopens.eq
    obtain ⟨r, x, L, es, -, hes, rfl⟩ := hqueued
    exact ⟨es, rfl, fun e he => (hes e he).about, fun _ => hes⟩
  | nominated r x L es q who validators hagent hq hes =>
    exact ⟨es, rfl, fun e he => (hes e he).about, fun _ => hes⟩
  | native s₀ entry l l' L occ hagent hc hopens hget hupdate hfits he =>
    obtain ⟨ledgers, rfl, -⟩ := hopens.eq
    exact ⟨[], rfl, List.forall_mem_nil _, fun _ => List.forall_mem_nil _⟩
  | phala s₀ who l es hagent hopens hes =>
    obtain ⟨ledgers, rfl, -⟩ := hopens.eq
    refine ⟨es, rfl, hes, fun h => ?_⟩
    rw [hagent] at h
    cases h

theorem Effect.ofOutside (s : State cfg) (L : cfg.minting.currency.Ledger)
    (he : agent = .parachainStaking → e.IsTransfer) : Effect agent c e s (s.withOutside L) := by
  rw [withOutside_eq_around]
  exact .quiet _ _ [] (Or.inl rfl) (List.forall_mem_nil _) he

theorem Effect.ofQueued {entry : LedgerUpdateEntry AccountId} (h : Queued s c entry q s')
    (hentry : entry.SentBy c e agent) : Effect agent c e s s' :=
  .queued s s' entry q .nothing h hentry

theorem sendWithoutRecord_effect (h : s.sendWithoutRecord operation call who c wf = .ok s')
    (he : agent = .parachainStaking → e.IsTransfer) : Effect agent c e s s' := by
  obtain ⟨L, es, hes, rfl⟩ := sendWithoutRecord_ok h
  exact .quiet _ L es (Or.inl rfl) hes he

theorem sendWithRecord_pure
    (h : s.sendWithRecord operation call who c wf (fun s _ _ => pure s) = .ok (q, s'))
    (he : agent = .parachainStaking → e.IsTransfer) :
    Effect agent c e s s' := by
  obtain ⟨r, x, L, es, s₂, L', hq, hes, hrecord, rfl⟩ := sendWithRecord_ok h
  rw [pure_eq_ok] at hrecord
  subst s₂
  exact .quiet x L' es (Or.inr ⟨r, by rw [hq]⟩) hes he

theorem supplementAndTransferTo_effect {source dest : MultiLocation AccountId}
    (h : s.supplementAndTransferTo source dest n c = .ok s')
    (he : agent = .parachainStaking → e.IsTransfer) : Effect agent c e s s' := by
  simp only [State.supplementAndTransferTo, State.getTransferToAddedAmountAndSupplement,
    State.doTransferTo, bind_eq_ok, pure_eq_ok] at h
  obtain ⟨-, -, _, -, -, -, _, ⟨_, -, _, -, _, -, L, -, _, -, rfl⟩, -, -, -, -, _, -, h⟩ := h
  split at h
  · simp only [bind_eq_ok, pure_eq_ok] at h
    obtain ⟨_, -, L', -, rfl⟩ := h
    exact .ofOutside s L' he
  · simp only [bind_eq_ok, pure_eq_ok] at h
    obtain ⟨L', -, rfl⟩ := h
    exact .ofOutside s L' he

/-! The agent for Kusama and Polkadot. -/

namespace PolkadotAgent

theorem bond_effect (h : bond s who n c wf = .ok (q, s')) : Effect .polkadot c e s s' := by
  simp only [bond, bind_eq_ok, ensure_eq_ok] at h
  obtain ⟨-, hnone, -, -, -, -, -, -, -, -, hsend⟩ := h
  obtain ⟨r, x, L, es, s₂, L', hq, hes, hrecord, rfl⟩ := sendWithRecord_ok hsend
  obtain ⟨u, rfl⟩ := insertSubstrateEntry_ok hrecord
  rw [Option.isNone_iff_eq_none] at hnone
  have hopened : Opened who .polkadot (s.getLedger c who) (.substrate ⟨who, 0, 0, []⟩) := by
    rw [hnone]
    exact .substrate _ (Or.inl rfl)
  exact .queued (s.setLedger c who (some (.substrate ⟨who, 0, 0, []⟩))) _
    (.substrate ⟨c, who, .bond, n, u⟩) q (.ledger who _ hopened) ⟨r, x, L', es, hq, hes, rfl⟩ rfl

theorem bondExtra_effect (h : bondExtra s who n c wf = .ok (q, s')) :
    Effect .polkadot c e s s' := by
  simp only [bondExtra, bind_eq_ok] at h
  obtain ⟨-, -, -, -, -, -, -, -, -, -, -, -, -, -, hsend⟩ := h
  obtain ⟨u, hqueued⟩ := sendWithRecord_substrate hsend
  exact .ofQueued hqueued rfl

theorem unbond_effect (h : unbond s who n c wf = .ok (q, s')) : Effect .polkadot c e s s' := by
  simp only [unbond, bind_eq_ok] at h
  obtain ⟨-, -, -, -, -, -, -, -, -, -, -, -, -, -, -, -, hsend⟩ := h
  obtain ⟨u, hqueued⟩ := sendWithRecord_substrate hsend
  exact .ofQueued hqueued rfl

theorem unbondAll_effect (h : unbondAll s who c wf = .ok (q, s')) : Effect .polkadot c e s s' := by
  simp only [unbondAll, bind_eq_ok] at h
  obtain ⟨_, -, l, -, -, -, hsend⟩ := h
  obtain ⟨u, hqueued⟩ := sendWithRecord_substrate hsend
  exact .ofQueued hqueued rfl

theorem rebond_effect (h : rebond s who amount c wf = .ok (q, s')) : Effect .polkadot c e s s' := by
  simp only [rebond, bind_eq_ok] at h
  obtain ⟨_, -, -, -, -, -, -, -, -, -, -, -, -, -, -, -, hsend⟩ := h
  obtain ⟨u, hqueued⟩ := sendWithRecord_substrate hsend
  exact .ofQueued hqueued rfl

theorem nominate_effect {validators : List (MultiLocation AccountId)}
    (h : nominate s who validators c wf = .ok (q, s')) : Effect .polkadot c e s s' := by
  simp only [nominate, bind_eq_ok] at h
  obtain ⟨_, -, -, -, hsend⟩ := h
  obtain ⟨r, x, L, es, s₂, L', hq, hes, hrecord, rfl⟩ := sendWithRecord_ok hsend
  rw [pure_eq_ok] at hrecord
  subst s₂
  exact .nominated r x L' es q who validators rfl hq hes

theorem delegate_effect
    (h : delegate s who targets c wf = .ok (q, s')) : Effect .polkadot c e s s' := by
  simp only [delegate, bind_eq_ok] at h
  obtain ⟨-, -, -, -, -, -, -, -, _, -, hnominate⟩ := h
  exact nominate_effect hnominate

theorem undelegate_effect
    (h : undelegate s who targets c wf = .ok (q, s')) : Effect .polkadot c e s s' := by
  simp only [undelegate, bind_eq_ok] at h
  obtain ⟨-, -, -, -, _, -, -, -, hnominate⟩ := h
  exact nominate_effect hnominate

theorem redelegate_effect {targets : Option (List (MultiLocation AccountId))}
    (h : redelegate s who targets c wf = .ok (q, s')) : Effect .polkadot c e s s' := by
  simp only [redelegate, bind_eq_ok] at h
  obtain ⟨_, -, hdelegate⟩ := h
  exact delegate_effect hdelegate

theorem payout_effect {validator : MultiLocation AccountId} {time : Option TimeUnit}
    (h : payout s who validator time c wf = .ok (q, s')) : Effect .polkadot c e s s' := by
  simp only [payout, bind_eq_ok] at h
  obtain ⟨_, -, h⟩ := h
  split at h
  · simp only [bind_eq_ok, pure_eq_ok, Prod.mk.injEq] at h
    obtain ⟨-, -, s₁, hsend, -, rfl⟩ := h
    exact sendWithoutRecord_effect hsend (by simp)
  · simp at h

theorem liquidize_effect {time : Option TimeUnit} (h : liquidize s who time c wf = .ok (q, s')) :
    Effect .polkadot c e s s' := by
  simp only [liquidize, bind_eq_ok] at h
  obtain ⟨-, -, h⟩ := h
  split at h
  · simp only [bind_eq_ok] at h
    obtain ⟨-, -, hsend⟩ := h
    obtain ⟨u, hqueued⟩ := sendWithRecord_substrate hsend
    exact .ofQueued hqueued rfl
  · simp at h

theorem chill_effect (h : chill s who c wf = .ok (q, s')) : Effect .polkadot c e s s' := by
  simp only [chill, bind_eq_ok] at h
  obtain ⟨-, -, -, -, hsend⟩ := h
  obtain ⟨r, x, L, es, s₂, L', hq, hes, hrecord, rfl⟩ := sendWithRecord_ok hsend
  simp only [bind_eq_ok] at hrecord
  obtain ⟨-, -, l, -, hrecord⟩ := hrecord
  obtain ⟨u, rfl⟩ := insertSubstrateEntry_ok hrecord
  have hqueued : Queued s c (.substrate ⟨c, who, .unlock, l.active, u⟩) q _ :=
    ⟨r, x, L', es, hq, hes, rfl⟩
  exact .ofQueued hqueued rfl

theorem transferBack_effect (h : transferBack s who n c wf = .ok s') :
    Effect .polkadot c e s s' := by
  simp only [transferBack, bind_eq_ok] at h
  obtain ⟨-, -, -, -, -, -, -, -, hsend⟩ := h
  exact sendWithoutRecord_effect hsend (by simp)

end PolkadotAgent

/-! The agent for BNC, Moonriver, Moonbeam and Manta. -/

namespace OneToManyLedger

variable {l l' : OneToManyLedger AccountId} {v : MultiLocation AccountId}
  {t : Except Fault TimeUnit}

theorem bondLess_time (h : l.bondLess v n t = .ok l') : ∃ u, t = .ok u := by
  simp only [bondLess, bind_eq_ok] at h
  obtain ⟨-, -, -, -, u, hu, -⟩ := h
  exact ⟨u, hu⟩

theorem revoke_time (h : l.revoke v t = .ok l') : ∃ u, t = .ok u := by
  simp only [revoke, bind_eq_ok] at h
  obtain ⟨-, -, _, -, -, -, u, hu, -⟩ := h
  exact ⟨u, hu⟩

omit [DecidableEq AccountId] in
theorem leave_time (h : l.leave t = .ok l') : ∃ u, t = .ok u := by
  simp only [leave, bind_eq_ok] at h
  obtain ⟨-, -, u, hu, -⟩ := h
  exact ⟨u, hu⟩

omit [DecidableEq AccountId] in
theorem executeLeave_time (h : l.executeLeave t = .ok l') : ∃ u, t = .ok u := by
  unfold executeLeave at h
  split at h
  · rw [bind_eq_ok] at h
    obtain ⟨u, hu, -⟩ := h
    exact ⟨u, hu⟩
  · simp at h
  · simp at h

theorem executeRequest_time (h : l.executeRequest v t = .ok l') : ∃ u, t = .ok u := by
  simp only [executeRequest, bind_eq_ok] at h
  obtain ⟨-, -, u, hu, -⟩ := h
  exact ⟨u, hu⟩

end OneToManyLedger

namespace ParachainStakingAgent

theorem mutateAtOnce_ok
    {f : OneToManyLedger AccountId → Except Fault (OneToManyLedger AccountId)}
    (h : mutateAtOnce s who c f = .ok (q, s')) :
    ∃ l l' occ, s.getLedger c who = some (.parachainStaking l) ∧ f l = .ok l' ∧
      s' = { s.setLedger c who (some (.parachainStaking l')) with delegationsOccupied := occ } := by
  simp only [mutateAtOnce, bind_eq_ok, pure_eq_ok, Prod.mk.injEq] at h
  obtain ⟨s₁, hmutate, s₂, hoccupied, -, rfl⟩ := h
  obtain ⟨l, l', hget, hf, rfl⟩ := mutateOneToMany_ok hmutate
  obtain ⟨occ, rfl⟩ := updateAllOccupied_ok hoccupied
  exact ⟨l, l', occ, hget, hf, rfl⟩

theorem native_effect {s₀ : State cfg} {call : NativeStaking AccountId}
    {f : State cfg → OneToManyLedger AccountId → Except Fault (OneToManyLedger AccountId)}
    (operation : ParachainStakingLedgerUpdateOperation)
    (validator : Option (MultiLocation AccountId)) (n : ℕ)
    (h : (do
      let s ← nativeStaking s₀ call
      mutateAtOnce s who c (f s)) = Except.ok (q, s'))
    (hc : c = bnc) (hopens : Opens .parachainStaking c s s₀)
    (he : operation.ReportedBy c who e)
    (hf : ∀ L l l', s₀.getLedger c who = some (.parachainStaking l) →
      f (s₀.withOutside L) l = .ok l' → ∃ u,
        l.update ⟨c, who, validator, operation, n, u⟩ = .ok l' ∧
        (operation ≠ .leaveDelegator → l.Fits ⟨c, who, validator, operation, n, u⟩)) :
    Effect .parachainStaking c e s s' := by
  rw [bind_eq_ok] at h
  obtain ⟨s₁, hnative, hmutate⟩ := h
  obtain ⟨L, rfl⟩ := nativeStaking_ok hnative
  obtain ⟨l, l', occ, hget, hl', rfl⟩ := mutateAtOnce_ok hmutate
  obtain ⟨u, hupdate, hfits⟩ := hf L l l' hget hl'
  have hchanged := Effect.native s₀ ⟨c, who, validator, operation, n, u⟩ l l' L occ rfl hc hopens
    hget hupdate hfits he
  rwa [← withOutside_eq_around] at hchanged

theorem remote_effect {update : ParachainStakingLedgerUpdateOperation} {s₀ : State cfg}
    (h : s₀.sendWithRecord operation call who c wf (fun s queryId timeout =>
      s.insertParachainStakingEntry who validator update n queryId timeout c) = .ok (q, s'))
    (hc : c ≠ bnc) (hopens : Opens .parachainStaking c s s₀) (hupdate : update ≠ .leaveDelegator)
    (he : update.ReportedBy c who e) : Effect .parachainStaking c e s s' := by
  obtain ⟨u, hqueued⟩ := sendWithRecord_parachainStaking h
  exact .queued s₀ s' _ q hopens hqueued ⟨rfl, hc, hupdate, he⟩

theorem checkOrOpen_opens {collator : MultiLocation AccountId} {minsMaxs : MinimumsMaximums}
    (h : checkOrOpen s who collator n c minsMaxs = .ok s') :
    Opens .parachainStaking c s s' := by
  unfold checkOrOpen at h
  split at h
  · simp only [bind_eq_ok, pure_eq_ok] at h
    obtain ⟨-, -, -, -, -, -, -, -, rfl⟩ := h
    exact .nothing
  · rename_i hnone
    simp only [bind_eq_ok, pure_eq_ok] at h
    obtain ⟨-, -, -, -, rfl⟩ := h
    exact .ledger who _ (.oneToMany _ hnone)

theorem bond_effect (h : bond s who n validator c wf = .ok (q, s')) :
    Effect .parachainStaking c (.delegatorBonded c who n q validator) s s' := by
  simp only [bond, bind_eq_ok, okOr_eq_ok] at h
  obtain ⟨collator, rfl, minsMaxs, -, -, -, -, -, -, -, s₀, hopen, h⟩ := h
  have hopens := checkOrOpen_opens hopen
  have he : ParachainStakingLedgerUpdateOperation.bond.ReportedBy c who
      (.delegatorBonded c who n q (some collator)) := ⟨n, q, _, Or.inl rfl⟩
  split at h
  · rename_i hc
    rw [bind_eq_ok] at h
    obtain ⟨_, -, h⟩ := h
    rw [bind_eq_ok] at h
    obtain ⟨_, -, h⟩ := h
    refine native_effect .bond (some collator) n h hc hopens he ?_
    intro L l l' _ hl'
    exact ⟨none, hl', fun _ => trivial⟩
  · simp only [bind_eq_ok, okOr_eq_ok] at h
    obtain ⟨_, -, _, -, h⟩ := h
    exact remote_effect h ‹_› hopens (by simp) he

theorem bondExtra_effect (h : bondExtra s who n validator c wf = .ok (q, s')) :
    Effect .parachainStaking c (.delegatorBondExtra c who n q validator) s s' := by
  simp only [bondExtra, bind_eq_ok, okOr_eq_ok] at h
  obtain ⟨-, -, -, -, collator, rfl, -, -, -, -, _, -, -, -, -, -, -, -, h⟩ := h
  have he : ParachainStakingLedgerUpdateOperation.bond.ReportedBy c who
      (.delegatorBondExtra c who n q (some collator)) := ⟨n, q, _, Or.inr rfl⟩
  split at h
  · rename_i hc
    rw [bind_eq_ok] at h
    obtain ⟨_, -, h⟩ := h
    rw [bind_eq_ok] at h
    obtain ⟨_, -, h⟩ := h
    refine native_effect .bond (some collator) n h hc .nothing he ?_
    intro L l l' _ hl'
    exact ⟨none, hl', fun _ => trivial⟩
  · rw [bind_eq_ok] at h
    obtain ⟨_, -, h⟩ := h
    exact remote_effect h ‹_› .nothing (by simp) he

theorem unbond_effect (h : unbond s who n validator c wf = .ok (q, s')) :
    Effect .parachainStaking c (.delegatorUnbond c who n q validator) s s' := by
  simp only [unbond, bind_eq_ok, okOr_eq_ok, ensure_eq_ok, exists_const] at h
  obtain ⟨-, -, -, collator, rfl, l₀, hledger, -, d, hd, hbrief, after, hafter, -, -, -, -, -, -, h⟩
    := h
  have he : ParachainStakingLedgerUpdateOperation.bondLess.ReportedBy c who
      (.delegatorUnbond c who n q (some collator)) := ⟨n, q, _, rfl⟩
  split at h
  · rename_i hc
    rw [bind_eq_ok] at h
    obtain ⟨_, -, h⟩ := h
    rw [bind_eq_ok] at h
    obtain ⟨_, -, h⟩ := h
    refine native_effect .bondLess (some collator) n h hc .nothing he ?_
    intro L l l' hget hl'
    rw [oneToManyLedger_ok hledger] at hget
    cases hget
    obtain ⟨u, hu⟩ := OneToManyLedger.bondLess_time hl'
    rw [hu] at hl'
    refine ⟨some u, hl', fun _ => ⟨collator, d, rfl, hd, ?_, Option.isNone_iff_eq_none.mp hbrief⟩⟩
    exact (U128.checkedSub_eq_some.mp hafter).1
  · rw [bind_eq_ok] at h
    obtain ⟨_, -, h⟩ := h
    exact remote_effect h ‹_› .nothing (by simp) he

theorem unbondAll_effect (h : unbondAll s who c = .ok (q, s')) :
    Effect .parachainStaking c (.delegatorUnbondAll c who q) s s' := by
  simp only [unbondAll, bind_eq_ok, ensure_eq_ok, exists_const] at h
  obtain ⟨hc, -, -, -, _, -, h⟩ := h
  rw [← bind_eq_ok] at h
  refine native_effect .leaveDelegator none 0 h hc .nothing ⟨q, rfl⟩ ?_
  intro L l l' _ hl'
  obtain ⟨u, hu⟩ := OneToManyLedger.leave_time hl'
  rw [hu] at hl'
  exact ⟨some u, hl', by simp⟩

theorem rebond_effect (h : rebond s who validator c wf = .ok (q, s')) :
    Effect .parachainStaking c (.delegatorRebond c who amount q validator) s s' := by
  simp only [rebond, bind_eq_ok, okOr_eq_ok] at h
  obtain ⟨-, -, collator, rfl, -, -, -, -, -, -, -, -, -, -, -, -, h⟩ := h
  have he : ParachainStakingLedgerUpdateOperation.cancelRequest.ReportedBy c who
      (.delegatorRebond c who amount q (some collator)) := ⟨amount, q, _, rfl⟩
  split at h
  · rename_i hc
    rw [bind_eq_ok] at h
    obtain ⟨_, -, h⟩ := h
    rw [bind_eq_ok] at h
    obtain ⟨_, -, h⟩ := h
    refine native_effect .cancelRequest (some collator) 0 h hc .nothing he ?_
    intro L l l' _ hl'
    exact ⟨none, hl', fun _ => trivial⟩
  · rw [bind_eq_ok] at h
    obtain ⟨_, -, h⟩ := h
    exact remote_effect h ‹_› .nothing (by simp) he

theorem undelegate_effect (h : undelegate s who targets c wf = .ok (q, s')) :
    Effect .parachainStaking c (.undelegated c who targets q) s s' := by
  simp only [undelegate, bind_eq_ok, okOr_eq_ok, ensure_eq_ok, exists_const] at h
  obtain ⟨validator, -, l₀, hledger, -, -, hbrief, h⟩ := h
  have he : ParachainStakingLedgerUpdateOperation.revoke.ReportedBy c who
      (.undelegated c who targets q) := ⟨targets, q, rfl⟩
  split at h
  · rename_i hc
    rw [bind_eq_ok] at h
    obtain ⟨_, -, h⟩ := h
    rw [bind_eq_ok] at h
    obtain ⟨_, -, h⟩ := h
    refine native_effect .revoke (some validator) 0 h hc .nothing he ?_
    intro L l l' hget hl'
    rw [oneToManyLedger_ok hledger] at hget
    cases hget
    obtain ⟨u, hu⟩ := OneToManyLedger.revoke_time hl'
    rw [hu] at hl'
    exact ⟨some u, hl', fun _ => ⟨validator, rfl, Option.isNone_iff_eq_none.mp hbrief⟩⟩
  · rw [bind_eq_ok] at h
    obtain ⟨_, -, h⟩ := h
    exact remote_effect h ‹_› .nothing (by simp) he

theorem redelegate_effect {targets : Option (List (MultiLocation AccountId))}
    (h : redelegate s who c = .ok (q, s')) :
    Effect .parachainStaking c (.delegated c who targets q) s s' := by
  simp only [redelegate, bind_eq_ok, ensure_eq_ok, exists_const] at h
  obtain ⟨hc, -, -, -, _, -, h⟩ := h
  rw [← bind_eq_ok] at h
  refine native_effect .cancelLeave none 0 h hc .nothing ⟨targets, q, rfl⟩ ?_
  intro L l l' _ hl'
  exact ⟨none, hl', fun _ => trivial⟩

theorem liquidize_effect {time : Option TimeUnit}
    (h : liquidize s who validator c wf = .ok (q, s')) :
    Effect .parachainStaking c (.liquidize c who time q amount) s s' := by
  simp only [liquidize, bind_eq_ok, okOr_eq_ok] at h
  obtain ⟨collator, -, -, -, -, -, ⟨leaving, due⟩, -, h⟩ := h
  split at h
  · rename_i hc
    rw [bind_eq_ok] at h
    obtain ⟨_, -, h⟩ := h
    rw [bind_eq_ok] at h
    obtain ⟨_, -, h⟩ := h
    rw [bind_eq_ok] at h
    obtain ⟨_, -, h⟩ := h
    split at h
    · refine native_effect .executeLeave none 0 h hc .nothing ⟨time, q, amount, rfl⟩ ?_
      intro L l l' _ hl'
      obtain ⟨u, hu⟩ := OneToManyLedger.executeLeave_time hl'
      rw [hu] at hl'
      exact ⟨some u, hl', fun _ => trivial⟩
    · refine native_effect .executeRequest (some collator) 0 h hc .nothing
        ⟨time, q, amount, rfl⟩ ?_
      intro L l l' _ hl'
      obtain ⟨u, hu⟩ := OneToManyLedger.executeRequest_time hl'
      rw [hu] at hl'
      exact ⟨some u, hl', fun _ => trivial⟩
  · rename_i hc
    rw [bind_eq_ok] at h
    obtain ⟨_, -, h⟩ := h
    rw [bind_eq_ok] at h
    obtain ⟨_, -, h⟩ := h
    cases leaving with
    | true => exact remote_effect h hc .nothing (by simp) ⟨time, q, amount, rfl⟩
    | false => exact remote_effect h hc .nothing (by simp) ⟨time, q, amount, rfl⟩

theorem transferBack_effect {dest : MultiLocation AccountId}
    (h : transferBack s who n c wf = .ok s') :
    Effect .parachainStaking c (.transferBack c who dest n) s s' := by
  simp only [transferBack, bind_eq_ok] at h
  obtain ⟨-, -, -, -, h⟩ := h
  split at h
  · simp only [bind_eq_ok, pure_eq_ok] at h
    obtain ⟨_, -, L, -, rfl⟩ := h
    exact .ofOutside s L fun _ => trivial
  · rw [bind_eq_ok] at h
    obtain ⟨-, -, h⟩ := h
    exact sendWithoutRecord_effect h fun _ => trivial

theorem transferTo_effect {source dest : MultiLocation AccountId}
    (h : transferTo s source dest n c = .ok s') :
    Effect .parachainStaking c (.transferTo c source dest n) s s' := by
  unfold transferTo at h
  split at h
  · simp only [bind_eq_ok, pure_eq_ok] at h
    obtain ⟨-, -, _, -, -, -, _, -, L, -, rfl⟩ := h
    exact .ofOutside s L fun _ => trivial
  · exact supplementAndTransferTo_effect h fun _ => trivial

end ParachainStakingAgent

/-! The agents for Phala and Astar. -/

namespace PhalaAgent

theorem sendWithRecord_entry {update : SubstrateLedgerUpdateOperation}
    (h : s.sendWithRecord operation call who c wf (fun s queryId timeout =>
      insertEntry s who update n queryId timeout c) = .ok (q, s')) : Effect .phala c e s s' := by
  obtain ⟨r, x, L, es, s₂, L', hq, hes, hrecord, rfl⟩ := sendWithRecord_ok h
  simp only [insertEntry, bind_eq_ok, pure_eq_ok] at hrecord
  obtain ⟨u, -, rfl⟩ := hrecord
  have hqueued : Queued s c (.substrate ⟨c, who, update, n, u⟩) q _ :=
    ⟨r, x, L', es, hq, hes, rfl⟩
  exact .ofQueued hqueued rfl

theorem mutatePhala_effect {s₀ : State cfg} {missing : Error}
    {f : PhalaLedger AccountId → Except Fault (PhalaLedger AccountId)}
    (es : List (Event AccountId)) (h : s₀.mutatePhala c who missing f = .ok s')
    (hopens : Opens .phala c s s₀)
    (hes : ∀ e ∈ es, e.About c) : Effect .phala c e s { s' with events := s'.events ++ es } := by
  obtain ⟨l, l', -, -, rfl⟩ := mutatePhala_ok h
  exact .phala s₀ who l' es rfl hopens hes

theorem bond_effect {sharePrice : Option (MultiLocation AccountId)}
    (h : bond s who n sharePrice c wf = .ok (q, s')) : Effect .phala c e s s' := by
  simp only [bond, bind_eq_ok] at h
  obtain ⟨_, -, _, -, -, -, -, -, -, -, hsend⟩ := h
  obtain ⟨r, x, L, es, s₂, L', hq, hes, hrecord, rfl⟩ := sendWithRecord_ok hsend
  rw [bind_eq_ok] at hrecord
  obtain ⟨shares, -, hinsert⟩ := hrecord
  simp only [insertEntry, bind_eq_ok, pure_eq_ok] at hinsert
  obtain ⟨u, -, rfl⟩ := hinsert
  have hqueued : Queued s c (.substrate ⟨c, who, .bond, shares, u⟩) q _ :=
    ⟨r, x, L', es, hq, hes, rfl⟩
  exact .ofQueued hqueued rfl

theorem unbond_effect {sharePrice : Option (MultiLocation AccountId)}
    (h : unbond s who n sharePrice c wf = .ok (q, s')) : Effect .phala c e s s' := by
  simp only [unbond, bind_eq_ok] at h
  obtain ⟨_, -, _, -, -, -, -, -, _, -, -, -, -, -, -, -, -, -, hsend⟩ := h
  exact sendWithRecord_entry hsend

theorem rebond_effect {sharePrice : Option (MultiLocation AccountId)}
    (h : rebond s who amount sharePrice c wf = .ok (q, s')) : Effect .phala c e s s' := by
  simp only [rebond, bind_eq_ok] at h
  obtain ⟨_, -, -, -, hbond⟩ := h
  exact bond_effect hbond

theorem delegate_effect (h : delegate s who targets c = .ok (q, s')) : Effect .phala c e s s' := by
  simp only [delegate, bind_eq_ok] at h
  obtain ⟨-, -, candidate, -, h⟩ := h
  split at h
  · simp only [bind_eq_ok, pure_eq_ok, Prod.mk.injEq] at h
    obtain ⟨-, -, -, -, s₁, hmutate, -, rfl⟩ := h
    refine mutatePhala_effect [.delegated c who (some targets) 0] hmutate ?_ (by simp [Event.About])
    split
    · rename_i hnone
      rw [Option.isNone_iff_eq_none] at hnone
      refine .ledger who _ ?_
      rw [hnone]
      exact .phala
    · exact .nothing
  · simp at h

theorem undelegate_effect (h : undelegate s who c = .ok (q, s')) : Effect .phala c e s s' := by
  simp only [undelegate, bind_eq_ok, pure_eq_ok, Prod.mk.injEq] at h
  obtain ⟨s₁, hmutate, -, rfl⟩ := h
  exact mutatePhala_effect [.undelegated c who [] 0] hmutate .nothing
    (by simp [Event.About])

theorem redelegate_effect {targets : Option (List (MultiLocation AccountId))}
    (h : redelegate s who targets c = .ok (q, s')) : Effect .phala c e s s' := by
  simp only [redelegate, bind_eq_ok] at h
  obtain ⟨_, -, hdelegate⟩ := h
  exact delegate_effect hdelegate

theorem payout_effect (h : payout s who c wf = .ok (q, s')) : Effect .phala c e s s' := by
  simp only [payout, bind_eq_ok] at h
  obtain ⟨_, -, _, -, hsend⟩ := h
  exact sendWithRecord_pure hsend (by simp)

theorem liquidize_effect (h : liquidize s who c amount = .ok (q, s')) : Effect .phala c e s s' := by
  simp only [liquidize, bind_eq_ok, pure_eq_ok, Prod.mk.injEq] at h
  obtain ⟨_, -, s₁, hmutate, -, rfl⟩ := h
  have hchanged : Effect .phala c e s { s₁ with events := s₁.events ++ [] } :=
    mutatePhala_effect [] hmutate .nothing (List.forall_mem_nil _)
  rwa [List.append_nil] at hchanged

theorem transferBack_effect {dest : MultiLocation AccountId}
    (h : transferBack s who dest n c wf = .ok s') : Effect .phala c e s s' := by
  simp only [transferBack, bind_eq_ok] at h
  obtain ⟨-, -, _, -, -, -, hsend⟩ := h
  exact sendWithoutRecord_effect hsend (by simp)

theorem convertAsset_effect {ifFromCurrency : Bool}
    (h : convertAsset s who n c ifFromCurrency wf = .ok (q, s')) : Effect .phala c e s s' := by
  simp only [convertAsset, bind_eq_ok] at h
  obtain ⟨-, -, -, -, hsend⟩ := h
  exact sendWithRecord_pure hsend (by simp)

end PhalaAgent

namespace AstarAgent

theorem bond_effect (h : bond s who n validator c wf = .ok (q, s')) : Effect .astar c e s s' := by
  simp only [bond, bind_eq_ok, pure_eq_ok, Prod.mk.injEq] at h
  obtain ⟨_, -, -, -, -, -, -, -, -, -, -, -, _, -, s₁, hsend, -, rfl⟩ := h
  exact sendWithoutRecord_effect hsend (by simp)

theorem bondExtra_effect
    (h : bondExtra s who n validator c wf = .ok (q, s')) : Effect .astar c e s s' := by
  unfold bondExtra at h
  split at h
  · simp only [bind_eq_ok, pure_eq_ok, Prod.mk.injEq] at h
    obtain ⟨s₁, hsend, -, rfl⟩ := h
    exact sendWithoutRecord_effect hsend (by simp)
  · obtain ⟨u, hqueued⟩ := sendWithRecord_substrate h
    refine .queued _ s' _ q ?_ hqueued rfl
    split
    · rename_i hnone
      rw [Option.isNone_iff_eq_none] at hnone
      refine .ledger who _ ?_
      rw [hnone]
      exact .substrate _ (Or.inr rfl)
    · exact .nothing

theorem unbond_effect
    (h : unbond s who n validator c wf = .ok (q, s')) : Effect .astar c e s s' := by
  simp only [unbond, bind_eq_ok] at h
  obtain ⟨-, -, -, -, _, -, -, -, -, -, -, -, _, -, hsend⟩ := h
  obtain ⟨u, hqueued⟩ := sendWithRecord_substrate hsend
  exact .ofQueued hqueued rfl

theorem payout_effect {validator : MultiLocation AccountId}
    (h : payout s who validator c wf = .ok (q, s')) : Effect .astar c e s s' := by
  unfold payout at h
  split at h
  · simp only [bind_eq_ok, pure_eq_ok, Prod.mk.injEq] at h
    obtain ⟨_, -, s₁, hsend, -, rfl⟩ := h
    exact sendWithoutRecord_effect hsend (by simp)
  · simp only [bind_eq_ok, pure_eq_ok, Prod.mk.injEq] at h
    obtain ⟨_, -, s₁, hsend, -, rfl⟩ := h
    exact sendWithoutRecord_effect hsend (by simp)

theorem liquidize_effect (h : liquidize s who c wf = .ok (q, s')) : Effect .astar c e s s' := by
  simp only [liquidize, bind_eq_ok] at h
  obtain ⟨-, -, hsend⟩ := h
  obtain ⟨u, hqueued⟩ := sendWithRecord_substrate hsend
  exact .ofQueued hqueued rfl

theorem transferBack_effect (h : transferBack s who n c wf = .ok s') : Effect .astar c e s s' := by
  simp only [transferBack, bind_eq_ok] at h
  obtain ⟨-, -, -, -, hsend⟩ := h
  exact sendWithoutRecord_effect hsend (by simp)

end AstarAgent

/-! Operations. -/

theorem operate_ok {operation : Operation AccountId} (h : operate s c agent operation = .ok s') :
    ∃ s₁ e, s' = s₁.depositEvent e ∧ e.About c ∧ Effect agent c e s s₁ ∧
      (∀ who, (∃ q, e = .delegatorUnbondAll c who q) ↔ ∃ wf, operation = .unbondAll who wf) := by
  unfold operate at h
  cases operation with
  | bond who amount validator wf =>
    obtain ⟨q, s₁, hop, rfl⟩ := queried_ok h
    refine ⟨s₁, _, rfl, rfl, ?_, by simp⟩
    cases agent with
    | polkadot => exact PolkadotAgent.bond_effect hop
    | parachainStaking => exact ParachainStakingAgent.bond_effect hop
    | phala => exact PhalaAgent.bond_effect hop
    | astar => exact AstarAgent.bond_effect hop
  | bondExtra who validator amount wf =>
    obtain ⟨q, s₁, hop, rfl⟩ := queried_ok h
    refine ⟨s₁, _, rfl, rfl, ?_, by simp⟩
    cases agent with
    | polkadot => exact PolkadotAgent.bondExtra_effect hop
    | parachainStaking => exact ParachainStakingAgent.bondExtra_effect hop
    | phala => exact PhalaAgent.bond_effect hop
    | astar => exact AstarAgent.bondExtra_effect hop
  | unbond who validator amount wf =>
    obtain ⟨q, s₁, hop, rfl⟩ := queried_ok h
    refine ⟨s₁, _, rfl, rfl, ?_, by simp⟩
    cases agent with
    | polkadot => exact PolkadotAgent.unbond_effect hop
    | parachainStaking => exact ParachainStakingAgent.unbond_effect hop
    | phala => exact PhalaAgent.unbond_effect hop
    | astar => exact AstarAgent.unbond_effect hop
  | unbondAll who wf =>
    obtain ⟨q, s₁, hop, rfl⟩ := queried_ok h
    refine ⟨s₁, _, rfl, rfl, ?_, ?_⟩
    · cases agent with
      | polkadot => exact PolkadotAgent.unbondAll_effect hop
      | parachainStaking => exact ParachainStakingAgent.unbondAll_effect hop
      | phala => simp [unbondAll, unsupported] at hop
      | astar => simp [unbondAll, unsupported] at hop
    · simp
  | rebond who validator amount wf =>
    obtain ⟨q, s₁, hop, rfl⟩ := queried_ok h
    refine ⟨s₁, _, rfl, rfl, ?_, by simp⟩
    cases agent with
    | polkadot => exact PolkadotAgent.rebond_effect hop
    | parachainStaking => exact ParachainStakingAgent.rebond_effect hop
    | phala => exact PhalaAgent.rebond_effect hop
    | astar => simp [rebond] at hop
  | delegate who targets wf =>
    obtain ⟨q, s₁, hop, rfl⟩ := queried_ok h
    refine ⟨s₁, _, rfl, rfl, ?_, by simp⟩
    cases agent with
    | polkadot => exact PolkadotAgent.delegate_effect hop
    | phala => exact PhalaAgent.delegate_effect hop
    | parachainStaking => simp [delegate, unsupported] at hop
    | astar => simp [delegate, unsupported] at hop
  | undelegate who targets wf =>
    obtain ⟨q, s₁, hop, rfl⟩ := queried_ok h
    refine ⟨s₁, _, rfl, rfl, ?_, by simp⟩
    cases agent with
    | polkadot => exact PolkadotAgent.undelegate_effect hop
    | parachainStaking => exact ParachainStakingAgent.undelegate_effect hop
    | phala => exact PhalaAgent.undelegate_effect hop
    | astar => simp [undelegate, unsupported] at hop
  | redelegate who targets wf =>
    obtain ⟨q, s₁, hop, rfl⟩ := queried_ok h
    refine ⟨s₁, _, rfl, rfl, ?_, by simp⟩
    cases agent with
    | polkadot => exact PolkadotAgent.redelegate_effect hop
    | parachainStaking => exact ParachainStakingAgent.redelegate_effect hop
    | phala => exact PhalaAgent.redelegate_effect hop
    | astar => simp [redelegate, unsupported] at hop
  | payout who validator time wf =>
    obtain ⟨q, s₁, hop, rfl⟩ := queried_ok h
    refine ⟨s₁, _, rfl, rfl, ?_, by simp⟩
    cases agent with
    | polkadot => exact PolkadotAgent.payout_effect hop
    | parachainStaking => simp [payout, unsupported] at hop
    | phala => exact PhalaAgent.payout_effect hop
    | astar => exact AstarAgent.payout_effect hop
  | liquidize who time validator amount wf =>
    obtain ⟨q, s₁, hop, rfl⟩ := queried_ok h
    refine ⟨s₁, _, rfl, rfl, ?_, by simp⟩
    cases agent with
    | polkadot => exact PolkadotAgent.liquidize_effect hop
    | parachainStaking => exact ParachainStakingAgent.liquidize_effect hop
    | phala => exact PhalaAgent.liquidize_effect hop
    | astar => exact AstarAgent.liquidize_effect hop
  | chill who wf =>
    obtain ⟨q, s₁, hop, rfl⟩ := queried_ok h
    refine ⟨s₁, _, rfl, rfl, ?_, by simp⟩
    cases agent with
    | polkadot => exact PolkadotAgent.chill_effect hop
    | parachainStaking => simp [chill, unsupported] at hop
    | phala => simp [chill, unsupported] at hop
    | astar => simp [chill, unsupported] at hop
  | transferBack source dest amount wf =>
    obtain ⟨s₁, hop, rfl⟩ := reported_ok h
    refine ⟨s₁, _, rfl, rfl, ?_, by simp⟩
    cases agent with
    | polkadot => exact PolkadotAgent.transferBack_effect hop
    | parachainStaking => exact ParachainStakingAgent.transferBack_effect hop
    | phala => exact PhalaAgent.transferBack_effect hop
    | astar => exact AstarAgent.transferBack_effect hop
  | transferTo source dest amount =>
    obtain ⟨s₁, hop, rfl⟩ := reported_ok h
    refine ⟨s₁, _, rfl, rfl, ?_, by simp⟩
    cases agent with
    | polkadot => exact supplementAndTransferTo_effect hop (by simp)
    | parachainStaking => exact ParachainStakingAgent.transferTo_effect hop
    | phala => exact supplementAndTransferTo_effect hop (by simp)
    | astar => exact supplementAndTransferTo_effect hop (by simp)
  | convertAsset who amount ifFromCurrency wf =>
    obtain ⟨q, s₁, hop, rfl⟩ := queried_ok h
    refine ⟨s₁, _, rfl, rfl, ?_, by simp⟩
    cases agent with
    | polkadot => simp [convertAsset, unsupported] at hop
    | parachainStaking => simp [convertAsset, unsupported] at hop
    | phala => exact PhalaAgent.convertAsset_effect hop
    | astar => simp [convertAsset, unsupported] at hop

end Bifrost.Slp
