import Bifrost.Lib.Outstanding
import Bifrost.Slp.Steps

/-!
# Operators and the queries of other currencies

An operator is authorised for the currency a call names. The calls that answer a query take the
currency only for that: what they change is the currency of the entry that waits under the query
id. All else an operator does stays within the operator's currency, and every query is answered
once.
-/

namespace Bifrost.Slp

open Result Machine
set_option autoImplicit false

variable {AccountId : Type}

/-- The queries that two kinds of events answer. -/
def Event.answersLedger : Event AccountId → Option ℕ
  | .delegatorLedgerQueryResponseConfirmed q _ | .delegatorLedgerQueryResponseFailed q => some q
  | _ => none

def Event.answersValidators : Event AccountId → Option ℕ
  | .validatorsByDelegatorQueryResponseConfirmed q _
  | .validatorsByDelegatorQueryResponseFailed q => some q
  | _ => none

def answeredLedger (es : List (Event AccountId)) : List ℕ := es.filterMap Event.answersLedger

def answeredValidators (es : List (Event AccountId)) : List ℕ :=
  es.filterMap Event.answersValidators

theorem Event.About.answers_eq {c : CurrencyId} {e : Event AccountId} (h : e.About c) :
    e.answersLedger = none ∧ e.answersValidators = none := by
  cases e <;> first | exact ⟨rfl, rfl⟩ | exact h.elim

theorem Event.IsNote.about {c : CurrencyId} {e : Event AccountId} (h : e.IsNote c) :
    e.About c := by
  cases e <;> first | exact h | exact h.elim

/-- How `pallet_xcm` numbers queries: an id that is issued is new. -/
structure QueryIds (cfg : Config AccountId) where
  issued : cfg.Xcm → ℕ → Prop
  fresh : ∀ x responder timeout, ¬issued x (cfg.newNotifyQuery x responder timeout).1
  issued_iff : ∀ x responder timeout q, issued (cfg.newNotifyQuery x responder timeout).2 q ↔
    issued x q ∨ q = (cfg.newNotifyQuery x responder timeout).1

variable {cfg : Config AccountId} {s s' : State cfg} {c : CurrencyId}

/-- Queries wait under ids that are issued and not answered, and are answered once. -/
structure Numbered (ids : QueryIds cfg) (s : State cfg) : Prop where
  ledger : Outstanding (ids.issued s.xcm) s.delegatorLedgerXcmUpdateQueue (answeredLedger s.events)
  validators : Outstanding (ids.issued s.xcm) s.validatorsByDelegatorXcmUpdateQueue
    (answeredValidators s.events)

/-- How an operation for `c` moves the queues: the numbering may go on, and an entry of `c` may
wait under the new id. -/
inductive Moved (c : CurrencyId) (s s' : State cfg) : Prop where
  | kept (hx : s'.xcm = s.xcm ∨ ∃ r t, s'.xcm = (cfg.newNotifyQuery s.xcm r t).2)
      (hl : s'.delegatorLedgerXcmUpdateQueue = s.delegatorLedgerXcmUpdateQueue)
      (hv : s'.validatorsByDelegatorXcmUpdateQueue = s.validatorsByDelegatorXcmUpdateQueue)
  | ledger (r t timeout : ℕ) (entry : LedgerUpdateEntry AccountId)
      (hx : s'.xcm = (cfg.newNotifyQuery s.xcm r t).2) (hc : entry.currencyId = .ok c)
      (hl : s'.delegatorLedgerXcmUpdateQueue = Function.update s.delegatorLedgerXcmUpdateQueue
        (cfg.newNotifyQuery s.xcm r t).1 (some (entry, timeout)))
      (hv : s'.validatorsByDelegatorXcmUpdateQueue = s.validatorsByDelegatorXcmUpdateQueue)
  | validators (r t timeout : ℕ) (entry : ValidatorsByDelegatorUpdateEntry AccountId)
      (hx : s'.xcm = (cfg.newNotifyQuery s.xcm r t).2) (hc : entry.currencyId = c)
      (hl : s'.delegatorLedgerXcmUpdateQueue = s.delegatorLedgerXcmUpdateQueue)
      (hv : s'.validatorsByDelegatorXcmUpdateQueue =
        Function.update s.validatorsByDelegatorXcmUpdateQueue (cfg.newNotifyQuery s.xcm r t).1
          (some (entry, timeout)))

theorem Moved.issued {ids : QueryIds cfg} (h : Moved c s s') {q : ℕ} (hq : ids.issued s.xcm q) :
    ids.issued s'.xcm q := by
  have hnext (r t : ℕ) (hx : s'.xcm = (cfg.newNotifyQuery s.xcm r t).2) :
      ids.issued s'.xcm q := by
    rw [hx, ids.issued_iff]
    exact Or.inl hq
  cases h with
  | kept hx hl hv =>
    rcases hx with hx | ⟨r, t, hx⟩
    · rwa [hx]
    · exact hnext r t hx
  | ledger r t timeout entry hx hc hl hv => exact hnext r t hx
  | validators r t timeout entry hx hc hl hv => exact hnext r t hx

theorem Numbered.moved {ids : QueryIds cfg} (hs : Numbered ids s) (h : Moved c s s')
    (hledger : answeredLedger s'.events = answeredLedger s.events)
    (hvalidators : answeredValidators s'.events = answeredValidators s.events) :
    Numbered ids s' := by
  have hissued (q : ℕ) (hq : ids.issued s.xcm q) : ids.issued s'.xcm q := h.issued hq
  have hnew (r t : ℕ) (hx : s'.xcm = (cfg.newNotifyQuery s.xcm r t).2) :
      ids.issued s'.xcm (cfg.newNotifyQuery s.xcm r t).1 := by
    rw [hx, ids.issued_iff]
    exact Or.inr rfl
  constructor
  · rw [hledger]
    cases h with
    | kept hx hl hv =>
      rw [hl]
      exact hs.ledger.issue hissued
    | ledger r t timeout entry hx hc hl hv =>
      rw [hl]
      exact hs.ledger.add (ids.fresh _ _ _) (hnew r t hx) hissued _
    | validators r t timeout entry hx hc hl hv =>
      rw [hl]
      exact hs.ledger.issue hissued
  · rw [hvalidators]
    cases h with
    | kept hx hl hv =>
      rw [hv]
      exact hs.validators.issue hissued
    | ledger r t timeout entry hx hc hl hv =>
      rw [hv]
      exact hs.validators.issue hissued
    | validators r t timeout entry hx hc hl hv =>
      rw [hv]
      exact hs.validators.add (ids.fresh _ _ _) (hnew r t hx) hissued _

section Operations

variable [DecidableEq AccountId] {agent : Agent} {e : Event AccountId} {s₁ : State cfg}

omit [DecidableEq AccountId] in
theorem SentBy.currencyId {entry : LedgerUpdateEntry AccountId}
    (h : entry.SentBy c e agent) : entry.currencyId = .ok c := by
  cases agent <;> cases entry <;> first | exact h.elim | skip
  case polkadot.substrate => exact congrArg Except.ok h
  case parachainStaking.parachainStaking => exact congrArg Except.ok h.1
  case phala.substrate => exact congrArg Except.ok h
  case astar.substrate => exact congrArg Except.ok h

theorem Effect.moved (h : Effect agent c e s s₁) : Moved c s s₁ := by
  cases h with
  | quiet x L es hx hes he =>
    refine .kept ?_ rfl rfl
    rcases hx with hx | ⟨r, hx⟩
    · exact Or.inl hx
    · exact Or.inr ⟨r, _, hx⟩
  | queued s₀ s₁ entry q hopens hqueued hentry =>
    obtain ⟨ledgers, rfl, -⟩ := hopens.eq
    obtain ⟨r, x, L, es, hq, -, rfl⟩ := hqueued
    have hnew : cfg.newNotifyQuery s.xcm r s.timeout = (q, x) := hq
    refine .ledger r s.timeout s.timeout entry ?_ (SentBy.currencyId hentry) ?_ rfl
    · rw [hnew]
      rfl
    · rw [hnew]
      rfl
  | nominated r x L es q who validators hagent hq hes =>
    refine .validators r s.timeout s.timeout ⟨c, who, validators⟩ ?_ rfl rfl ?_
    · rw [hq]
      rfl
    · rw [hq]
      rfl
  | native s₀ entry l l' L occ hagent hc hopens hget hupdate hfits he =>
    obtain ⟨ledgers, rfl, -⟩ := hopens.eq
    exact .kept (Or.inl rfl) rfl rfl
  | phala s₀ who l es hagent hopens hes =>
    obtain ⟨ledgers, rfl, -⟩ := hopens.eq
    exact .kept (Or.inl rfl) rfl rfl

theorem Effect.elsewhere (h : Effect agent c e s s₁) :
    (∀ c', c' ≠ c → s₁.delegatorLedgers c' = s.delegatorLedgers c') ∧
      s₁.validatorsByDelegator = s.validatorsByDelegator ∧ s₁.settings = s.settings := by
  cases h with
  | quiet x L es hx hes he => exact ⟨fun _ _ => rfl, rfl, rfl⟩
  | queued s₀ s₁ entry q hopens hqueued hentry =>
    obtain ⟨ledgers, rfl, hledgers⟩ := hopens.eq
    obtain ⟨r, x, L, es, -, -, rfl⟩ := hqueued
    exact ⟨hledgers, rfl, rfl⟩
  | nominated r x L es q who validators hagent hq hes => exact ⟨fun _ _ => rfl, rfl, rfl⟩
  | native s₀ entry l l' L occ hagent hc hopens hget hupdate hfits he =>
    obtain ⟨ledgers, rfl, hledgers⟩ := hopens.eq
    exact ⟨fun c' hne => (Function.update_of_ne hne _ _).trans (hledgers c' hne), rfl, rfl⟩
  | phala s₀ who l es hagent hopens hes =>
    obtain ⟨ledgers, rfl, hledgers⟩ := hopens.eq
    exact ⟨fun c' hne => (Function.update_of_ne hne _ _).trans (hledgers c' hne), rfl, rfl⟩

end Operations

/-! Every call keeps the queries numbered. -/

section Steps

variable [DecidableEq AccountId] {ids : QueryIds cfg} {q : ℕ} {call : Call cfg}
  {es : List (Event AccountId)}

section

omit [DecidableEq AccountId]

theorem answered_append (h : ∀ e ∈ es, e.About c) (es₀ : List (Event AccountId)) :
    answeredLedger (es₀ ++ es) = answeredLedger es₀ ∧
      answeredValidators (es₀ ++ es) = answeredValidators es₀ := by
  have hledger : es.filterMap Event.answersLedger = [] :=
    List.filterMap_eq_nil_iff.mpr fun e he => (h e he).answers_eq.1
  have hvalidators : es.filterMap Event.answersValidators = [] :=
    List.filterMap_eq_nil_iff.mpr fun e he => (h e he).answers_eq.2
  constructor
  · rw [answeredLedger, answeredLedger, List.filterMap_append, hledger, List.append_nil]
  · rw [answeredValidators, answeredValidators, List.filterMap_append, hvalidators,
      List.append_nil]

theorem answeredLedger_concat (es : List (Event AccountId)) (e : Event AccountId) :
    answeredLedger (es ++ [e]) = answeredLedger es ++ e.answersLedger.toList := by
  rw [answeredLedger, List.filterMap_append]
  cases h : e.answersLedger <;> simp [answeredLedger, h]

theorem answeredValidators_concat (es : List (Event AccountId)) (e : Event AccountId) :
    answeredValidators (es ++ [e]) = answeredValidators es ++ e.answersValidators.toList := by
  rw [answeredValidators, List.filterMap_append]
  cases h : e.answersValidators <;> simp [answeredValidators, h]

theorem Numbered.kept (hs : Numbered ids s) (hx : s'.xcm = s.xcm)
    (hl : s'.delegatorLedgerXcmUpdateQueue = s.delegatorLedgerXcmUpdateQueue)
    (hv : s'.validatorsByDelegatorXcmUpdateQueue = s.validatorsByDelegatorXcmUpdateQueue)
    (hevents : s'.events = s.events ++ es) (hes : ∀ e ∈ es, e.About c) : Numbered ids s' := by
  obtain ⟨hledger, hvalidators⟩ := answered_append hes s.events
  rw [← hevents] at hledger hvalidators
  exact hs.moved (c := c) (.kept (Or.inl hx) hl hv) hledger hvalidators

end

theorem LedgerAnswer.numbered {o : Option (LedgerUpdateEntry AccountId)} (hs : Numbered ids s)
    (h : LedgerAnswer q s o s') : Numbered ids s' := by
  have hanswer {e : Event AccountId} (hwaits : s.delegatorLedgerXcmUpdateQueue q ≠ none)
      (hx : s'.xcm = s.xcm) (hl : s'.delegatorLedgerXcmUpdateQueue =
        Function.update s.delegatorLedgerXcmUpdateQueue q none)
      (hv : s'.validatorsByDelegatorXcmUpdateQueue = s.validatorsByDelegatorXcmUpdateQueue)
      (hevents : s'.events = s.events ++ [e]) (he : e.answersLedger = some q)
      (hother : e.answersValidators = none) : Numbered ids s' := by
    constructor
    · rw [hx, hl, hevents, answeredLedger_concat, he]
      exact hs.ledger.answer hwaits
    · rw [hx, hv, hevents, answeredValidators_concat, hother, Option.toList_none, List.append_nil]
      exact hs.validators
  cases h with
  | confirmed entry timeout c agent who l l' occ hq hdue hc hagent hget hl =>
    exact hanswer (by simp [hq]) rfl rfl rfl rfl rfl rfl
  | failed entry timeout c hq hc => exact hanswer (by simp [hq]) rfl rfl rfl rfl rfl rfl

theorem ValidatorsAnswer.numbered (hs : Numbered ids s) (h : ValidatorsAnswer q s s') :
    Numbered ids s' := by
  have hanswer {e : Event AccountId} (hwaits : s.validatorsByDelegatorXcmUpdateQueue q ≠ none)
      (hx : s'.xcm = s.xcm)
      (hl : s'.delegatorLedgerXcmUpdateQueue = s.delegatorLedgerXcmUpdateQueue)
      (hv : s'.validatorsByDelegatorXcmUpdateQueue =
        Function.update s.validatorsByDelegatorXcmUpdateQueue q none)
      (hevents : s'.events = s.events ++ [e]) (he : e.answersValidators = some q)
      (hother : e.answersLedger = none) : Numbered ids s' := by
    constructor
    · rw [hx, hl, hevents, answeredLedger_concat, hother, Option.toList_none, List.append_nil]
      exact hs.ledger
    · rw [hx, hv, hevents, answeredValidators_concat, he]
      exact hs.validators.answer hwaits
  cases h with
  | confirmed entry timeout hq hdue => exact hanswer (by simp [hq]) rfl rfl rfl rfl rfl rfl
  | failed entry timeout hq => exact hanswer (by simp [hq]) rfl rfl rfl rfl rfl rfl

theorem Tuned.frame (h : Tuned c s s') :
    (∀ c', c' ≠ c → s'.delegatorLedgers c' = s.delegatorLedgers c') ∧
      ∃ ledgers, s' = { s with delegatorLedgers := ledgers } := by
  cases h with
  | nothing => exact ⟨fun _ _ => rfl, s.delegatorLedgers, rfl⟩
  | bonded who n l l' hget hl => exact ⟨fun c' hne => Function.update_of_ne hne _ _, _, rfl⟩

theorem numbered_step (hs : Numbered ids s) (h : step s call = .ok s') : Numbered ids s' := by
  cases step_ok h with
  | operated origin c operation agent e s₁ hauth hagent heffect he hleave =>
    obtain ⟨es, hevents, hes, -⟩ := heffect.events
    obtain ⟨hledger, hvalidators⟩ := answered_append hes s.events
    rw [← hevents] at hledger hvalidators
    have hs₁ := hs.moved heffect.moved hledger hvalidators
    exact hs₁.kept rfl rfl rfl rfl (by simpa using he)
  | noted _ _ c es hcall hnoted hes =>
    exact hs.kept hnoted.xcm hnoted.ledgerQueue hnoted.validatorsQueue hnoted.events
      fun e he => (hes e he).about
  | tuned origin c poolValue delegatorValue who s₁ _ es hauth htuned hnoted hes =>
    obtain ⟨-, ledgers, rfl⟩ := htuned.frame
    exact hs.kept hnoted.xcm hnoted.ledgerQueue hnoted.validatorsQueue hnoted.events
      fun e he => (hes e he).about
  | ledgerSet origin c who ledger hauth =>
    exact hs.kept (c := c) rfl rfl rfl rfl (by simp [Event.About])
  | ledgerAnswered _ q _ hcall hanswer => exact hanswer.numbered hs
  | validatorsAnswered _ q _ hcall hanswer => exact hanswer.numbered hs
  | removed origin c who settings horigin =>
    exact hs.kept (c := c) rfl rfl rfl rfl (by simp [Event.About])
  | validatorsSet origin c who validators list horigin =>
    exact hs.kept (c := c) rfl rfl rfl rfl (by simp [Event.About])
  | governed settings boostList => exact ⟨hs.ledger, hs.validators⟩
  | otherQuery responder timeout =>
    exact hs.moved (c := bnc) (.kept (Or.inr ⟨responder, timeout, rfl⟩) rfl rfl) rfl rfl

omit [DecidableEq AccountId] in
theorem numbered_genesis (ids : QueryIds cfg) (settings : Settings AccountId)
    (minting : VtokenMinting.State cfg.minting) (xcm : cfg.Xcm) :
    Numbered ids (genesis cfg settings minting xcm) :=
  ⟨Outstanding.empty _, Outstanding.empty _⟩

theorem numbered_run (ids : QueryIds cfg) (settings : Settings AccountId)
    (minting : VtokenMinting.State cfg.minting) (xcm : cfg.Xcm) (calls : List (Call cfg)) :
    Numbered ids (run step (genesis cfg settings minting xcm) calls) := by
  have hstep (s : State cfg) (call : Call cfg) (s' : State cfg) (hs : Numbered ids s) (_ : True)
      (h : step s call = .ok s') : Numbered ids s' := numbered_step hs h
  exact run_invariant hstep calls (numbered_genesis ids settings minting xcm) (meets_true calls _)

omit [DecidableEq AccountId] in
theorem answersValidators_none (h : call.answersLedger = some q) :
    call.answersValidators = none := by
  cases call <;> first | rfl | cases h

theorem answersLedger_waits (h : step s call = .ok s') (hcall : call.answersLedger = some q) :
    s.delegatorLedgerXcmUpdateQueue q ≠ none := by
  cases step_ok h with
  | ledgerAnswered _ q' _ hcall' hanswer =>
    obtain rfl : q' = q := Option.some_inj.mp (hcall'.symm.trans hcall)
    generalize s.confirmed call = applied at hanswer
    cases hanswer <;> simp [*]
  | noted _ _ _ _ hnote => cases call <;> first | exact hnote.elim | cases hcall
  | validatorsAnswered _ _ _ hcall' => cases (answersValidators_none hcall).symm.trans hcall'
  | _ => cases hcall

theorem answersValidators_waits (h : step s call = .ok s')
    (hcall : call.answersValidators = some q) : s.validatorsByDelegatorXcmUpdateQueue q ≠ none := by
  cases step_ok h with
  | validatorsAnswered _ q' _ hcall' hanswer =>
    obtain rfl : q' = q := Option.some_inj.mp (hcall'.symm.trans hcall)
    cases hanswer <;> simp [*]
  | noted _ _ _ _ hnote => cases call <;> first | exact hnote.elim | cases hcall
  | ledgerAnswered _ _ _ hcall' => cases (answersValidators_none hcall').symm.trans hcall
  | _ => cases hcall

/-- In every run each query is answered once, and an answer that comes late or again, by message or
by hand, changes nothing. -/
theorem queries_answered_once (ids : QueryIds cfg) (settings : Settings AccountId)
    (minting : VtokenMinting.State cfg.minting) (xcm : cfg.Xcm) (calls : List (Call cfg)) :
    let s := run step (genesis cfg settings minting xcm) calls
    (answeredLedger s.events).Nodup ∧ (answeredValidators s.events).Nodup ∧
      ∀ (call : Call cfg) q,
        (call.answersLedger = some q → q ∈ answeredLedger s.events → exec step s call = s) ∧
        (call.answersValidators = some q → q ∈ answeredValidators s.events →
          exec step s call = s) := by
  intro s
  obtain ⟨hledger, hvalidators⟩ : Numbered ids s := numbered_run ids settings minting xcm calls
  refine ⟨hledger.once, hvalidators.once, fun call q => ⟨fun hcall hq => ?_, fun hcall hq => ?_⟩⟩
  · refine (exec_cases step s call).resolve_left fun h => ?_
    exact (hledger.waits q (answersLedger_waits h hcall)).2 hq
  · refine (exec_cases step s call).resolve_left fun h => ?_
    exact (hvalidators.waits q (answersValidators_waits h hcall)).2 hq

/-! One currency. -/

def LedgerUpdateEntry.names : LedgerUpdateEntry AccountId → CurrencyId
  | .substrate entry => entry.currencyId
  | .moonbeam entry => entry.currencyId
  | .parachainStaking entry => entry.currencyId

omit [DecidableEq AccountId] in
theorem LedgerUpdateEntry.names_eq {entry : LedgerUpdateEntry AccountId}
    (h : entry.currencyId = .ok c) : entry.names = c := by
  cases entry with
  | substrate entry => exact Except.ok.inj h
  | moonbeam entry => simp [LedgerUpdateEntry.currencyId] at h
  | parachainStaking entry => exact Except.ok.inj h

/-- The entries of a currency that wait for an answer. -/
def State.pendingLedger (s : State cfg) (c : CurrencyId) (q : ℕ) :
    Option (LedgerUpdateEntry AccountId × ℕ) :=
  (s.delegatorLedgerXcmUpdateQueue q).filter fun waiting => waiting.1.names = c

def State.pendingValidators (s : State cfg) (c : CurrencyId) (q : ℕ) :
    Option (ValidatorsByDelegatorUpdateEntry AccountId × ℕ) :=
  (s.validatorsByDelegatorXcmUpdateQueue q).filter fun waiting => waiting.1.currencyId = c

/-- From `s` to `s'`, the ledgers, the validator lists and the waiting queries of every currency
other than `A` are left as they are. -/
structure ConfinedTo (A : CurrencyId) (s s' : State cfg) : Prop where
  ledgers : ∀ B, B ≠ A → s'.delegatorLedgers B = s.delegatorLedgers B
  validators : ∀ B, B ≠ A → s'.settings.validators B = s.settings.validators B
  validatorsByDelegator : ∀ B, B ≠ A → s'.validatorsByDelegator B = s.validatorsByDelegator B
  pendingLedger : ∀ B, B ≠ A → s'.pendingLedger B = s.pendingLedger B
  pendingValidators : ∀ B, B ≠ A → s'.pendingValidators B = s.pendingValidators B

/-- The queries a call answers wait for an entry of `A`. -/
def AnswersOwn (A : CurrencyId) (s : State cfg) (call : Call cfg) : Prop :=
  (∀ q entry timeout, call.answersLedger = some q →
    s.delegatorLedgerXcmUpdateQueue q = some (entry, timeout) → entry.names = A) ∧
  ∀ q entry timeout, call.answersValidators = some q →
    s.validatorsByDelegatorXcmUpdateQueue q = some (entry, timeout) → entry.currencyId = A

/-- Calls signed by `w`, and what goes on in other pallets meanwhile. -/
def Call.SignedBy (w : AccountId) : Call cfg → Prop
  | .operate origin _ _ | .updateOngoingTimeUnit origin _ _
  | .chargeHostFeeAndTuneVtokenExchangeRate origin _ _ _ _ | .setDelegatorLedger origin _ _ _
  | .confirmDelegatorLedgerQueryResponse origin _ _
  | .failDelegatorLedgerQueryResponse origin _ _
  | .confirmValidatorsByDelegatorQueryResponse origin _ _
  | .failValidatorsByDelegatorQueryResponse origin _ _ | .confirmDelegatorLedger origin _ _
  | .confirmValidatorsByDelegator origin _ _ | .cleanOutdatedValidatorBoostList origin _ _
  | .removeDelegator origin _ _ | .setValidatorsByDelegator origin _ _ _ => origin = .signed w
  | .govern _ _ => False
  | .world _ _ | .otherQuery _ _ => True

variable {A : CurrencyId} {s₀ : State cfg}

omit [DecidableEq AccountId] in
theorem ConfinedTo.trans_iff (h : ConfinedTo A s₀ s) : ConfinedTo A s₀ s' ↔ ConfinedTo A s s' := by
  constructor
  · intro h'
    constructor
    · exact fun B hB => (h'.ledgers B hB).trans (h.ledgers B hB).symm
    · exact fun B hB => (h'.validators B hB).trans (h.validators B hB).symm
    · exact fun B hB => (h'.validatorsByDelegator B hB).trans (h.validatorsByDelegator B hB).symm
    · exact fun B hB => (h'.pendingLedger B hB).trans (h.pendingLedger B hB).symm
    · exact fun B hB => (h'.pendingValidators B hB).trans (h.pendingValidators B hB).symm
  · intro h'
    constructor
    · exact fun B hB => (h'.ledgers B hB).trans (h.ledgers B hB)
    · exact fun B hB => (h'.validators B hB).trans (h.validators B hB)
    · exact fun B hB => (h'.validatorsByDelegator B hB).trans (h.validatorsByDelegator B hB)
    · exact fun B hB => (h'.pendingLedger B hB).trans (h.pendingLedger B hB)
    · exact fun B hB => (h'.pendingValidators B hB).trans (h.pendingValidators B hB)

theorem filter_update {α : Type} {queue : ℕ → Option α} {p : α → Bool} {o : Option α} {q q' : ℕ}
    (hold : (queue q).filter p = none) (hnew : o.filter p = none) :
    (Function.update queue q o q').filter p = (queue q').filter p := by
  by_cases heq : q' = q
  · rw [heq, Function.update_self, hold, hnew]
  · rw [Function.update_of_ne heq]

omit [DecidableEq AccountId] in
theorem Moved.pending (hs : Numbered ids s) (h : Moved A s s') {B : CurrencyId} (hB : B ≠ A) :
    s'.pendingLedger B = s.pendingLedger B ∧ s'.pendingValidators B = s.pendingValidators B := by
  have hother : A ≠ B := fun heq => hB heq.symm
  cases h with
  | kept hx hl hv =>
    constructor
    · funext q
      rw [State.pendingLedger, hl, State.pendingLedger]
    · funext q
      rw [State.pendingValidators, hv, State.pendingValidators]
  | ledger r t timeout entry hx hc hl hv =>
    constructor
    · funext q
      rw [State.pendingLedger, hl]
      refine filter_update ?_ ?_
      · rw [hs.ledger.queue_eq_none (ids.fresh _ _ _), Option.filter_none]
      · simp [LedgerUpdateEntry.names_eq hc, hother]
    · funext q
      rw [State.pendingValidators, hv, State.pendingValidators]
  | validators r t timeout entry hx hc hl hv =>
    constructor
    · funext q
      rw [State.pendingLedger, hl, State.pendingLedger]
    · funext q
      rw [State.pendingValidators, hv]
      refine filter_update ?_ ?_
      · rw [hs.validators.queue_eq_none (ids.fresh _ _ _), Option.filter_none]
      · simp [hc, hother]

theorem LedgerAnswer.confined_iff {o : Option (LedgerUpdateEntry AccountId)}
    (h : LedgerAnswer q s o s') : ConfinedTo A s s' ↔
      ∀ entry timeout, s.delegatorLedgerXcmUpdateQueue q = some (entry, timeout) →
        entry.names = A := by
  have hframe : ∃ entry timeout, s.delegatorLedgerXcmUpdateQueue q = some (entry, timeout) ∧
      s'.delegatorLedgerXcmUpdateQueue = Function.update s.delegatorLedgerXcmUpdateQueue q none ∧
      s'.validatorsByDelegatorXcmUpdateQueue = s.validatorsByDelegatorXcmUpdateQueue ∧
      s'.settings = s.settings ∧ s'.validatorsByDelegator = s.validatorsByDelegator ∧
      ∀ B, B ≠ entry.names → s'.delegatorLedgers B = s.delegatorLedgers B := by
    cases h with
    | confirmed entry timeout c agent who l l' occ hq hdue hc hagent hget hl =>
      refine ⟨entry, timeout, hq, rfl, rfl, rfl, rfl, fun B hB => ?_⟩
      rw [LedgerUpdateEntry.names_eq hc] at hB
      exact Function.update_of_ne hB _ _
    | failed entry timeout c hq hc => exact ⟨entry, timeout, hq, rfl, rfl, rfl, rfl, fun _ _ => rfl⟩
  obtain ⟨entry, timeout, hq, hl, hv, hsettings, hlists, hledgers⟩ := hframe
  constructor
  · intro hconfined entry' timeout' hq'
    by_contra hne
    -- the entry was waiting for its currency, and is not any more
    have hpending := congrFun (hconfined.pendingLedger entry'.names hne) q
    rw [State.pendingLedger, State.pendingLedger, hl, Function.update_self, hq'] at hpending
    simp [Option.filter] at hpending
  · intro hall
    have hA := hall entry timeout hq
    constructor
    · exact fun B hB => hledgers B (hA ▸ hB)
    · exact fun B _ => by rw [hsettings]
    · exact fun B _ => by rw [hlists]
    · intro B hB
      funext q'
      rw [State.pendingLedger, hl]
      refine filter_update ?_ (Option.filter_none _)
      have hother : A ≠ B := fun heq => hB heq.symm
      simp [hq, hA, hother]
    · intro B _
      funext q'
      rw [State.pendingValidators, hv, State.pendingValidators]

theorem ValidatorsAnswer.confined_iff (h : ValidatorsAnswer q s s') : ConfinedTo A s s' ↔
    ∀ entry timeout, s.validatorsByDelegatorXcmUpdateQueue q = some (entry, timeout) →
      entry.currencyId = A := by
  have hframe : ∃ entry timeout, s.validatorsByDelegatorXcmUpdateQueue q = some (entry, timeout) ∧
      s'.validatorsByDelegatorXcmUpdateQueue =
        Function.update s.validatorsByDelegatorXcmUpdateQueue q none ∧
      s'.delegatorLedgerXcmUpdateQueue = s.delegatorLedgerXcmUpdateQueue ∧
      s'.settings = s.settings ∧ s'.delegatorLedgers = s.delegatorLedgers ∧
      ∀ B, B ≠ entry.currencyId → s'.validatorsByDelegator B = s.validatorsByDelegator B := by
    cases h with
    | confirmed entry timeout hq hdue =>
      exact ⟨entry, timeout, hq, rfl, rfl, rfl, rfl, fun B hB => Function.update_of_ne hB _ _⟩
    | failed entry timeout hq => exact ⟨entry, timeout, hq, rfl, rfl, rfl, rfl, fun _ _ => rfl⟩
  obtain ⟨entry, timeout, hq, hv, hl, hsettings, hledgers, hlists⟩ := hframe
  constructor
  · intro hconfined entry' timeout' hq'
    by_contra hne
    have hpending := congrFun (hconfined.pendingValidators entry'.currencyId hne) q
    rw [State.pendingValidators, State.pendingValidators, hv, Function.update_self, hq'] at hpending
    simp [Option.filter] at hpending
  · intro hall
    have hA := hall entry timeout hq
    constructor
    · exact fun B _ => by rw [hledgers]
    · exact fun B _ => by rw [hsettings]
    · exact fun B hB => hlists B (hA ▸ hB)
    · intro B _
      funext q'
      rw [State.pendingLedger, hl, State.pendingLedger]
    · intro B hB
      funext q'
      rw [State.pendingValidators, hv]
      refine filter_update ?_ (Option.filter_none _)
      have hother : A ≠ B := fun heq => hB heq.symm
      simp [hq, hA, hother]

section

omit [DecidableEq AccountId]

theorem confinedTo_of_eq (hledgers : ∀ B, B ≠ A → s'.delegatorLedgers B = s.delegatorLedgers B)
    (hsettings : s'.settings = s.settings) (hlists : s'.validatorsByDelegator = s.validatorsByDelegator)
    (hl : s'.delegatorLedgerXcmUpdateQueue = s.delegatorLedgerXcmUpdateQueue)
    (hv : s'.validatorsByDelegatorXcmUpdateQueue = s.validatorsByDelegatorXcmUpdateQueue) :
    ConfinedTo A s s' where
  ledgers := hledgers
  validators B _ := by rw [hsettings]
  validatorsByDelegator B _ := by rw [hlists]
  pendingLedger B _ := by
    funext q
    rw [State.pendingLedger, hl, State.pendingLedger]
  pendingValidators B _ := by
    funext q
    rw [State.pendingValidators, hv, State.pendingValidators]

theorem answersOwn_of_none (hl : call.answersLedger = none) (hv : call.answersValidators = none) :
    AnswersOwn A s call := by
  constructor
  · intro q entry timeout hcall
    rw [hl] at hcall
    cases hcall
  · intro q entry timeout hcall
    rw [hv] at hcall
    cases hcall

theorem Call.IsNote.answersValidators_eq (h : call.IsNote) : call.answersValidators = none := by
  cases call <;> first | rfl | exact h.elim

theorem answersValidators_eq_none (h : call.answersLedger = some q) :
    call.answersValidators = none := by
  cases call <;> first | rfl | simp [Call.answersLedger] at h

end

/-- A call of the operator of `A` alone touches another currency exactly if it answers a query of
that currency. -/
theorem confined_step_iff {w : AccountId}
    (honly : ∀ B, s.settings.operateOrigins B = some w → B = A) (hscope : call.SignedBy w)
    (hs : Numbered ids s) (h : step s call = .ok s') :
    s'.settings = s.settings ∧ (ConfinedTo A s s' ↔ AnswersOwn A s call) := by
  cases step_ok h with
  | operated origin c operation agent e s₁ hauth hagent heffect he hleave =>
    cases (hscope : origin = .signed w)
    cases honly c hauth
    obtain ⟨hledgers, hlists, hsettings⟩ := heffect.elsewhere
    refine ⟨hsettings, iff_of_true ?_ (answersOwn_of_none rfl rfl)⟩
    constructor
    · exact hledgers
    · exact fun B _ => congrFun (congrArg Settings.validators hsettings) B
    · exact fun B _ => congrFun hlists B
    · exact fun B hB => (heffect.moved.pending hs hB).1
    · exact fun B hB => (heffect.moved.pending hs hB).2
  | noted _ _ c es hcall hnoted hes =>
    refine ⟨hnoted.settings, iff_of_true ?_
      (answersOwn_of_none hcall.answersLedger_eq hcall.answersValidators_eq)⟩
    exact confinedTo_of_eq (fun B _ => by rw [hnoted.ledgers]) hnoted.settings
      hnoted.validatorsByDelegator hnoted.ledgerQueue hnoted.validatorsQueue
  | tuned origin c poolValue delegatorValue who s₁ _ es hauth htuned hnoted hes =>
    cases (hscope : origin = .signed w)
    cases honly c hauth
    obtain ⟨hledgers, ledgers, rfl⟩ := htuned.frame
    refine ⟨hnoted.settings, iff_of_true ?_ (answersOwn_of_none rfl rfl)⟩
    refine confinedTo_of_eq (fun B hB => ?_) hnoted.settings hnoted.validatorsByDelegator
      hnoted.ledgerQueue hnoted.validatorsQueue
    rw [hnoted.ledgers]
    exact hledgers B hB
  | ledgerSet origin c who ledger hauth =>
    cases (hscope : origin = .signed w)
    cases honly c hauth
    refine ⟨rfl, iff_of_true ?_ (answersOwn_of_none rfl rfl)⟩
    exact confinedTo_of_eq (fun B hB => Function.update_of_ne hB _ _) rfl rfl rfl rfl
  | ledgerAnswered _ q _ hcall hanswer =>
    refine ⟨?_, hanswer.confined_iff.trans ?_⟩
    · generalize s.confirmed call = o at hanswer
      cases hanswer <;> rfl
    · constructor
      · intro hall
        refine ⟨fun q' entry timeout hcall' hq' => ?_, fun q' entry timeout hcall' => ?_⟩
        · rw [hcall] at hcall'
          cases hcall'
          exact hall entry timeout hq'
        · rw [answersValidators_eq_none hcall] at hcall'
          cases hcall'
      · rintro ⟨hall, -⟩ entry timeout hq
        exact hall q entry timeout hcall hq
  | validatorsAnswered _ q _ hcall hanswer =>
    refine ⟨?_, hanswer.confined_iff.trans ?_⟩
    · cases hanswer <;> rfl
    · constructor
      · intro hall
        refine ⟨fun q' entry timeout hcall' => ?_, fun q' entry timeout hcall' hq' => ?_⟩
        · rw [answersLedger_eq_none hcall] at hcall'
          cases hcall'
        · rw [hcall] at hcall'
          cases hcall'
          exact hall entry timeout hq'
      · rintro ⟨-, hall⟩ entry timeout hq
        exact hall q entry timeout hcall hq
  | removed origin c who settings horigin =>
    cases (hscope : origin = .signed w)
    cases horigin
  | validatorsSet origin c who validators list horigin =>
    cases (hscope : origin = .signed w)
    cases horigin
  | governed settings boostList => exact (hscope : False).elim
  | otherQuery responder timeout =>
    refine ⟨rfl, iff_of_true ?_ (answersOwn_of_none rfl rfl)⟩
    exact confinedTo_of_eq (fun _ _ => rfl) rfl rfl rfl rfl

/-- A call that answers a query finds it waiting: it is confirmed in time, or failed with nothing
but the entry gone. -/
def AnswersWaiting (s : State cfg) (call : Call cfg) : Prop :=
  (∀ s' q, step s call = .ok s' → call.answersLedger = some q →
    ∃ entry timeout, s.delegatorLedgerXcmUpdateQueue q = some (entry, timeout) ∧
      ((s.currentBlockNumber ≤ timeout ∧
          s'.events = s.events ++ [.delegatorLedgerQueryResponseConfirmed q entry]) ∨
        (s'.delegatorLedgers = s.delegatorLedgers ∧
          s'.events = s.events ++ [.delegatorLedgerQueryResponseFailed q]))) ∧
  ∀ s' q, step s call = .ok s' → call.answersValidators = some q →
    ∃ entry timeout, s.validatorsByDelegatorXcmUpdateQueue q = some (entry, timeout) ∧
      ((s.currentBlockNumber ≤ timeout ∧
          s'.events = s.events ++ [.validatorsByDelegatorQueryResponseConfirmed q entry]) ∨
        (s'.validatorsByDelegator = s.validatorsByDelegator ∧
          s'.events = s.events ++ [.validatorsByDelegatorQueryResponseFailed q]))

theorem LedgerAnswer.waiting {o : Option (LedgerUpdateEntry AccountId)}
    (h : LedgerAnswer q s o s') :
    ∃ entry timeout, s.delegatorLedgerXcmUpdateQueue q = some (entry, timeout) ∧
      ((s.currentBlockNumber ≤ timeout ∧
          s'.events = s.events ++ [.delegatorLedgerQueryResponseConfirmed q entry]) ∨
        (s'.delegatorLedgers = s.delegatorLedgers ∧
          s'.events = s.events ++ [.delegatorLedgerQueryResponseFailed q])) := by
  cases h with
  | confirmed entry timeout c agent who l l' occ hq hdue hc hagent hget hl =>
    exact ⟨entry, timeout, hq, Or.inl ⟨hdue, rfl⟩⟩
  | failed entry timeout c hq hc => exact ⟨entry, timeout, hq, Or.inr ⟨rfl, rfl⟩⟩

theorem ValidatorsAnswer.waiting (h : ValidatorsAnswer q s s') :
    ∃ entry timeout, s.validatorsByDelegatorXcmUpdateQueue q = some (entry, timeout) ∧
      ((s.currentBlockNumber ≤ timeout ∧
          s'.events = s.events ++ [.validatorsByDelegatorQueryResponseConfirmed q entry]) ∨
        (s'.validatorsByDelegator = s.validatorsByDelegator ∧
          s'.events = s.events ++ [.validatorsByDelegatorQueryResponseFailed q])) := by
  cases h with
  | confirmed entry timeout hq hdue => exact ⟨entry, timeout, hq, Or.inl ⟨hdue, rfl⟩⟩
  | failed entry timeout hq => exact ⟨entry, timeout, hq, Or.inr ⟨rfl, rfl⟩⟩

theorem answersWaiting (s : State cfg) (call : Call cfg) : AnswersWaiting s call := by
  constructor
  · intro s' q h hcall
    cases call with
    | confirmDelegatorLedgerQueryResponse origin c q' =>
      cases hcall
      simp only [step, bind_eq_ok] at h
      obtain ⟨-, -, h⟩ := h
      exact (processLedger_ok h).waiting
    | failDelegatorLedgerQueryResponse origin c q' =>
      cases hcall
      simp only [step, bind_eq_ok] at h
      obtain ⟨-, -, h⟩ := h
      exact (doFailLedger_ok h).waiting
    | confirmDelegatorLedger origin q' success =>
      cases hcall
      simp only [step, bind_eq_ok] at h
      obtain ⟨-, -, h⟩ := h
      split at h
      · exact (processLedger_ok h).waiting
      · exact (doFailLedger_ok h).waiting
    | _ => cases hcall
  · intro s' q h hcall
    cases call with
    | confirmValidatorsByDelegatorQueryResponse origin c q' =>
      cases hcall
      simp only [step, bind_eq_ok] at h
      obtain ⟨-, -, h⟩ := h
      exact (processValidators_ok h).waiting
    | failValidatorsByDelegatorQueryResponse origin c q' =>
      cases hcall
      simp only [step, bind_eq_ok] at h
      obtain ⟨-, -, h⟩ := h
      exact (doFailValidators_ok h).waiting
    | confirmValidatorsByDelegator origin q' success =>
      cases hcall
      simp only [step, bind_eq_ok] at h
      obtain ⟨-, -, h⟩ := h
      split at h
      · exact (processValidators_ok h).waiting
      · exact (doFailValidators_ok h).waiting
    | _ => cases hcall

end Steps

section Runs

variable [DecidableEq AccountId]

/-- In any state that is reached from empty storage: calls signed by the operator of `A` leave
every other currency as it is exactly in the runs that answer no query of another currency. Each
query is answered once at most, and applied only while it waits and its time is not over. -/
theorem operators_confined_iff (ids : QueryIds cfg) (settings : Settings AccountId)
    (minting : VtokenMinting.State cfg.minting) (xcm : cfg.Xcm) (before calls : List (Call cfg))
    (A : CurrencyId) (w : AccountId) (s₀ : State cfg)
    (hs₀ : s₀ = run step (genesis cfg settings minting xcm) before)
    (honly : ∀ B, s₀.settings.operateOrigins B = some w → B = A)
    (hsigned : ∀ call ∈ calls, call.SignedBy w) :
    (Always step (ConfinedTo A s₀) s₀ calls ↔ Meets step (AnswersOwn A) s₀ calls) ∧
      (answeredLedger (run step s₀ calls).events).Nodup ∧
      (answeredValidators (run step s₀ calls).events).Nodup ∧
      Meets step AnswersWaiting (genesis cfg settings minting xcm) (before ++ calls) := by
  have hnumbered : Numbered ids s₀ := hs₀ ▸ numbered_run ids settings minting xcm before
  have hrun : Numbered ids (run step s₀ calls) := by
    rw [hs₀, run, run, ← List.foldl_append]
    exact numbered_run ids settings minting xcm (before ++ calls)
  refine ⟨?_, hrun.ledger.once, hrun.validators.once,
    meets_of_forall _ (fun call _ s => answersWaiting s call) _⟩
  have hstep (s : State cfg) (call : Call cfg) (s' : State cfg) (hcall : call.SignedBy w)
      (hs : s.settings = s₀.settings ∧ Numbered ids s) (hp : ConfinedTo A s₀ s)
      (h : step s call = .ok s') : (ConfinedTo A s₀ s' ↔ AnswersOwn A s call) ∧
        (ConfinedTo A s₀ s' → s'.settings = s₀.settings ∧ Numbered ids s') := by
    have honly' : ∀ B, s.settings.operateOrigins B = some w → B = A := by
      rw [hs.1]
      exact honly
    obtain ⟨hsettings, hiff⟩ := confined_step_iff honly' hcall hs.2 h
    exact ⟨hp.trans_iff.trans hiff, fun _ => ⟨hsettings.trans hs.1, numbered_step hs.2 h⟩⟩
  refine always_iff_meets (I := fun s => s.settings = s₀.settings ∧ Numbered ids s) hstep hsigned
    ⟨rfl, hnumbered⟩ ?_
  exact confinedTo_of_eq (fun _ _ => rfl) rfl rfl rfl rfl

end Runs

namespace Sample

/-- `pallet_xcm` counts. -/
def queryIds : QueryIds config where
  issued := fun n q => q < n
  fresh := fun n _ _ => Nat.lt_irrefl n
  issued_iff := fun n _ _ q => Nat.lt_succ_iff_lt_or_eq (m := q) (n := n)

/-- The operator of DOT bonds; the response is on its way. -/
def bondingDot : List (Call config) :=
  [.operate (.signed 2) dot (.bond delegator 100 none none)]

/-- The operator of KSM bonds and confirms the bond, naming KSM. -/
def bondedByOperator : List (Call config) :=
  [.operate (.signed 1) ksm (.bond delegator 50 none none),
    .confirmDelegatorLedgerQueryResponse (.signed 1) ksm 1]

end Sample

/-- The operator of KSM, after that of DOT has bonded. -/
theorem operators_confined_sample :
    let s₀ := run step Sample.start Sample.bondingDot
    Always step (ConfinedTo ksm s₀) s₀ Sample.bondedByOperator := by
  intro s₀
  refine (@operators_confined_iff _ Sample.config _ Sample.queryIds Sample.settings Sample.minting
    (0 : ℕ) Sample.bondingDot Sample.bondedByOperator ksm 1 s₀ rfl ?_ ?_).1.mpr ?_
  · intro B hB
    have hsettings : s₀.settings.operateOrigins = Sample.settings.operateOrigins := rfl
    rw [hsettings] at hB
    simp only [Sample.settings] at hB
    split at hB
    · assumption
    · split at hB
      · cases hB
      · split at hB <;> cases hB
  · simp [Sample.bondedByOperator, Call.SignedBy]
  · refine ⟨fun _ _ => answersOwn_of_none rfl rfl, fun _ _ => ⟨?_, fun _ _ _ h => nomatch h⟩, trivial⟩
    intro q entry timeout hcall hq
    cases hcall
    cases hq
    rfl

/-- The operator of KSM fails the query that DOT waits for, by naming KSM. -/
theorem foreign_query_failed :
    let s₀ := run step Sample.start Sample.bondingDot
    let s₁ := run step s₀ [.failDelegatorLedgerQueryResponse (.signed 1) ksm 0]
    s₀.settings.operateOrigins ksm = some 1 ∧ s₀.settings.operateOrigins dot = some 2 ∧
      (s₀.pendingLedger dot 0).isSome ∧ s₁.pendingLedger dot 0 = none ∧
      ¬ConfinedTo ksm s₀ s₁ := by
  refine ⟨rfl, rfl, rfl, rfl, fun h => ?_⟩
  have hpending := congrFun (h.pendingLedger dot (by decide)) 0
  cases hpending

end Bifrost.Slp
