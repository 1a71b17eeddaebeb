import Bifrost.Slp.Effects

/-!
# What a call does

The transitions of the slp pallet, one constructor for each way a call that succeeds can change
the storage, with what the call has checked. Invariants of the pallet are shown by cases on them.
-/

namespace Bifrost.Slp

open Result
set_option autoImplicit false

variable {AccountId : Type} [DecidableEq AccountId] {cfg : Config AccountId} {s s' : State cfg}
  {c : CurrencyId} {who : MultiLocation AccountId} {q : ℕ}

/-- The origins a call for `c` accepts. -/
def State.Authorized (s : State cfg) (c : CurrencyId) : Origin AccountId → Prop
  | .signed who => s.settings.operateOrigins c = some who
  | .control => True
  | .response => False

theorem ensureAuthorized_ok {origin : Origin AccountId} {u : PUnit}
    (h : s.ensureAuthorized c origin = .ok u) : s.Authorized c origin := by
  cases origin with
  | signed who =>
    rw [State.ensureAuthorized, ensure_eq_ok] at h
    exact h
  | control => trivial
  | response => simp [State.ensureAuthorized] at h

/-- The ledger the agent makes of `l` when `entry` is confirmed. -/
inductive AppliedBy : Agent → LedgerUpdateEntry AccountId → MultiLocation AccountId →
    Ledger AccountId → Ledger AccountId → Prop where
  | polkadot (entry : SubstrateLedgerUpdateEntry AccountId) (l l' : SubstrateLedger AccountId)
      (h : l.update entry = .ok l') :
      AppliedBy .polkadot (.substrate entry) entry.delegatorId (.substrate l) (.substrate l')
  | astar (entry : SubstrateLedgerUpdateEntry AccountId) (l l' : SubstrateLedger AccountId)
      (h : AstarAgent.updateLedger l entry = .ok l') :
      AppliedBy .astar (.substrate entry) entry.delegatorId (.substrate l) (.substrate l')
  | phala (entry : SubstrateLedgerUpdateEntry AccountId) (l l' : PhalaLedger AccountId)
      (h : l.update entry = .ok l') :
      AppliedBy .phala (.substrate entry) entry.delegatorId (.phala l) (.phala l')
  | parachainStaking (entry : ParachainStakingLedgerUpdateEntry AccountId)
      (l l' : OneToManyLedger AccountId) (hc : entry.currencyId ≠ bnc)
      (h : l.update entry = .ok l') :
      AppliedBy .parachainStaking (.parachainStaking entry) entry.delegatorId
        (.parachainStaking l) (.parachainStaking l')

/-- The entry the ledger query waits with, unless its time is over. -/
def State.dueEntry (s : State cfg) (q : ℕ) : Option (LedgerUpdateEntry AccountId) :=
  match s.delegatorLedgerXcmUpdateQueue q with
  | some (entry, timeout) => if s.currentBlockNumber ≤ timeout then some entry else none
  | none => none

/-- The answer to the ledger query `q`: the entry is confirmed, or the query has failed. -/
inductive LedgerAnswer (q : ℕ) (s : State cfg) :
    Option (LedgerUpdateEntry AccountId) → State cfg → Prop where
  | confirmed (entry : LedgerUpdateEntry AccountId) (timeout : ℕ) (c : CurrencyId) (agent : Agent)
      (who : MultiLocation AccountId) (l l' : Ledger AccountId) (occ : CurrencyId → Option Bool)
      (hq : s.delegatorLedgerXcmUpdateQueue q = some (entry, timeout))
      (hdue : s.currentBlockNumber ≤ timeout) (hc : entry.currencyId = .ok c)
      (hagent : getCurrencyStakingAgent c = .ok agent) (hget : s.getLedger c who = some l)
      (hl : AppliedBy agent entry who l l') :
      LedgerAnswer q s (some entry) ({ ((s.setLedger c who (some l')).setLedgerQuery q none) with
        delegationsOccupied := occ }.depositEvent (.delegatorLedgerQueryResponseConfirmed q entry))
  | failed (entry : LedgerUpdateEntry AccountId) (timeout : ℕ) (c : CurrencyId)
      (hq : s.delegatorLedgerXcmUpdateQueue q = some (entry, timeout))
      (hc : entry.currencyId = .ok c) :
      LedgerAnswer q s none
        ((s.setLedgerQuery q none).depositEvent (.delegatorLedgerQueryResponseFailed q))

/-- The answer to the query `q` about a nomination. -/
inductive ValidatorsAnswer (q : ℕ) (s : State cfg) : State cfg → Prop where
  | confirmed (entry : ValidatorsByDelegatorUpdateEntry AccountId) (timeout : ℕ)
      (hq : s.validatorsByDelegatorXcmUpdateQueue q = some (entry, timeout))
      (hdue : s.currentBlockNumber ≤ timeout) :
      ValidatorsAnswer q s (((s.setValidatorsByDelegator entry.currencyId entry.delegatorId
        entry.validators).setValidatorsQuery q none).depositEvent
          (.validatorsByDelegatorQueryResponseConfirmed q entry))
  | failed (entry : ValidatorsByDelegatorUpdateEntry AccountId) (timeout : ℕ)
      (hq : s.validatorsByDelegatorXcmUpdateQueue q = some (entry, timeout)) :
      ValidatorsAnswer q s
        ((s.setValidatorsQuery q none).depositEvent (.validatorsByDelegatorQueryResponseFailed q))

def Call.answersLedger : Call cfg → Option ℕ
  | .confirmDelegatorLedgerQueryResponse _ _ q | .failDelegatorLedgerQueryResponse _ _ q
  | .confirmDelegatorLedger _ q _ => some q
  | _ => none

def State.confirmed (s : State cfg) : Call cfg → Option (LedgerUpdateEntry AccountId)
  | .confirmDelegatorLedgerQueryResponse _ _ q | .confirmDelegatorLedger _ q true => s.dueEntry q
  | _ => none

def Call.answersValidators : Call cfg → Option ℕ
  | .confirmValidatorsByDelegatorQueryResponse _ _ q
  | .failValidatorsByDelegatorQueryResponse _ _ q | .confirmValidatorsByDelegator _ q _ => some q
  | _ => none

/-- The ledgers that tuning the exchange rate leaves: as they are, or one bonded further. -/
inductive Tuned (c : CurrencyId) (s : State cfg) : State cfg → Prop where
  | nothing : Tuned c s s
  | bonded (who : MultiLocation AccountId) (n : ℕ) (l l' : SubstrateLedger AccountId)
      (hget : s.getLedger c who = some (.substrate l)) (hl : l.bond n = .ok l') :
      Tuned c s (s.setLedger c who (some (.substrate l')))

/-- Only settled matters of other storage have changed, and the log says so with `es`. -/
structure Noted (es : List (Event AccountId)) (s s' : State cfg) : Prop where
  settings : s'.settings = s.settings
  validatorsByDelegator : s'.validatorsByDelegator = s.validatorsByDelegator
  validatorsQueue : s'.validatorsByDelegatorXcmUpdateQueue = s.validatorsByDelegatorXcmUpdateQueue
  ledgers : s'.delegatorLedgers = s.delegatorLedgers
  ledgerQueue : s'.delegatorLedgerXcmUpdateQueue = s.delegatorLedgerXcmUpdateQueue
  xcm : s'.xcm = s.xcm
  events : s'.events = s.events ++ es

/-- The events that report no ledger operation. -/
def Event.IsNote (c : CurrencyId) : Event AccountId → Prop
  | .timeUnitUpdated c' _ _ | .hostingFeeCharged c' _ | .poolTokenIncreased c' _
  | .outdatedValidatorBoostListCleaned c' _ _ _ => c' = c
  | _ => False

def Call.IsNote : Call cfg → Prop
  | .updateOngoingTimeUnit _ _ _ | .cleanOutdatedValidatorBoostList _ _ _ | .world _ _ => True
  | _ => False

/-- The ways a call succeeds. -/
inductive Transition (s : State cfg) : Call cfg → State cfg → Prop where
  | operated (origin : Origin AccountId) (c : CurrencyId) (operation : Operation AccountId)
      (agent : Agent) (e : Event AccountId) (s₁ : State cfg)
      (hauth : s.Authorized c origin)
      (hagent : getCurrencyStakingAgent c = .ok agent) (heffect : Effect agent c e s s₁)
      (he : e.About c)
      (hleave : ∀ who, (∃ q, e = .delegatorUnbondAll c who q) ↔
        ∃ wf, operation = .unbondAll who wf) :
      Transition s (.operate origin c operation) (s₁.depositEvent e)
  | noted (call : Call cfg) (s' : State cfg) (c : CurrencyId) (es : List (Event AccountId))
      (hcall : call.IsNote) (hnoted : Noted es s s')
      (hes : ∀ e ∈ es, e.IsNote c) : Transition s call s'
  | tuned (origin : Origin AccountId) (c : CurrencyId) (poolValue delegatorValue : ℕ)
      (who : Option (MultiLocation AccountId)) (s₁ s' : State cfg) (es : List (Event AccountId))
      (hauth : s.Authorized c origin) (htuned : Tuned c s s₁)
      (hnoted : Noted es s₁ s') (hes : ∀ e ∈ es, e.IsNote c) :
      Transition s
        (.chargeHostFeeAndTuneVtokenExchangeRate origin c poolValue delegatorValue who) s'
  | ledgerSet (origin : Origin AccountId) (c : CurrencyId) (who : MultiLocation AccountId)
      (ledger : Option (Ledger AccountId)) (hauth : s.Authorized c origin) :
      Transition s (.setDelegatorLedger origin c who ledger) (setDelegatorLedger s c who ledger)
  | ledgerAnswered (call : Call cfg) (q : ℕ) (s' : State cfg) (hcall : call.answersLedger = some q)
      (h : LedgerAnswer q s (s.confirmed call) s') : Transition s call s'
  | validatorsAnswered (call : Call cfg) (q : ℕ) (s' : State cfg)
      (hcall : call.answersValidators = some q) (h : ValidatorsAnswer q s s') :
      Transition s call s'
  | removed (origin : Origin AccountId) (c : CurrencyId) (who : MultiLocation AccountId)
      (settings : Settings AccountId) (horigin : origin = .control) :
      Transition s (.removeDelegator origin c who)
        (({ s with settings := settings }.setLedger c who none).depositEvent
          (.delegatorRemoved c who))
  | validatorsSet (origin : Origin AccountId) (c : CurrencyId) (who : MultiLocation AccountId)
      (validators list : List (MultiLocation AccountId)) (horigin : origin = .control) :
      Transition s (.setValidatorsByDelegator origin c who validators)
        ((s.setValidatorsByDelegator c who list).depositEvent
          (.validatorsByDelegatorSet c list who))
  | governed (settings : Settings AccountId)
      (boostList : CurrencyId → Option (List (MultiLocation AccountId × ℕ))) :
      Transition s (.govern settings boostList)
        { s with settings := settings, validatorBoostList := boostList }
  | otherQuery (responder timeout : ℕ) :
      Transition s (.otherQuery responder timeout)
        { s with xcm := (cfg.newNotifyQuery s.xcm responder timeout).2 }

/-- Every call but the one that writes a ledger as it is told. -/
def Call.KeepsAccount : Call cfg → Prop
  | .setDelegatorLedger _ _ _ _ => False
  | _ => True

/-! Answers. -/

theorem doFailLedger_ok (h : doFailDelegatorLedgerQueryResponse s q = .ok s') :
    LedgerAnswer q s none s' := by
  simp only [doFailDelegatorLedgerQueryResponse, bind_eq_ok, okOr_eq_ok, pure_eq_ok] at h
  obtain ⟨⟨entry, timeout⟩, hq, c, hc, -, -, rfl⟩ := h
  exact .failed entry timeout c hq hc

theorem checkLedger_ok {entry : LedgerUpdateEntry AccountId} {agent : Agent}
    (hc : entry.currencyId = .ok c)
    (h : checkDelegatorLedgerQueryResponse s q entry c agent = .ok s') :
    ∃ who l l' occ, s.getLedger c who = some l ∧ AppliedBy agent entry who l l' ∧
      s' = { ((s.setLedger c who (some l')).setLedgerQuery q none) with
        delegationsOccupied := occ }.depositEvent
          (.delegatorLedgerQueryResponseConfirmed q entry) := by
  cases agent with
  | polkadot =>
    cases entry with
    | substrate entry =>
      simp only [checkDelegatorLedgerQueryResponse,
        PolkadotAgent.checkDelegatorLedgerQueryResponse,
        PolkadotAgent.updateLedgerQueryResponseStorage, bind_eq_ok, pure_eq_ok] at h
      obtain ⟨-, ⟨s₁, hmutate, rfl⟩, rfl⟩ := h
      obtain ⟨l, l', hget, hl, rfl⟩ := mutateSubstrate_ok hmutate
      exact ⟨_, _, _, s.delegationsOccupied, hget, .polkadot entry l l' hl, rfl⟩
    | moonbeam entry => simp [LedgerUpdateEntry.currencyId] at hc
    | parachainStaking entry =>
      simp [checkDelegatorLedgerQueryResponse, PolkadotAgent.checkDelegatorLedgerQueryResponse,
        PolkadotAgent.updateLedgerQueryResponseStorage] at h
  | astar =>
    cases entry with
    | substrate entry =>
      simp only [checkDelegatorLedgerQueryResponse, AstarAgent.checkDelegatorLedgerQueryResponse,
        AstarAgent.updateLedgerQueryResponseStorage, bind_eq_ok, pure_eq_ok] at h
      obtain ⟨-, ⟨s₁, hmutate, rfl⟩, rfl⟩ := h
      obtain ⟨l, l', hget, hl, rfl⟩ := mutateSubstrate_ok hmutate
      exact ⟨_, _, _, s.delegationsOccupied, hget, .astar entry l l' hl, rfl⟩
    | moonbeam entry => simp [LedgerUpdateEntry.currencyId] at hc
    | parachainStaking entry =>
      simp [checkDelegatorLedgerQueryResponse, AstarAgent.checkDelegatorLedgerQueryResponse,
        AstarAgent.updateLedgerQueryResponseStorage] at h
  | phala =>
    cases entry with
    | substrate entry =>
      simp only [checkDelegatorLedgerQueryResponse, PhalaAgent.checkDelegatorLedgerQueryResponse,
        PhalaAgent.updateLedgerQueryResponseStorage, bind_eq_ok, pure_eq_ok] at h
      obtain ⟨-, ⟨s₁, hmutate, rfl⟩, rfl⟩ := h
      obtain ⟨l, l', hget, hl, rfl⟩ := mutatePhala_ok hmutate
      exact ⟨_, _, _, s.delegationsOccupied, hget, .phala entry l l' hl, rfl⟩
    | moonbeam entry => simp [LedgerUpdateEntry.currencyId] at hc
    | parachainStaking entry =>
      simp [checkDelegatorLedgerQueryResponse, PhalaAgent.checkDelegatorLedgerQueryResponse,
        PhalaAgent.updateLedgerQueryResponseStorage] at h
  | parachainStaking =>
    cases entry with
    | substrate entry =>
      simp [checkDelegatorLedgerQueryResponse,
        ParachainStakingAgent.checkDelegatorLedgerQueryResponse,
        ParachainStakingAgent.updateLedgerQueryResponseStorage] at h
    | moonbeam entry => simp [LedgerUpdateEntry.currencyId] at hc
    | parachainStaking entry =>
      simp only [checkDelegatorLedgerQueryResponse,
        ParachainStakingAgent.checkDelegatorLedgerQueryResponse,
        ParachainStakingAgent.updateLedgerQueryResponseStorage, bind_eq_ok, ensure_eq_ok,
        pure_eq_ok, exists_const] at h
      obtain ⟨hbnc, -, ⟨s₁, hmutate, rfl⟩, s₂, hoccupied, rfl⟩ := h
      obtain ⟨l, l', hget, hl, rfl⟩ := mutateOneToMany_ok hmutate
      obtain ⟨occ, rfl⟩ := updateAllOccupied_ok hoccupied
      have hentry : entry.currencyId ≠ bnc := by
        simp only [LedgerUpdateEntry.currencyId, pure_eq_ok] at hc
        rwa [hc]
      exact ⟨_, _, _, occ, hget, .parachainStaking entry l l' hentry hl, rfl⟩

theorem processLedger_ok (h : getLedgerUpdateAgentThenProcess s q = .ok s') :
    LedgerAnswer q s (s.dueEntry q) s' := by
  simp only [getLedgerUpdateAgentThenProcess, bind_eq_ok, okOr_eq_ok] at h
  obtain ⟨⟨entry, timeout⟩, hq, h⟩ := h
  split at h
  · rename_i hdue
    simp only [bind_eq_ok] at h
    obtain ⟨c, hc, agent, hagent, hcheck⟩ := h
    obtain ⟨who, l, l', occ, hget, hl, rfl⟩ := checkLedger_ok hc hcheck
    rw [State.dueEntry, hq]
    simp only [hdue, if_true]
    exact .confirmed entry timeout c agent who l l' occ hq hdue hc hagent hget hl
  · rename_i hover
    rw [State.dueEntry, hq]
    simp only [hover, if_false]
    exact doFailLedger_ok h

theorem doFailValidators_ok (h : doFailValidatorsByDelegatorQueryResponse s q = .ok s') :
    ValidatorsAnswer q s s' := by
  simp only [doFailValidatorsByDelegatorQueryResponse, bind_eq_ok, okOr_eq_ok] at h
  obtain ⟨⟨entry, timeout⟩, hq, agent, -, h⟩ := h
  cases agent with
  | polkadot =>
    simp only [failValidatorsByDelegatorQueryResponse,
      PolkadotAgent.failValidatorsByDelegatorQueryResponse, pure_eq_ok] at h
    subst s'
    exact .failed entry timeout hq
  | parachainStaking => simp [failValidatorsByDelegatorQueryResponse, unsupported] at h
  | phala => simp [failValidatorsByDelegatorQueryResponse, unsupported] at h
  | astar => simp [failValidatorsByDelegatorQueryResponse, unsupported] at h

theorem processValidators_ok (h : getValidatorsByDelegatorUpdateAgentThenProcess s q = .ok s') :
    ValidatorsAnswer q s s' := by
  simp only [getValidatorsByDelegatorUpdateAgentThenProcess, bind_eq_ok, okOr_eq_ok] at h
  obtain ⟨⟨entry, timeout⟩, hq, h⟩ := h
  split at h
  · rename_i hdue
    simp only [bind_eq_ok] at h
    obtain ⟨agent, -, h⟩ := h
    cases agent with
    | polkadot =>
      simp only [checkValidatorsByDelegatorQueryResponse,
        PolkadotAgent.checkValidatorsByDelegatorQueryResponse, bind_eq_ok, pure_eq_ok] at h
      obtain ⟨-, -, rfl⟩ := h
      exact .confirmed entry timeout hq hdue
    | parachainStaking => simp [checkValidatorsByDelegatorQueryResponse, unsupported] at h
    | phala => simp [checkValidatorsByDelegatorQueryResponse, unsupported] at h
    | astar => simp [checkValidatorsByDelegatorQueryResponse, unsupported] at h
  · exact doFailValidators_ok h

/-! The exchange rate. -/

section

omit [DecidableEq AccountId]

theorem innerChargeHostingFee_ok {amount : ℕ} {beneficiary : MultiLocation AccountId}
    (h : s.innerChargeHostingFee amount beneficiary c = .ok s') :
    ∃ minting, s' = { s with minting := minting } := by
  simp only [State.innerChargeHostingFee, bind_eq_ok] at h
  obtain ⟨-, -, _, -, L, -, h⟩ := h
  split at h
  · simp only [bind_eq_ok, pure_eq_ok] at h
    obtain ⟨_, -, minting, -, rfl⟩ := h
    exact ⟨minting, rfl⟩
  · rw [pure_eq_ok] at h
    exact ⟨_, h.symm⟩

theorem chargeHostingFee_ok {amount : ℕ} {beneficiary : MultiLocation AccountId} {agent : Agent}
    (h : chargeHostingFee s amount beneficiary c agent = .ok s') :
    ∃ minting, s' = { s with minting := minting } := by
  simp only [chargeHostingFee, bind_eq_ok] at h
  obtain ⟨_, -, _, -, h⟩ := h
  exact innerChargeHostingFee_ok h

theorem increaseTokenPool_ok {amount : ℕ} (h : s.increaseTokenPool c amount = .ok s') :
    ∃ minting, s' = { s with minting := minting } := by
  simp only [State.increaseTokenPool, bind_eq_ok, pure_eq_ok] at h
  obtain ⟨minting, -, rfl⟩ := h
  exact ⟨minting, rfl⟩

theorem handleHyperbridgeOracle_ok (h : s.handleHyperbridgeOracle c = .ok s') :
    ∃ minting, s' = { s with minting := minting } := by
  simp only [State.handleHyperbridgeOracle, bind_eq_ok, pure_eq_ok] at h
  obtain ⟨L, -, rfl⟩ := h
  exact ⟨_, rfl⟩

end

theorem tuneWithoutUpdate_ok {amount : ℕ}
    (h : s.tuneVtokenExchangeRateWithoutUpdateLedger who amount c = .ok s') :
    ∃ minting records,
      s' = { s with minting := minting, delegatorLatestTuneRecord := records } := by
  simp only [State.tuneVtokenExchangeRateWithoutUpdateLedger, bind_eq_ok, pure_eq_ok] at h
  obtain ⟨-, -, _, -, -, -, -, -, -, -, s₁, hpool, rfl⟩ := h
  obtain ⟨minting, rfl⟩ := increaseTokenPool_ok hpool
  exact ⟨minting, _, rfl⟩

theorem tuneVtokenExchangeRate_ok {w : Option (MultiLocation AccountId)} {pool delegator : ℕ}
    {agent : Agent} (h : tuneVtokenExchangeRate s w pool delegator c agent = .ok s') :
    ∃ s₁ minting records, Tuned c s s₁ ∧
      s' = { s₁ with minting := minting, delegatorLatestTuneRecord := records } := by
  have hsubstrate (h : PolkadotAgent.tuneVtokenExchangeRate s w pool delegator c = .ok s') :
      ∃ s₁ minting records, Tuned c s s₁ ∧
        s' = { s₁ with minting := minting, delegatorLatestTuneRecord := records } := by
    simp only [PolkadotAgent.tuneVtokenExchangeRate, bind_eq_ok] at h
    obtain ⟨who, -, s₁, hpool, s₂, hmutate, horacle⟩ := h
    obtain ⟨minting, records, rfl⟩ := tuneWithoutUpdate_ok hpool
    obtain ⟨l, l', hget, hl, rfl⟩ := mutateSubstrate_ok hmutate
    obtain ⟨minting', rfl⟩ := handleHyperbridgeOracle_ok horacle
    exact ⟨_, minting', records, .bonded who delegator l l' hget hl, rfl⟩
  cases agent with
  | polkadot => exact hsubstrate h
  | astar => exact hsubstrate h
  | parachainStaking =>
    simp only [tuneVtokenExchangeRate, ParachainStakingAgent.tuneVtokenExchangeRate,
      bind_eq_ok] at h
    obtain ⟨-, -, s₁, hpool, horacle⟩ := h
    obtain ⟨minting, rfl⟩ := increaseTokenPool_ok hpool
    obtain ⟨minting', rfl⟩ := handleHyperbridgeOracle_ok horacle
    exact ⟨s, minting', s.delegatorLatestTuneRecord, .nothing, rfl⟩
  | phala =>
    simp only [tuneVtokenExchangeRate, PhalaAgent.tuneVtokenExchangeRate, bind_eq_ok] at h
    obtain ⟨who, -, _, -, -, -, h⟩ := h
    obtain ⟨minting, records, rfl⟩ := tuneWithoutUpdate_ok h
    exact ⟨s, minting, records, .nothing, rfl⟩

/-! Calls. -/

theorem chargeHostFee_ok {w : Option (MultiLocation AccountId)} {pool delegator : ℕ}
    (h : chargeHostFeeAndTuneVtokenExchangeRate s c pool delegator w = .ok s') :
    ∃ s₁ es, Tuned c s s₁ ∧ Noted es s₁ s' ∧ ∀ e ∈ es, e.IsNote c := by
  simp only [chargeHostFeeAndTuneVtokenExchangeRate, bind_eq_ok, pure_eq_ok] at h
  obtain ⟨-, -, -, -, _, -, -, -, -, -, _, -, _, -, _, -, agent, -, s₁, hfee, s₂, htune, L, -, rfl⟩
    := h
  obtain ⟨minting, rfl⟩ := chargeHostingFee_ok hfee
  obtain ⟨s₃, minting', records, htuned, rfl⟩ := tuneVtokenExchangeRate_ok htune
  have hnote (n : ℕ) : ∀ e ∈ ([.hostingFeeCharged c n, .poolTokenIncreased c pool] :
      List (Event AccountId)), e.IsNote c := by
    simp [Event.IsNote]
  cases htuned with
  | nothing =>
    exact ⟨s, _, .nothing, ⟨rfl, rfl, rfl, rfl, rfl, rfl, List.append_assoc _ _ _⟩, hnote _⟩
  | bonded who n l l' hget hl =>
    exact ⟨_, _, .bonded who n l l' hget hl,
      ⟨rfl, rfl, rfl, rfl, rfl, rfl, List.append_assoc _ _ _⟩, hnote _⟩

theorem innerRemoveDelegator_ok (h : s.innerRemoveDelegator who c = .ok s') :
    ∃ settings, s' = { s with settings := settings }.setLedger c who none := by
  simp only [State.innerRemoveDelegator, bind_eq_ok, pure_eq_ok] at h
  obtain ⟨-, -, rfl⟩ := h
  exact ⟨_, rfl⟩

theorem removeDelegator_ok (h : removeDelegator s c who = .ok s') :
    ∃ settings, s' = ({ s with settings := settings }.setLedger c who none).depositEvent
      (.delegatorRemoved c who) := by
  simp only [removeDelegator, bind_eq_ok] at h
  obtain ⟨agent, -, h⟩ := h
  obtain ⟨s₁, hremove, rfl⟩ := reported_ok h
  have hsubstrate (h : PolkadotAgent.removeDelegator s who c = .ok s₁) :
      ∃ settings, s₁ = { s with settings := settings }.setLedger c who none := by
    simp only [PolkadotAgent.removeDelegator, bind_eq_ok] at h
    obtain ⟨_, -, _, -, -, -, h⟩ := h
    exact innerRemoveDelegator_ok h
  suffices hs : ∃ settings, s₁ = { s with settings := settings }.setLedger c who none by
    obtain ⟨settings, rfl⟩ := hs
    exact ⟨settings, rfl⟩
  cases agent with
  | polkadot => exact hsubstrate hremove
  | astar => exact hsubstrate hremove
  | parachainStaking =>
    simp only [removeDelegatorOf, ParachainStakingAgent.removeDelegator, bind_eq_ok] at hremove
    obtain ⟨ledger, -, hremove⟩ := hremove
    split at hremove
    · simp only [bind_eq_ok] at hremove
      obtain ⟨-, -, hremove⟩ := hremove
      exact innerRemoveDelegator_ok hremove
    · simp at hremove
  | phala =>
    simp only [removeDelegatorOf, PhalaAgent.removeDelegator, bind_eq_ok] at hremove
    obtain ⟨ledger, -, hremove⟩ := hremove
    split at hremove
    · simp only [bind_eq_ok] at hremove
      obtain ⟨-, -, -, -, hremove⟩ := hremove
      exact innerRemoveDelegator_ok hremove
    · simp at hremove

theorem step_ok {call : Call cfg} (h : step s call = .ok s') : Transition s call s' := by
  cases call with
  | operate origin c operation =>
    simp only [step, bind_eq_ok] at h
    obtain ⟨_, hauth, agent, hagent, hoperate⟩ := h
    obtain ⟨s₁, e, rfl, he, heffect, hleave⟩ := operate_ok hoperate
    exact .operated origin c operation agent e s₁ (ensureAuthorized_ok hauth) hagent heffect he
      hleave
  | updateOngoingTimeUnit origin c timeUnit =>
    simp only [step, updateOngoingTimeUnit, bind_eq_ok, pure_eq_ok] at h
    obtain ⟨-, -, _, -, _, -, -, -, -, -, -, -, rfl⟩ := h
    exact .noted _ _ c [_] trivial ⟨rfl, rfl, rfl, rfl, rfl, rfl, rfl⟩ (by simp [Event.IsNote])
  | chargeHostFeeAndTuneVtokenExchangeRate origin c pool delegator who =>
    simp only [step, bind_eq_ok] at h
    obtain ⟨_, hauth, h⟩ := h
    obtain ⟨s₁, es, htuned, hnoted, hes⟩ := chargeHostFee_ok h
    exact .tuned origin c pool delegator who s₁ s' es (ensureAuthorized_ok hauth) htuned hnoted hes
  | setDelegatorLedger origin c who ledger =>
    simp only [step, bind_eq_ok, pure_eq_ok] at h
    obtain ⟨_, hauth, rfl⟩ := h
    exact .ledgerSet origin c who ledger (ensureAuthorized_ok hauth)
  | confirmDelegatorLedgerQueryResponse origin c q =>
    simp only [step, bind_eq_ok] at h
    obtain ⟨-, -, h⟩ := h
    exact .ledgerAnswered _ q s' rfl (processLedger_ok h)
  | failDelegatorLedgerQueryResponse origin c q =>
    simp only [step, bind_eq_ok] at h
    obtain ⟨-, -, h⟩ := h
    exact .ledgerAnswered _ q s' rfl (doFailLedger_ok h)
  | confirmValidatorsByDelegatorQueryResponse origin c q =>
    simp only [step, bind_eq_ok] at h
    obtain ⟨-, -, h⟩ := h
    exact .validatorsAnswered _ q s' rfl (processValidators_ok h)
  | failValidatorsByDelegatorQueryResponse origin c q =>
    simp only [step, bind_eq_ok] at h
    obtain ⟨-, -, h⟩ := h
    exact .validatorsAnswered _ q s' rfl (doFailValidators_ok h)
  | confirmDelegatorLedger origin q success =>
    simp only [step, bind_eq_ok] at h
    obtain ⟨-, -, h⟩ := h
    cases success with
    | true => exact .ledgerAnswered _ q s' rfl (processLedger_ok h)
    | false => exact .ledgerAnswered _ q s' rfl (doFailLedger_ok h)
  | confirmValidatorsByDelegator origin q success =>
    simp only [step, bind_eq_ok] at h
    obtain ⟨-, -, h⟩ := h
    split at h
    · exact .validatorsAnswered _ q s' rfl (processValidators_ok h)
    · exact .validatorsAnswered _ q s' rfl (doFailValidators_ok h)
  | cleanOutdatedValidatorBoostList origin c page =>
    simp only [step, cleanOutdatedValidatorBoostList, bind_eq_ok, pure_eq_ok] at h
    obtain ⟨-, -, -, -, _, -, -, -, rfl⟩ := h
    exact .noted _ _ c [_] trivial ⟨rfl, rfl, rfl, rfl, rfl, rfl, rfl⟩ (by simp [Event.IsNote])
  | removeDelegator origin c who =>
    simp only [step, bind_eq_ok, ensure_eq_ok, exists_const] at h
    obtain ⟨horigin, h⟩ := h
    obtain ⟨settings, rfl⟩ := removeDelegator_ok h
    exact .removed origin c who settings horigin
  | setValidatorsByDelegator origin c who validators =>
    simp only [step, setValidatorsByDelegator, bind_eq_ok, ensure_eq_ok, pure_eq_ok,
      exists_const] at h
    obtain ⟨horigin, _, -, -, -, -, list, -, rfl⟩ := h
    exact .validatorsSet origin c who validators list horigin
  | govern settings boostList =>
    simp only [step, pure_eq_ok] at h
    subst s'
    exact .governed settings boostList
  | world minting blocks =>
    simp only [step, pure_eq_ok] at h
    subst s'
    exact .noted _ _ bnc [] trivial ⟨rfl, rfl, rfl, rfl, rfl, rfl, by simp⟩ (by simp)
  | otherQuery responder timeout =>
    simp only [step, pure_eq_ok] at h
    subst s'
    exact .otherQuery responder timeout

omit [DecidableEq AccountId] in
theorem confirmed_eq_none {call : Call cfg} (h : call.answersLedger = none) :
    s.confirmed call = none := by
  cases call <;> first | rfl | simp [Call.answersLedger] at h

omit [DecidableEq AccountId] in
theorem Call.IsNote.answersLedger_eq {call : Call cfg} (h : call.IsNote) :
    call.answersLedger = none := by
  cases call <;> first | rfl | exact h.elim

omit [DecidableEq AccountId] in
theorem answersLedger_eq_none {call : Call cfg} (h : call.answersValidators = some q) :
    call.answersLedger = none := by
  cases call <;> first | rfl | simp [Call.answersValidators] at h

theorem LedgerAnswer.applied {entry : LedgerUpdateEntry AccountId}
    (h : LedgerAnswer q s (some entry) s') :
    ∃ c agent who l l', entry.currencyId = .ok c ∧ s.getLedger c who = some l ∧
      AppliedBy agent entry who l l' ∧
      ∀ c' who', s'.getLedger c' who' = (s.setLedger c who (some l')).getLedger c' who' := by
  cases h with
  | confirmed _ timeout c agent who l l' occ hq hdue hc hagent hget hl =>
    exact ⟨c, agent, who, l, l', hc, hget, hl, fun _ _ => rfl⟩

theorem confirmed_answer {call : Call cfg} {entry : LedgerUpdateEntry AccountId}
    (h : step s call = .ok s') (hentry : s.confirmed call = some entry) :
    ∃ q, LedgerAnswer q s (some entry) s' := by
  have hanswers : call.answersLedger ≠ none := by
    intro hnone
    rw [confirmed_eq_none hnone] at hentry
    cases hentry
  cases step_ok h with
  | ledgerAnswered _ q _ hcall hanswer =>
    rw [hentry] at hanswer
    exact ⟨q, hanswer⟩
  | noted _ _ c es hcall hnoted hes => exact absurd hcall.answersLedger_eq hanswers
  | validatorsAnswered _ q _ hcall hanswer => exact absurd (answersLedger_eq_none hcall) hanswers
  | operated origin c operation agent e s₁ hauth hagent heffect he hleave =>
    exact absurd rfl hanswers
  | tuned origin c poolValue delegatorValue who s₁ _ es hauth htuned hnoted hes =>
    exact absurd rfl hanswers
  | ledgerSet origin c who ledger hauth => exact absurd rfl hanswers
  | removed origin c who settings horigin => exact absurd rfl hanswers
  | validatorsSet origin c who validators list horigin => exact absurd rfl hanswers
  | governed settings boostList => exact absurd rfl hanswers
  | otherQuery responder timeout => exact absurd rfl hanswers

/-! Account 1 operates KSM, account 2 DOT and account 3 BNC; time is era 1 or round 1. -/

namespace Sample

def config : Config ℕ where
  minting :=
    { currency := Tokens.multiCurrency ℕ fun _ => 0
      entranceAccount := 100
      feeAccount := 101
      redeemFeeAccount := 102
      limits := ⟨10, 50⟩
      moonbeamChainId := 2004
      getHyperbridgePayerAndFee := fun _ _ => .ok (100, 0)
      getMoonbeamTransferToFee := fun _ => 0
      sendAndCall := fun L _ _ _ _ _ _ _ => .ok L
      xcmTransfer := fun L _ _ _ _ => .ok L
      xcmTransferMulticurrencies := fun L _ _ _ _ => .ok L
      onRedeemSuccess := fun L _ _ _ => L
      onRedeemed := fun L _ _ _ _ _ => L
      recordMintAmount := fun L _ _ _ => .ok L
      recordRedeemAmount := fun L _ _ => .ok L }
  Xcm := ℕ
  newNotifyQuery := fun n _ _ => (n, n + 1)
  maxLengthLimit := 10
  sendXcm := fun L _ _ => .ok L
  getOperationWeightAndFee := fun _ _ _ => some (1, 0)
  getDelegationCount := fun _ _ _ => (0, 0)
  parachainStaking := fun L _ => .ok L
  transferAssets := fun L _ _ _ => .ok L
  xcmTransfer := fun L _ _ _ _ => .ok L
  handleHyperbridgeOracle := fun L _ => .ok L
  recordHostingFee := fun L _ _ => .ok L

def delegator : MultiLocation ℕ := ⟨0, [.accountId32 7]⟩

def collator : MultiLocation ℕ := ⟨0, [.accountId32 8]⟩

def settings : Settings ℕ where
  operateOrigins := fun c =>
    if c = ksm then some 1 else if c = dot then some 2 else if c = bnc then some 3 else none
  feeSources := fun _ => some (⟨0, [.accountId32 9]⟩, 10)
  hostingFees := fun _ => none
  delegatorsMultilocation2Index := fun _ _ => some 0
  validators := fun _ => some [collator]
  minimumsAndMaximums := fun _ => some ⟨0, 0, 0, 0, 10, 10, 1000, 10, 0⟩
  currencyDelays := fun c =>
    if c = bnc then some ⟨.round 2, .round 2⟩ else some ⟨.era 2, .era 2⟩
  currencyTuneExchangeRateLimit := fun _ => none
  ongoingTimeUnitUpdateInterval := fun _ => none

def minting : VtokenMinting.State config.minting :=
  { VtokenMinting.genesis config.minting fun _ _ => 0 with
    ongoingTimeUnit := ((∅ : Table CurrencyId TimeUnit).write ksm (some (.era 1))).write bnc
      (some (.round 1)) }

def start : State config := genesis config settings minting (0 : ℕ)

def bonded (amount queryId : ℕ) : List (Call config) :=
  [.operate (.signed 1) ksm (.bond delegator amount none none),
    .confirmDelegatorLedger .response queryId true]

end Sample

end Bifrost.Slp
