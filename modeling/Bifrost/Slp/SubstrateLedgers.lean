import Bifrost.Slp.Steps

/-!
# The totals of the substrate ledgers

The total of a ledger is "just `active` plus all the `unlocking` balances". Bonding, unlocking and
liquidizing keep it so. A rebond is checked against the chunks when it is sent; when it is
confirmed, other responses may have used them up, and the active stake grows by more than the
chunks give.
-/

namespace Bifrost.Slp

open Result Machine
set_option autoImplicit false

def unlockingSum (unlocking : List UnlockChunk) : ℕ := (unlocking.map UnlockChunk.value).sum

@[simp] theorem unlockingSum_nil : unlockingSum [] = 0 := rfl

@[simp] theorem unlockingSum_cons (chunk : UnlockChunk) (chunks : List UnlockChunk) :
    unlockingSum (chunk :: chunks) = chunk.value + unlockingSum chunks := by
  simp [unlockingSum]

@[simp] theorem unlockingSum_append (chunks chunks' : List UnlockChunk) :
    unlockingSum (chunks ++ chunks') = unlockingSum chunks + unlockingSum chunks' := by
  simp [unlockingSum]

@[simp] theorem unlockingSum_reverse (chunks : List UnlockChunk) :
    unlockingSum chunks.reverse = unlockingSum chunks := by
  simp [unlockingSum, List.map_reverse]

namespace SubstrateLedger

variable {AccountId : Type} {l l' : SubstrateLedger AccountId}
  {entry : SubstrateLedgerUpdateEntry AccountId}

def Balanced (ledger : SubstrateLedger AccountId) : Prop :=
  ledger.total = ledger.active + unlockingSum ledger.unlocking

theorem unlockingSum_popChunks (chunks : List UnlockChunk) (amount : ℕ) :
    unlockingSum (popChunks chunks amount) = unlockingSum chunks - amount := by
  induction chunks generalizing amount with
  | nil => simp [popChunks]
  | cons chunk chunks ih =>
    unfold popChunks
    split
    · rw [ih, unlockingSum_cons]
      omega
    · rw [unlockingSum_cons, unlockingSum_cons]
      dsimp only
      omega

theorem popDue_sum {era : ℕ} {chunks chunks' : List UnlockChunk} {acc acc' : ℕ}
    (h : popDue era chunks acc = .ok (acc', chunks')) :
    acc' + unlockingSum chunks' = acc + unlockingSum chunks := by
  induction chunks generalizing acc with
  | nil =>
    simp only [popDue, pure_eq_ok, Prod.mk.injEq] at h
    obtain ⟨rfl, rfl⟩ := h
    rfl
  | cons chunk chunks ih =>
    unfold popDue at h
    split at h
    · split at h
      · simp only [bind_eq_ok, okOr_eq_ok, U128.checkedAdd_eq_some] at h
        obtain ⟨_, ⟨rfl, -⟩, hpop⟩ := h
        rw [ih hpop, unlockingSum_cons]
        omega
      · simp only [pure_eq_ok, Prod.mk.injEq] at h
        obtain ⟨rfl, rfl⟩ := h
        rfl
    · simp at h

/-! What each operation moves. -/

theorem bond_ok {n : ℕ} (h : l.bond n = .ok l') :
    l'.active = l.active + n ∧ l'.total = l.total + n ∧ l'.unlocking = l.unlocking := by
  simp only [bond, bind_eq_ok, okOr_eq_ok, U128.checkedAdd_eq_some, pure_eq_ok] at h
  obtain ⟨_, ⟨rfl, -⟩, _, ⟨rfl, -⟩, rfl⟩ := h
  exact ⟨rfl, rfl, rfl⟩

theorem unlock_ok {n : ℕ} {t : Option TimeUnit} (h : l.unlock n t = .ok l') :
    l'.active + n = l.active ∧ l'.total = l.total ∧
      unlockingSum l'.unlocking = unlockingSum l.unlocking + n := by
  simp only [unlock, bind_eq_ok, okOr_eq_ok, U128.checkedSub_eq_some, pure_eq_ok] at h
  obtain ⟨_, ⟨hle, rfl⟩, t, -, rfl⟩ := h
  refine ⟨Nat.sub_add_cancel hle, rfl, ?_⟩
  simp

theorem rebond_ok {n : ℕ} (h : l.rebond n = .ok l') :
    l'.active = l.active + n ∧ l'.total = l.total ∧
      unlockingSum l'.unlocking = unlockingSum l.unlocking - n := by
  simp only [rebond, bind_eq_ok, okOr_eq_ok, U128.checkedAdd_eq_some, pure_eq_ok] at h
  obtain ⟨_, ⟨rfl, -⟩, rfl⟩ := h
  refine ⟨rfl, rfl, ?_⟩
  simp only [unlockingSum_reverse, unlockingSum_popChunks]

theorem liquidize_ok {t : Option TimeUnit} (h : l.liquidize t = .ok l') :
    l'.active = l.active ∧ ∃ d, l'.total + d = l.total ∧
      unlockingSum l'.unlocking + d = unlockingSum l.unlocking := by
  simp only [liquidize, bind_eq_ok] at h
  obtain ⟨unit, -, h⟩ := h
  split at h
  · simp only [bind_eq_ok, okOr_eq_ok, U128.checkedSub_eq_some, pure_eq_ok] at h
    obtain ⟨⟨d, chunks⟩, hpop, _, ⟨hle, rfl⟩, rfl⟩ := h
    have hsum := popDue_sum hpop
    dsimp only at hle ⊢
    refine ⟨rfl, d, by omega, by omega⟩
  · simp at h

/-- What a confirmed entry is to move. -/
def Moves (entry : SubstrateLedgerUpdateEntry AccountId) (l l' : SubstrateLedger AccountId) :
    Prop :=
  match entry.updateOperation with
  | .bond => l'.active = l.active + entry.amount ∧ l'.total = l.total + entry.amount ∧
      unlockingSum l'.unlocking = unlockingSum l.unlocking
  | .unlock => l'.active + entry.amount = l.active ∧ l'.total = l.total ∧
      unlockingSum l'.unlocking = unlockingSum l.unlocking + entry.amount
  | .rebond => l'.active = l.active + entry.amount ∧ l'.total = l.total ∧
      unlockingSum l'.unlocking + entry.amount = unlockingSum l.unlocking
  | .liquidize => l'.active = l.active ∧ ∃ d, l'.total + d = l.total ∧
      unlockingSum l'.unlocking + d = unlockingSum l.unlocking

/-- The chunks cover the amount of a rebond. -/
def Covers (l : SubstrateLedger AccountId) (entry : SubstrateLedgerUpdateEntry AccountId) : Prop :=
  entry.updateOperation = .rebond → entry.amount ≤ unlockingSum l.unlocking

theorem update_moves (h : l.update entry = .ok l') (hcovers : l.Covers entry) :
    Moves entry l l' := by
  unfold update at h
  unfold Moves
  cases hop : entry.updateOperation with
  | bond =>
    rw [hop] at h
    obtain ⟨hactive, htotal, hunlocking⟩ := bond_ok h
    exact ⟨hactive, htotal, by rw [hunlocking]⟩
  | unlock =>
    rw [hop] at h
    exact unlock_ok h
  | rebond =>
    rw [hop] at h
    obtain ⟨hactive, htotal, hunlocking⟩ := rebond_ok h
    have hle := hcovers hop
    exact ⟨hactive, htotal, by omega⟩
  | liquidize =>
    rw [hop] at h
    exact liquidize_ok h

theorem Moves.balanced (h : Moves entry l l') (hl : l.Balanced) : l'.Balanced := by
  unfold Moves at h
  unfold Balanced at hl ⊢
  split at h
  · omega
  · omega
  · omega
  · obtain ⟨hactive, d, htotal, hunlocking⟩ := h
    omega

theorem update_balanced_iff (h : l.update entry = .ok l') (hl : l.Balanced) :
    l'.Balanced ↔ l.Covers entry := by
  constructor
  · intro hbalanced hop
    unfold update at h
    rw [hop] at h
    obtain ⟨hactive, htotal, hunlocking⟩ := rebond_ok h
    unfold Balanced at hl hbalanced
    omega
  · intro hcovers
    exact (update_moves h hcovers).balanced hl

theorem update_of_updateLedger (h : AstarAgent.updateLedger l entry = .ok l') :
    l.update entry = .ok l' ∧ entry.updateOperation ≠ .rebond := by
  unfold AstarAgent.updateLedger at h
  unfold update
  cases hop : entry.updateOperation with
  | rebond => simp [hop] at h
  | bond => simpa [hop] using h
  | unlock => simpa [hop] using h
  | liquidize => simpa [hop] using h

end SubstrateLedger

variable {AccountId : Type} [DecidableEq AccountId] {cfg : Config AccountId} {s s' : State cfg}

def State.Balanced (s : State cfg) : Prop :=
  ∀ c who l, s.getLedger c who = some (.substrate l) → l.Balanced

theorem State.Balanced.setLedger (h : s.Balanced) (c : CurrencyId) (who : MultiLocation AccountId)
    {o : Option (Ledger AccountId)} (ho : ∀ l, o = some (.substrate l) → l.Balanced) :
    (s.setLedger c who o).Balanced := by
  intro c' who' l hget
  rw [getLedger_setLedger] at hget
  split at hget
  · exact ho l hget
  · exact h c' who' l hget

theorem State.Balanced.opens {agent : Agent} {c : CurrencyId} (h : s.Balanced)
    (hopens : Opens agent c s s') : s'.Balanced := by
  cases hopens with
  | nothing => exact h
  | ledger who l hopened =>
    refine h.setLedger c who fun l' hl' => ?_
    generalize s.getLedger c who = o at hopened
    cases hopened with
    | substrate agent hagent =>
      cases hl'
      rfl
    | oneToMany o ho => cases hl'
    | phala => cases hl'

theorem State.Balanced.effect {agent : Agent} {c : CurrencyId} {e : Event AccountId}
    (h : s.Balanced) (heffect : Effect agent c e s s') : s'.Balanced := by
  cases heffect with
  | quiet x L es hx hes he => exact h
  | queued s₀ s' entry q hopens hqueued hentry =>
    obtain ⟨r, x, L, es, -, -, rfl⟩ := hqueued
    have hs₀ := h.opens hopens
    exact hs₀
  | nominated r x L es q who validators hagent hq hes => exact h
  | native s₀ entry l l' L occ hagent hc hopens hget hupdate hfits he =>
    exact (h.opens hopens).setLedger c _ fun l hl => nomatch hl
  | phala s₀ who l es hagent hopens hes =>
    exact (h.opens hopens).setLedger c _ fun l hl => nomatch hl

theorem State.Balanced.noted {es : List (Event AccountId)} (h : s.Balanced)
    (hnoted : Noted es s s') : s'.Balanced := by
  intro c who l hget
  rw [State.getLedger, hnoted.ledgers] at hget
  exact h c who l hget

/-- What a call applies to a substrate ledger is covered by the chunks of that ledger. -/
def RebondCovered (s : State cfg) (call : Call cfg) : Prop :=
  ∀ entry l, s.confirmed call = some (.substrate entry) →
    s.getLedger entry.currencyId entry.delegatorId = some (.substrate l) → l.Covers entry

/-- A call that confirms an entry moves with it what the entry is to move, and nothing else. -/
def MovesExactly (s : State cfg) (call : Call cfg) : Prop :=
  ∀ s' entry l, step s call = .ok s' → s.confirmed call = some (.substrate entry) →
    s.getLedger entry.currencyId entry.delegatorId = some (.substrate l) →
    ∃ l', s'.getLedger entry.currencyId entry.delegatorId = some (.substrate l') ∧ l.Moves entry l'

theorem AppliedBy.substrate_inv {agent : Agent} {entry : LedgerUpdateEntry AccountId}
    {who : MultiLocation AccountId} {l : SubstrateLedger AccountId} {l' : Ledger AccountId}
    (h : AppliedBy agent entry who (.substrate l) l') :
    ∃ e l₁, entry = .substrate e ∧ e.delegatorId = who ∧ l' = .substrate l₁ ∧ l.update e = .ok l₁ := by
  cases h with
  | polkadot e l l₁ h => exact ⟨e, l₁, rfl, rfl, rfl, h⟩
  | astar e l l₁ h =>
    exact ⟨e, l₁, rfl, rfl, rfl, (SubstrateLedger.update_of_updateLedger h).1⟩

theorem balanced_setLedger_iff {c : CurrencyId} {who : MultiLocation AccountId}
    {l' : SubstrateLedger AccountId} (hs : s.Balanced) :
    (s.setLedger c who (some (.substrate l'))).Balanced ↔ l'.Balanced := by
  constructor
  · intro h
    exact h c who l' (getLedger_setLedger_self s c who _)
  · intro h
    refine hs.setLedger c who fun l hl => ?_
    cases hl
    exact h

theorem balanced_congr (h : ∀ c who, s'.getLedger c who = s.getLedger c who) :
    s'.Balanced ↔ s.Balanced := by
  simp only [State.Balanced, h]

theorem balanced_tuned {c : CurrencyId} (hs : s.Balanced) (h : Tuned c s s') : s'.Balanced := by
  cases h with
  | nothing => exact hs
  | bonded who n l l' hget hl =>
    rw [balanced_setLedger_iff hs]
    obtain ⟨hactive, htotal, hunlocking⟩ := SubstrateLedger.bond_ok hl
    have hbalanced := hs c who l hget
    unfold SubstrateLedger.Balanced at hbalanced ⊢
    rw [hunlocking]
    omega

theorem balanced_answer_iff {q : ℕ} {entry : LedgerUpdateEntry AccountId} (hs : s.Balanced)
    (h : LedgerAnswer q s (some entry) s') :
    s'.Balanced ↔ ∀ e l, entry = .substrate e →
      s.getLedger e.currencyId e.delegatorId = some (.substrate l) → l.Covers e := by
  obtain ⟨c, agent, who, l, l', hc, hget, hl, hframe⟩ := h.applied
  rw [balanced_congr hframe]
  cases l with
  | substrate l =>
    obtain ⟨e, l₁, rfl, rfl, rfl, hupdate⟩ := hl.substrate_inv
    cases hc
    rw [balanced_setLedger_iff hs, SubstrateLedger.update_balanced_iff hupdate (hs _ _ l hget)]
    constructor
    · intro hcovers e' l' he hget'
      cases he
      rw [hget] at hget'
      cases hget'
      exact hcovers
    · intro hall
      exact hall e l rfl hget
  | phala l =>
    cases hl with
    | phala e l l' h =>
      cases hc
      refine iff_of_true (hs.setLedger _ _ fun l hl => nomatch hl) fun e' l' he hget' => ?_
      cases he
      rw [hget] at hget'
      cases hget'
  | parachainStaking l =>
    cases hl with
    | parachainStaking e l l' hbnc h =>
      refine iff_of_true (hs.setLedger _ _ fun l hl => nomatch hl) fun e' l' he _ => ?_
      cases he
  | moonbeam l => cases hl

/-- A call keeps the ledgers balanced exactly if the rebond it applies is covered. -/
theorem balanced_step_iff {call : Call cfg} (hscope : call.KeepsAccount) (hs : s.Balanced)
    (h : step s call = .ok s') : s'.Balanced ↔ RebondCovered s call := by
  have hquiet (hnone : s.confirmed call = none) (hs' : s'.Balanced) :
      s'.Balanced ↔ RebondCovered s call := by
    refine iff_of_true hs' fun entry l hentry => ?_
    rw [hnone] at hentry
    cases hentry
  cases step_ok h with
  | operated origin c operation agent e s₁ hauth hagent heffect he hleave =>
    have hs₁ := hs.effect heffect
    exact hquiet rfl hs₁
  | noted _ _ c es hcall hnoted hes =>
    exact hquiet (confirmed_eq_none hcall.answersLedger_eq) (hs.noted hnoted)
  | tuned origin c poolValue delegatorValue who s₁ _ es hauth htuned hnoted hes =>
    exact hquiet rfl ((balanced_tuned hs htuned).noted hnoted)
  | ledgerSet origin c who ledger hauth => exact hscope.elim
  | ledgerAnswered _ q _ hcall hanswer =>
    cases hentry : s.confirmed call with
    | none =>
      rw [hentry] at hanswer
      cases hanswer with
      | failed entry timeout c hq hc => exact hquiet hentry hs
    | some entry =>
      rw [hentry] at hanswer
      rw [balanced_answer_iff hs hanswer, RebondCovered, hentry]
      simp only [Option.some.injEq]
  | validatorsAnswered _ q _ hcall hanswer =>
    refine hquiet (confirmed_eq_none (answersLedger_eq_none hcall)) ?_
    cases hanswer with
    | confirmed entry timeout hq hdue => exact hs
    | failed entry timeout hq => exact hs
  | removed origin c who settings horigin =>
    have hs₁ : ({ s with settings := settings } : State cfg).Balanced := hs
    exact hquiet rfl (hs₁.setLedger c who fun l hl => nomatch hl)
  | validatorsSet origin c who validators list horigin => exact hquiet rfl hs
  | governed settings boostList => exact hquiet rfl hs
  | otherQuery responder timeout => exact hquiet rfl hs

theorem movesExactly_of_covered {call : Call cfg} (h : step s call = .ok s')
    (hcovered : RebondCovered s call) : MovesExactly s call := by
  intro s₁ entry l hs₁ hentry hget
  rw [h] at hs₁
  cases hs₁
  obtain ⟨q, hanswer⟩ := confirmed_answer h hentry
  obtain ⟨c, agent, who, l₀, l', hc, hget', hl, hframe⟩ := hanswer.applied
  cases hc
  have hwho : who = entry.delegatorId := by cases hl <;> rfl
  subst who
  rw [hget] at hget'
  cases hget'
  obtain ⟨e, l₁, he, -, rfl, hupdate⟩ := hl.substrate_inv
  cases he
  refine ⟨l₁, ?_, SubstrateLedger.update_moves hupdate (hcovered entry l hentry hget)⟩
  rw [hframe, getLedger_setLedger_self]

theorem balanced_genesis (settings : Settings AccountId) (minting : VtokenMinting.State cfg.minting)
    (xcm : cfg.Xcm) : (genesis cfg settings minting xcm).Balanced := by
  intro c who l hget
  simp [State.getLedger, genesis] at hget

/-- From empty storage, every ledger stays balanced and every confirmed entry moves what it says,
in exactly those runs in which a rebond is covered when it is confirmed. -/
theorem substrate_ledgers_balanced_iff (settings : Settings AccountId)
    (minting : VtokenMinting.State cfg.minting) (xcm : cfg.Xcm) (calls : List (Call cfg))
    (hcalls : ∀ call ∈ calls, call.KeepsAccount) :
    Always step State.Balanced (genesis cfg settings minting xcm) calls ∧
        Meets step MovesExactly (genesis cfg settings minting xcm) calls ↔
      Meets step RebondCovered (genesis cfg settings minting xcm) calls := by
  have hgenesis := balanced_genesis settings minting xcm
  have hstep (s : State cfg) (call : Call cfg) (s' : State cfg) (hcall : call.KeepsAccount)
      (_ : True) (hs : s.Balanced) (h : step s call = .ok s') :
      (s'.Balanced ↔ RebondCovered s call) ∧ (s'.Balanced → True) :=
    ⟨balanced_step_iff hcall hs h, fun _ => trivial⟩
  have hiff := always_iff_meets (I := fun _ => True) hstep hcalls trivial hgenesis
  rw [hiff]
  refine ⟨And.left, fun hmeets => ⟨hmeets, ?_⟩⟩
  exact hmeets.imp_always (fun s call s' _ h hok => movesExactly_of_covered h hok) (hiff.mpr hmeets)

namespace Sample

def unbonded : List (Call config) :=
  bonded 100 0 ++ [.operate (.signed 1) ksm (.unbond delegator none 60 none),
    .confirmDelegatorLedger .response 1 true]

def rebond (amount : ℕ) : Call config :=
  .operate (.signed 1) ksm (.rebond delegator none (some amount) none)

/-- Both rebonds are sent while the chunk of 60 is there. -/
def rebondTwice : List (Call config) :=
  unbonded ++ [rebond 60, rebond 60, .confirmDelegatorLedger .response 2 true,
    .confirmDelegatorLedger .response 3 true]

def oneRebond : List (Call config) :=
  unbonded ++ [rebond 60, .confirmDelegatorLedger .response 2 true]

end Sample

/-- One rebond of 60 is covered by the chunk of 60. -/
theorem substrate_ledgers_balanced_sample :
    Always step State.Balanced Sample.start Sample.oneRebond ∧
      Meets step MovesExactly Sample.start Sample.oneRebond := by
  refine (@substrate_ledgers_balanced_iff _ _ Sample.config Sample.settings Sample.minting (0 : ℕ)
    Sample.oneRebond ?_).mpr ?_
  · simp [Sample.oneRebond, Sample.unbonded, Sample.bonded, Sample.rebond, Call.KeepsAccount]
  · have hbond {n : ℕ} {u : Option TimeUnit} {entry : SubstrateLedgerUpdateEntry ℕ}
        {l : SubstrateLedger ℕ} (op : SubstrateLedgerUpdateOperation) (hop : op ≠ .rebond)
        (h : some (LedgerUpdateEntry.substrate ⟨ksm, Sample.delegator, op, n, u⟩) =
          some (.substrate entry)) : l.Covers entry := by
      cases h
      exact fun h => absurd h hop
    have hnone {entry : LedgerUpdateEntry ℕ} {p : Prop} (h : none = some entry) : p := by cases h
    refine ⟨fun _ _ _ _ h => hnone h, fun _ _ _ _ h _ => hbond .bond (by decide) h,
      fun _ _ _ _ h => hnone h, fun _ _ _ _ h _ => hbond .unlock (by decide) h,
      fun _ _ _ _ h => hnone h, fun _ _ entry l h hget => ?_, trivial⟩
    have hentry : some (LedgerUpdateEntry.substrate
      ⟨ksm, Sample.delegator, .rebond, 60, none⟩) = some (.substrate entry) := h
    cases hentry
    have hledger : some (Ledger.substrate ⟨Sample.delegator, 100, 40, [⟨60, .era 3⟩]⟩) =
      some (.substrate l) := hget
    cases hledger
    exact fun _ => by decide

/-- The second rebond adds 60 that no chunk gives up. -/
theorem rebond_unbalances :
    let s := run step Sample.start Sample.rebondTwice
    s.getLedger ksm Sample.delegator = some (.substrate ⟨Sample.delegator, 100, 160, []⟩) ∧
      ¬ s.Balanced := by
  have hledger : (run step Sample.start Sample.rebondTwice).getLedger ksm Sample.delegator =
      some (.substrate ⟨Sample.delegator, 100, 160, []⟩) := by rfl
  refine ⟨hledger, fun hbalanced => ?_⟩
  have htotal := hbalanced ksm Sample.delegator _ hledger
  simp [SubstrateLedger.Balanced] at htotal

end Bifrost.Slp
