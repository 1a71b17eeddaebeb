import Bifrost.FeeShare.Payouts

/-!
# The dollar standard

While a distribution collects, the cumulative value is to be what the target account got since it
was last cleared, and a distribution in a block is to be done in full or not at all. Both hold as
long as no transfer fails in a block: the cumulative value is stored before the transfers, and
nothing takes it, or the transfers before a failed one, back. A token listed twice is counted
twice and moves once.
-/

namespace Bifrost.FeeShare

open Result Machine
set_option autoImplicit false

variable {AccountId : Type} {cfg : Config AccountId} {s s' : State cfg} {e : ℕ × Info AccountId}

/-! Transfers that all go through. -/

section Ledger

variable {P : Payments AccountId} {L L' : P.Ledger} {source target : AccountId}

/-- The whole balances of the currencies can move, one after the other. -/
def Moves (P : Payments AccountId) (source target : AccountId) : P.Ledger → List CurrencyId → Prop
  | _, [] => True
  | L, c :: cs => ∃ L', P.transfer L c source target (P.freeBalance L c source) = .ok L' ∧
      Moves P source target L' cs

def SharesGo (P : Payments AccountId) (currency : CurrencyId) (source : AccountId) (amount : ℕ) :
    P.Ledger → List (AccountId × Perbill) → Prop
  | _, [] => True
  | L, r :: rs => ∃ L', sendShare P currency source amount L r = .ok L' ∧
      SharesGo P currency source amount L' rs

def TokensGo (P : Payments AccountId) (source : AccountId)
    (receivers : List (AccountId × Perbill)) : P.Ledger → List CurrencyId → Prop
  | _, [] => True
  | L, c :: cs => SharesGo P c source (P.freeBalance L c source) L receivers ∧
      TokensGo P source receivers (shareToken P source receivers L c).1 cs

theorem transferToken_done {c : CurrencyId} :
    transferToken P source target L c = (L', none) ↔
      P.transfer L c source target (P.freeBalance L c source) = .ok L' := by
  rw [transferToken, Attempt.atomic_eq_done, mapErr_eq_ok]

theorem transferAll_done_of_moves {currencies : List CurrencyId}
    (h : Moves P source target L currencies) :
    (Attempt.tryForEach (transferToken P source target) L currencies).2 = none := by
  induction currencies generalizing L with
  | nil => rfl
  | cons c cs ih =>
    obtain ⟨L₁, h₁, hrest⟩ := h
    rw [Attempt.tryForEach, transferToken_done.mpr h₁]
    exact ih hrest

theorem sendShares_done_of_go {currency : CurrencyId} {amount : ℕ}
    {receivers : List (AccountId × Perbill)}
    (h : SharesGo P currency source amount L receivers) :
    (sendShares P currency source amount L receivers).2 = none := by
  induction receivers generalizing L with
  | nil => rfl
  | cons r rs ih =>
    obtain ⟨L₁, h₁, hrest⟩ := h
    rw [sendShares, Attempt.tryForEach, h₁]
    exact ih hrest

theorem shareTokens_done_of_go {receivers : List (AccountId × Perbill)}
    {currencies : List CurrencyId} (h : TokensGo P source receivers L currencies) :
    (Attempt.tryForEach (shareToken P source receivers) L currencies).2 = none := by
  induction currencies generalizing L with
  | nil => rfl
  | cons c cs ih =>
    have hfirst : (shareToken P source receivers L c).2 = none := sendShares_done_of_go h.1
    have hrest := ih h.2
    rw [Attempt.tryForEach]
    generalize shareToken P source receivers L c = r at hfirst hrest
    obtain ⟨L₁, e⟩ := r
    simp only at hfirst
    subst e
    exact hrest

theorem transferAll_moved {currencies : List CurrencyId} (hnodup : currencies.Nodup)
    (hne : source ≠ target)
    (h : Attempt.tryForEach (transferToken P source target) L currencies = (L', none))
    (c : CurrencyId) : P.freeBalance L' c target =
      P.freeBalance L c target + if c ∈ currencies then P.freeBalance L c source else 0 := by
  induction currencies generalizing L with
  | nil =>
    simp only [Attempt.tryForEach_nil, Prod.mk.injEq, and_true] at h
    subst L'
    simp
  | cons d ds ih =>
    obtain ⟨hd, hds⟩ := List.nodup_cons.mp hnodup
    obtain ⟨L₁, h₁, hrest⟩ := Attempt.tryForEach_cons_eq_done.mp h
    rw [transferToken_done] at h₁
    rw [ih hds hrest]
    by_cases hc : c = d
    · subst c
      rw [if_neg hd, if_pos List.mem_cons_self, (Payments.transfer_whole h₁ hne).2, Nat.add_zero]
    · have hsame (x : AccountId) : P.freeBalance L₁ c x = P.freeBalance L c x :=
        P.transfer_frame h₁ (Or.inr hc)
      have hmem : c ∈ d :: ds ↔ c ∈ ds := by
        rw [List.mem_cons]
        exact or_iff_right hc
      simp only [hsame, hmem]

end Ledger

/-! One distribution. -/

/-- What an amount is worth at the price of the time, as far as it can be told. -/
def State.dollars (s : State cfg) (currency : CurrencyId) (amount : ℕ) : ℕ :=
  match s.getAssetValue currency amount with
  | .ok value => value.inner
  | .error _ => 0

def State.valueMoved (s s' : State cfg) (info : Info AccountId) (target : AccountId) : ℕ :=
  (info.tokenType.dedup.map fun c => s.dollars c
    (cfg.payments.freeBalance s'.ledger c target - cfg.payments.freeBalance s.ledger c target)).sum

/-- A distribution is done in full, or leaves the balances and its dollar standard. -/
def AllOrNothing (s : State cfg) (e : ℕ × Info AccountId) : Prop :=
  let r := s.executeDistributeInner e.1 e.2
  r.2 = none ∨ ((∀ c x, cfg.payments.freeBalance r.1.ledger c x =
    cfg.payments.freeBalance s.ledger c x) ∧
      r.1.dollarStandardInfos.get e.1 = s.dollarStandardInfos.get e.1)

/-- Each token is listed once, and the target is another account. -/
def Separate (info : Info AccountId) (usd : DollarStandardInfo AccountId) : Prop :=
  info.tokenType.Nodup ∧ info.feeShareAccountId ≠ usd.targetAccountId

/-- Where the prices are there and the cumulative value has room, no transfer fails. -/
def Undisturbed (s : State cfg) (e : ℕ × Info AccountId) : Prop :=
  ∀ value, s.usdValue e.2 = .ok value →
    match s.collecting e.1 with
    | some usd => Separate e.2 usd ∧ (usd.cumulative + value.inner ≤ u128Max →
        Moves cfg.payments e.2.feeShareAccountId usd.targetAccountId s.ledger e.2.tokenType)
    | none => TokensGo cfg.payments e.2.feeShareAccountId
        (cfg.receivers (s.tokensProportions e.1)) s.ledger e.2.tokenType

theorem collecting_eq_some {id : ℕ} {usd : DollarStandardInfo AccountId} :
    s.collecting id = some usd ↔
      s.dollarStandardInfos.get id = some usd ∧ usd.cumulative < usd.targetValue := by
  simp [State.collecting, Option.filter_eq_some_iff]

theorem dollars_zero (s : State cfg) (c : CurrencyId) : s.dollars c 0 = 0 := by
  unfold State.dollars
  split
  · rename_i value h
    simp only [State.getAssetValue, bind_eq_ok, okOr_eq_ok] at h
    obtain ⟨price, -, hvalue⟩ := h
    simp only [FixedU128.checkedMul, Option.map_eq_some_iff, U128.mulDiv_eq_some] at hvalue
    obtain ⟨n, ⟨-, hn, -⟩, rfl⟩ := hvalue
    simpa using hn.symm
  · rfl

theorem valueMoved_of_same {info : Info AccountId} {target : AccountId}
    (h : ∀ c, cfg.payments.freeBalance s'.ledger c target =
      cfg.payments.freeBalance s.ledger c target) : s.valueMoved s' info target = 0 := by
  unfold State.valueMoved
  apply List.sum_eq_zero
  intro n hn
  obtain ⟨c, -, rfl⟩ := List.mem_map.mp hn
  rw [h c, Nat.sub_self, dollars_zero]

theorem usdValue_eq {infos : Info AccountId} {value : FixedU128}
    (h : s.usdValue infos = .ok value) :
    value.inner = (infos.tokenType.map fun c =>
      s.dollars c (cfg.payments.freeBalance s.ledger c infos.feeShareAccountId)).sum := by
  have hsum (currencies : List CurrencyId) (total : FixedU128)
      (h : currencies.foldlM (fun total currency => do
        let amount := cfg.payments.freeBalance s.ledger currency infos.feeShareAccountId
        let value ← s.getAssetValue currency amount
        okOr (total.checkedAdd value) Fault.overflow) total = .ok value) :
      value.inner = total.inner + (currencies.map fun c =>
        s.dollars c (cfg.payments.freeBalance s.ledger c infos.feeShareAccountId)).sum := by
    induction currencies generalizing total with
    | nil =>
      rw [List.foldlM_nil, pure_eq_ok] at h
      simp [h]
    | cons c cs ih =>
      simp only [List.foldlM_cons, bind_eq_ok, okOr_eq_ok] at h
      obtain ⟨total', ⟨v, hv, htotal⟩, hrest⟩ := h
      simp only [FixedU128.checkedAdd, Option.map_eq_some_iff, U128.checkedAdd_eq_some] at htotal
      obtain ⟨n, ⟨hn, -⟩, rfl⟩ := htotal
      have hdollars : s.dollars c
          (cfg.payments.freeBalance s.ledger c infos.feeShareAccountId) = v.inner := by
        rw [State.dollars, hv]
      rw [ih _ hrest, List.map_cons, List.sum_cons, hdollars, ← Nat.add_assoc, hn]
  have hall := hsum infos.tokenType FixedU128.zero h
  rw [hall]
  exact Nat.zero_add _

theorem valueMoved_of_transferAll {infos : Info AccountId} {usd : DollarStandardInfo AccountId}
    {value : FixedU128} (hseparate : Separate infos usd) (hvalue : s.usdValue infos = .ok value)
    (h : transferAll cfg.payments infos usd.targetAccountId s.ledger = (s'.ledger, none)) :
    s.valueMoved s' infos usd.targetAccountId = value.inner := by
  rw [usdValue_eq hvalue, State.valueMoved, hseparate.1.dedup]
  congr 1
  apply List.map_congr_left
  intro c hc
  have hgain := transferAll_moved hseparate.1 hseparate.2 h c
  rw [if_pos hc] at hgain
  congr 1
  exact Nat.sub_eq_of_eq_add' hgain

theorem allOrNothing_of_undisturbed (h : Undisturbed s e) : AllOrNothing s e := by
  unfold AllOrNothing State.executeDistributeInner
  cases hvalue : s.usdValue e.2 with
  | error e' => exact Or.inr ⟨fun _ _ => rfl, rfl⟩
  | ok value =>
    have hvalues := h value hvalue
    cases hcollecting : s.collecting e.1 with
    | none =>
      rw [hcollecting] at hvalues
      exact Or.inl (shareTokens_done_of_go hvalues)
    | some usd =>
      rw [hcollecting] at hvalues
      cases hadd : U128.checkedAdd usd.cumulative value.inner with
      | none =>
        simp only [State.accumulate, hadd, implies_true, and_self, or_true]
      | some cumulative =>
        rw [U128.checkedAdd_eq_some] at hadd
        have hmoves := hvalues.2 (by omega)
        simp only [State.accumulate, U128.checkedAdd_eq_some.mpr hadd]
        exact Or.inl (transferAll_done_of_moves hmoves)

theorem collected {usd : DollarStandardInfo AccountId}
    (hcollecting : s.collecting e.1 = some usd) (hdone : AllOrNothing s e)
    (hseparate : (s.executeDistributeInner e.1 e.2).2 = none → Separate e.2 usd) : ∃ usd',
      (s.executeDistributeInner e.1 e.2).1.dollarStandardInfos.get e.1 = some usd' ∧
      usd'.cumulative = usd.cumulative +
        s.valueMoved (s.executeDistributeInner e.1 e.2).1 e.2 usd.targetAccountId := by
  have hget := (collecting_eq_some.mp hcollecting).1
  rcases hdone with hdone | ⟨hledger, hstandard⟩
  · replace hseparate := hseparate hdone
    unfold State.executeDistributeInner at hdone ⊢
    cases hvalue : s.usdValue e.2 with
    | error e' => simp [hvalue] at hdone
    | ok value =>
      simp only [hvalue, hcollecting, State.accumulate] at hdone ⊢
      cases hadd : U128.checkedAdd usd.cumulative value.inner with
      | none => simp [hadd] at hdone
      | some cumulative =>
        simp only [hadd] at hdone ⊢
        rw [U128.checkedAdd_eq_some] at hadd
        refine ⟨{ usd with cumulative }, Table.get_write_self _ _ _, ?_⟩
        rw [valueMoved_of_transferAll hseparate hvalue (Prod.ext rfl hdone)]
        exact hadd.1.symm
  · refine ⟨usd, hstandard.trans hget, ?_⟩
    rw [valueMoved_of_same fun c => hledger c _, Nat.add_zero]

theorem executeDistributeInner_standards (s : State cfg) (id : ℕ) (infos : Info AccountId) (j : ℕ)
    (h : j ≠ id ∨ s.collecting id = none) :
    (s.executeDistributeInner id infos).1.dollarStandardInfos.get j =
      s.dollarStandardInfos.get j := by
  unfold State.executeDistributeInner
  split
  · rfl
  · split
    · rename_i usd hcollecting
      have hne : j ≠ id := h.resolve_right (by simp [hcollecting])
      unfold State.accumulate
      split
      · rfl
      · exact Table.get_write_ne _ _ hne
    · rfl

/-! Blocks. -/

def State.due (s : State cfg) : List (ℕ × Info AccountId) :=
  if s.now = s.autoEra.2 then cfg.distributions s.distributionInfos else []

/-- The work of a block as a run: no distribution stops the next. -/
def hook (s : State cfg) (e : ℕ × Info AccountId) : Except Fault (State cfg) :=
  .ok (s.distributeAuto e)

/-- The pallet, and what the target accounts got since their dollar standard was last cleared. -/
structure Observed (cfg : Config AccountId) where
  state : State cfg
  moved : ℕ → ℕ

namespace Observed

variable (o : Observed cfg)

def clear : Observed cfg where
  state := o.state.clearCumulative
  moved := fun id =>
    match o.state.dollarStandardInfos.get id with
    | some usd => if o.state.now = usd.targetBlock then 0 else o.moved id
    | none => o.moved id

def send (e : ℕ × Info AccountId) (s' : State cfg) : Observed cfg where
  state := s'
  moved :=
    match o.state.collecting e.1 with
    | some usd => Function.update o.moved e.1
        (o.moved e.1 + o.state.valueMoved s' e.2 usd.targetAccountId)
    | none => o.moved

def distributeAuto (e : ℕ × Info AccountId) : Observed cfg :=
  if e.2.ifAuto then o.send e (o.state.executeDistributeInner e.1 e.2).1 else o

def onInitialize : Observed cfg where
  state := o.state.onInitialize
  moved := (o.clear.state.due.foldl distributeAuto o.clear).moved

def after (s' : State cfg) : Call cfg → Observed cfg
  | .executeDistribute id | .deleteDistribution id =>
    match o.state.distributionInfos.get id with
    | some info => o.send (id, info) s'
    | none => ⟨s', o.moved⟩
  | .setUsdConfig id _ _ _ => ⟨s', Function.update o.moved id 0⟩
  | _ => ⟨s', o.moved⟩

def step [DecidableEq AccountId] (o : Observed cfg) (call : Origin × Call cfg) :
    Except Fault (Observed cfg) :=
  match call.2 with
  | .onInitialize => .ok o.onInitialize
  | _ => (FeeShare.step o.state call).map fun s' => o.after s' call.2

theorem send_state (e : ℕ × Info AccountId) (s' : State cfg) : (o.send e s').state = s' := rfl

theorem after_state (s' : State cfg) (call : Call cfg) : (o.after s' call).state = s' := by
  cases call with
  | executeDistribute id | deleteDistribution id =>
    simp only [after]
    split
    · rfl
    · rfl
  | createDistribution | editDistribution | setEraLength | setUsdConfig | onInitialize | outside =>
    rfl

theorem step_state [DecidableEq AccountId] (call : Origin × Call cfg) :
    (step o call).map state = FeeShare.step o.state call := by
  have hmap (c : Call cfg) (x : Except Fault (State cfg)) :
      (x.map fun s' => o.after s' c).map state = x := by
    cases x with
    | error e => rfl
    | ok s' => exact congrArg Except.ok (o.after_state s' c)
  obtain ⟨origin, call⟩ := call
  cases call with
  | onInitialize => rfl
  | createDistribution | editDistribution | setEraLength | executeDistribute
  | deleteDistribution | setUsdConfig | outside =>
    simp only [step]
    exact hmap _ _

theorem step_ok [DecidableEq AccountId] {o o' : Observed cfg} {call : Origin × Call cfg}
    (h : step o call = .ok o') : (call.2 = .onInitialize ∧ o' = o.onInitialize) ∨
      ∃ s', FeeShare.step o.state call = .ok s' ∧ o' = o.after s' call.2 := by
  have hmap (c : Call cfg) (x : Except Fault (State cfg))
      (hx : (x.map fun s' => o.after s' c) = .ok o') : ∃ s', x = .ok s' ∧ o' = o.after s' c := by
    cases x with
    | error e => simp [Except.map] at hx
    | ok s' => exact ⟨s', rfl, (Except.ok.inj hx).symm⟩
  obtain ⟨origin, call⟩ := call
  cases call with
  | onInitialize => exact Or.inl ⟨rfl, (Except.ok.inj h).symm⟩
  | createDistribution | editDistribution | setEraLength | executeDistribute
  | deleteDistribution | setUsdConfig | outside =>
    simp only [step] at h
    exact Or.inr (hmap _ _ h)

end Observed

def Balanced (o : Observed cfg) : Prop :=
  ∀ id usd, o.state.dollarStandardInfos.get id = some usd → usd.cumulative = o.moved id

theorem Balanced.clear {o : Observed cfg} (h : Balanced o) : Balanced o.clear := by
  intro id usd hget
  have hupdate : o.state.clearCumulative.dollarStandardInfos.get id =
      (o.state.dollarStandardInfos.get id).map o.state.cleared := by
    simp only [State.clearCumulative, Table.get_update]
    cases o.state.dollarStandardInfos.get id with
    | none => rfl
    | some usd => rfl
  have hget' : (o.state.dollarStandardInfos.get id).map o.state.cleared = some usd :=
    hupdate ▸ hget
  obtain ⟨old, hold, rfl⟩ := Option.map_eq_some_iff.mp hget'
  simp only [Observed.clear, hold, State.cleared]
  split
  · rfl
  · exact h id old hold

theorem Balanced.send {o : Observed cfg} (h : Balanced o)
    (hledger : s'.ledger = (o.state.executeDistributeInner e.1 e.2).1.ledger)
    (hstandards : s'.dollarStandardInfos =
      (o.state.executeDistributeInner e.1 e.2).1.dollarStandardInfos)
    (hdone : AllOrNothing o.state e)
    (hseparate : (o.state.executeDistributeInner e.1 e.2).2 = none →
      ∀ usd, o.state.collecting e.1 = some usd → Separate e.2 usd) : Balanced (o.send e s') := by
  intro id usd hget
  rw [Observed.send_state, hstandards] at hget
  cases hcollecting : o.state.collecting e.1 with
  | none =>
    rw [executeDistributeInner_standards _ _ _ _ (Or.inr hcollecting)] at hget
    simp only [Observed.send, hcollecting]
    exact h id usd hget
  | some old =>
    simp only [Observed.send, hcollecting]
    by_cases hid : id = e.1
    · subst id
      obtain ⟨usd', hget', hcumulative⟩ :=
        collected hcollecting hdone fun hnone => hseparate hnone old hcollecting
      rw [hget] at hget'
      rw [Option.some.inj hget', hcumulative, Function.update_self,
        h e.1 old (collecting_eq_some.mp hcollecting).1]
      simp only [State.valueMoved, hledger]
    · rw [executeDistributeInner_standards _ _ _ _ (Or.inl hid)] at hget
      rw [Function.update_of_ne hid]
      exact h id usd hget

theorem separate_of_undisturbed (h : Undisturbed s e)
    (hdone : (s.executeDistributeInner e.1 e.2).2 = none) (usd : DollarStandardInfo AccountId)
    (hcollecting : s.collecting e.1 = some usd) : Separate e.2 usd := by
  cases hvalue : s.usdValue e.2 with
  | error e' => simp [State.executeDistributeInner, hvalue] at hdone
  | ok value =>
    have hvalues := h value hvalue
    rw [hcollecting] at hvalues
    exact hvalues.1

theorem Balanced.distributeAuto {o : Observed cfg} (h : Balanced o)
    (hclear : e.2.ifAuto = true → Undisturbed o.state e) : Balanced (o.distributeAuto e) := by
  unfold Observed.distributeAuto
  split
  · rename_i hauto
    have hundisturbed := hclear hauto
    exact h.send rfl rfl (allOrNothing_of_undisturbed hundisturbed)
      (separate_of_undisturbed hundisturbed)
  · exact h

theorem Observed.distributeAuto_state (o : Observed cfg) (e : ℕ × Info AccountId) :
    (o.distributeAuto e).state = o.state.distributeAuto e := by
  unfold Observed.distributeAuto State.distributeAuto
  split
  · rfl
  · rfl

theorem Observed.foldl_state (l : List (ℕ × Info AccountId)) (o : Observed cfg) :
    (l.foldl Observed.distributeAuto o).state = l.foldl State.distributeAuto o.state := by
  induction l generalizing o with
  | nil => rfl
  | cons e l ih => rw [List.foldl_cons, List.foldl_cons, ih, distributeAuto_state]

theorem Balanced.foldl {l : List (ℕ × Info AccountId)} {o : Observed cfg} (h : Balanced o)
    (hclear : Meets hook (fun s e => e.2.ifAuto = true → Undisturbed s e) o.state l) :
    Balanced (l.foldl Observed.distributeAuto o) := by
  induction l generalizing o with
  | nil => exact h
  | cons e l ih =>
    obtain ⟨he, hl⟩ := hclear
    have hstate : exec hook o.state e = (o.distributeAuto e).state :=
      (o.distributeAuto_state e).symm
    rw [hstate] at hl
    exact ih (h.distributeAuto (he _ rfl)) hl

theorem onInitialize_standards (s : State cfg) : s.onInitialize.dollarStandardInfos =
    (s.clearCumulative.due.foldl State.distributeAuto s.clearCumulative).dollarStandardInfos := by
  simp only [State.onInitialize, State.due]
  split
  · rfl
  · rfl

theorem Balanced.onInitialize {o : Observed cfg} (h : Balanced o)
    (hclear : Meets hook (fun s e => e.2.ifAuto = true → Undisturbed s e)
      o.state.clearCumulative o.state.clearCumulative.due) : Balanced o.onInitialize := by
  intro id usd hget
  have hfold := h.clear.foldl hclear
  apply hfold id usd
  rw [Observed.foldl_state]
  exact onInitialize_standards o.state ▸ hget

/-! Runs. -/

/-- No transfer of a block fails, and what collects is separate. -/
def Safe (s : State cfg) (call : Origin × Call cfg) : Prop :=
  match call.2 with
  | .onInitialize => Meets hook (fun s e => e.2.ifAuto = true → Undisturbed s e)
      s.clearCumulative s.clearCumulative.due
  | .executeDistribute id | .deleteDistribution id => ∀ info usd,
      s.distributionInfos.get id = some info → s.collecting id = some usd → Separate info usd
  | _ => True

theorem Balanced.execute {o : Observed cfg} (h : Balanced o) {id : ℕ} {info : Info AccountId}
    {s' s'' : State cfg} (hinfo : o.state.distributionInfos.get id = some info)
    (hrun : o.state.executeDistribute id = .ok s') (hledger : s''.ledger = s'.ledger)
    (hstandards : s''.dollarStandardInfos = s'.dollarStandardInfos)
    (hseparate : ∀ usd, o.state.collecting id = some usd → Separate info usd) :
    Balanced (o.send (id, info) s'') := by
  simp only [State.executeDistribute, hinfo, okOr, bind, Except.bind, Attempt.commit_eq_ok] at hrun
  apply h.send
  · rw [hrun, hledger]
  · rw [hrun, hstandards]
  · exact Or.inl (by rw [hrun])
  · exact fun _ => hseparate

variable [DecidableEq AccountId]

omit [DecidableEq AccountId] in
theorem Balanced.same {o : Observed cfg} (h : Balanced o)
    (hstandards : s'.dollarStandardInfos = o.state.dollarStandardInfos) :
    Balanced ⟨s', o.moved⟩ := by
  intro id usd hget
  exact h id usd (hstandards ▸ hget)

theorem step_balanced {o o' : Observed cfg} {call : Origin × Call cfg} (h : Balanced o)
    (hsafe : Safe o.state call) (hstep : Observed.step o call = .ok o') : Balanced o' := by
  obtain ⟨origin, call⟩ := call
  rcases Observed.step_ok hstep with ⟨hcall, rfl⟩ | ⟨s', hs', rfl⟩
  · simp only at hcall
    subst call
    exact h.onInitialize hsafe
  · cases call with
    | createDistribution tokenType l ifAuto =>
      simp only [step, ensureControl, State.createDistribution, bind_eq_ok, ensure_eq_ok,
        exists_const, pure_eq_ok] at hs'
      obtain ⟨-, -, next, -, rfl⟩ := hs'
      exact h.same rfl
    | editDistribution id tokenType l ifAuto =>
      simp only [step, ensureControl, State.editDistribution, bind_eq_ok, ensure_eq_ok,
        exists_const, pure_eq_ok] at hs'
      obtain ⟨-, info, -, t, ht, rfl⟩ := hs'
      cases l with
      | none =>
        rw [State.editProportions, pure_eq_ok] at ht
        subst t
        exact h.same rfl
      | some l =>
        simp only [State.editProportions, bind_eq_ok, ensure_eq_ok, exists_const,
          pure_eq_ok] at ht
        obtain ⟨-, rfl⟩ := ht
        exact h.same rfl
    | setEraLength eraLength =>
      simp only [step, ensureControl, State.setEraLength, bind_eq_ok, ensure_eq_ok, exists_const,
        pure_eq_ok] at hs'
      obtain ⟨-, next, -, rfl⟩ := hs'
      exact h.same rfl
    | executeDistribute id =>
      simp only [step, ensureControl, bind_eq_ok, ensure_eq_ok, exists_const] at hs'
      simp only [Observed.after]
      cases hinfo : o.state.distributionInfos.get id with
      | none => simp [State.executeDistribute, hinfo, okOr, bind, Except.bind] at hs'
      | some info => exact h.execute hinfo hs'.2 rfl rfl (fun usd => hsafe info usd hinfo)
    | deleteDistribution id =>
      simp only [step, ensureControl, State.deleteDistribution, bind_eq_ok, ensure_eq_ok,
        exists_const, pure_eq_ok] at hs'
      obtain ⟨-, t, ht, rfl⟩ := hs'
      simp only [Observed.after]
      cases hinfo : o.state.distributionInfos.get id with
      | none => simp [State.executeDistribute, hinfo, okOr, bind, Except.bind] at ht
      | some info => exact h.execute hinfo ht rfl rfl (fun usd => hsafe info usd hinfo)
    | setUsdConfig id targetValue interval target =>
      simp only [step, ensureControl, State.setUsdConfig, bind_eq_ok, ensure_eq_ok, exists_const,
        pure_eq_ok] at hs'
      obtain ⟨-, -, -, -, rfl⟩ := hs'
      intro j usd hget
      simp only [Observed.after, Table.get_write] at hget ⊢
      by_cases hj : j = id
      · subst j
        rw [if_pos rfl] at hget
        rw [Function.update_self, ← Option.some.inj hget]
      · rw [if_neg hj] at hget
        rw [Function.update_of_ne hj]
        exact h j usd hget
    | onInitialize =>
      have heq : o.onInitialize = o.after s' .onInitialize := Except.ok.inj hstep
      exact heq ▸ h.onInitialize hsafe
    | outside ledger price now =>
      simp only [step, pure_eq_ok] at hs'
      subst s'
      exact h.same rfl

def Observed.start (cfg : Config AccountId) (ledger : cfg.payments.Ledger)
    (price : CurrencyId → Option FixedU128) (now : ℕ) : Observed cfg :=
  ⟨State.start cfg ledger price now, fun _ => 0⟩

/-- In runs of safe calls every distribution of a block is done in full or not at all, and the
cumulative values are what the targets got. -/
theorem automatic_all_or_nothing (cfg : Config AccountId) (ledger : cfg.payments.Ledger)
    (price : CurrencyId → Option FixedU128) (now : ℕ) (calls : List (Origin × Call cfg))
    (hsafe : Meets Observed.step (fun o call => Safe o.state call)
      (Observed.start cfg ledger price now) calls) :
    Meets Observed.step (fun o call => call.2 = .onInitialize →
        Meets hook (fun s e => e.2.ifAuto = true → AllOrNothing s e)
          o.state.clearCumulative o.state.clearCumulative.due)
      (Observed.start cfg ledger price now) calls ∧
    Always Observed.step Balanced (Observed.start cfg ledger price now) calls := by
  constructor
  · refine hsafe.imp fun o call hs hcall => ?_
    obtain ⟨origin, call⟩ := call
    simp only at hcall
    subst call
    exact Meets.imp (fun s e h hauto => allOrNothing_of_undisturbed (h hauto)) hs
  · have hstart : Balanced (Observed.start cfg ledger price now) := by
      intro id usd hget
      exact absurd hget (by simp [Observed.start, State.start])
    have hstep (o : Observed cfg) (call : Origin × Call cfg) (o' : Observed cfg) (h : Balanced o)
        (hs : Safe o.state call) (ho' : Observed.step o call = .ok o') : Balanced o' :=
      step_balanced h hs ho'
    exact always_of_meets hstep calls hstart hsafe

namespace Sample

def ksm : CurrencyId := .token2 1

/-- A distribution that collects for account 7, and the block that ends its first era. -/
def collect : List (Origin × Call config) :=
  [(.control, .createDistribution [dot, ksm] [(1, percent 100)] true),
   (.control, .setUsdConfig 0 1000 10 7),
   (.control, .setEraLength 1)]

/-- The fee account holds a hundred of the one and `n` of the other. -/
def holding (n : ℕ) : config.payments.Ledger :=
  fun c a => if a = 1000 then if c = dot then 100 else n else 0

def prices : CurrencyId → Option FixedU128 := fun _ => some FixedU128.one

def waiting (n : ℕ) : Observed config :=
  run Observed.step (Observed.start config (holding n) prices 1)
    (collect ++ [(.control, .outside (holding n) prices 2)])

end Sample

/-- The second of two transfers fails at the existential deposit: the first stays, and the value
of both is counted. -/
theorem failed_distribution_stays :
    ¬(Meets hook (fun s e => e.2.ifAuto = true → AllOrNothing s e)
        (Sample.waiting 5).state.clearCumulative (Sample.waiting 5).state.clearCumulative.due) ∧
      ¬Balanced (exec Observed.step (Sample.waiting 5) (.control, .onInitialize)) := by
  constructor
  · rintro ⟨hdone, -⟩
    rcases hdone _ rfl rfl with hdone | ⟨hsame, -⟩
    · exact absurd hdone (by decide)
    · exact absurd (hsame Sample.dot 7) (by decide)
  · intro hbalanced
    exact absurd (hbalanced 0 _ rfl) (by decide)

theorem automatic_all_or_nothing_sample :
    Always Observed.step Balanced (Observed.start Sample.config (Sample.holding 50) Sample.prices 1)
      (Sample.collect ++ [(.control, .outside (Sample.holding 50) Sample.prices 2),
        (.control, .onInitialize)]) := by
  refine (automatic_all_or_nothing Sample.config (Sample.holding 50) Sample.prices 1 _ ?_).2
  refine ⟨fun _ _ => trivial, fun _ _ => trivial, fun _ _ => trivial, fun _ _ => trivial,
    fun _ _ => ⟨fun _ _ _ => ?_, trivial⟩, trivial⟩
  intro value _
  exact ⟨⟨by decide, by decide⟩, fun _ => ⟨_, rfl, _, rfl, trivial⟩⟩

end Bifrost.FeeShare
