import Bifrost.VtokenMinting.Transitions

/-!
# Agreement of the unlock ledgers

`Sound` says that the user ledgers and the time unit ledgers of one currency index its
records. A fresh record keeps it, and so does every amount that comes off a record for its
redeemer; all calls but a redemption under a used id do no more than that. The agreement of
the four ledgers in every state of a run follows.
-/

namespace Bifrost.VtokenMinting

open Result Machine GroupIndex
set_option autoImplicit false

variable {AccountId : Type} [DecidableEq AccountId]

section Ledgers

variable {limits : Limits} {L L' : UnlockLedgers AccountId} {rt : Option (RedeemType AccountId)}

omit [DecidableEq AccountId] in
def UnlockLedgers.stored (L : UnlockLedgers AccountId) : ℕ :=
  GroupIndex.stored UnlockRecord.amount L.token

structure Sound (L : UnlockLedgers AccountId) : Prop where
  user : Indexes UnlockRecord.amount UnlockRecord.redeemer L.token L.user
  timeUnit : Indexes UnlockRecord.amount UnlockRecord.timeUnit L.token L.timeUnit
  userTotal : indexed L.user = L.stored
  timeUnitTotal : indexed L.timeUnit = L.stored

/-- No record is empty. -/
def Positive (L : UnlockLedgers AccountId) : Prop :=
  ∀ id r, L.token.get id = some r → 0 < r.amount

/-- An amount comes off a record, under its redeemer and its time unit. -/
def Takes (limits : Limits) (L L' : UnlockLedgers AccountId) : Prop :=
  ∃ id r n b, L.token.get id = some r ∧ n ≤ r.amount ∧
    L.update limits r.redeemer n id r.timeUnit none .sub = .ok (b, L')

/-- Amounts come off records, one after another. -/
def Taken (limits : Limits) : UnlockLedgers AccountId → UnlockLedgers AccountId → Prop :=
  Relation.ReflTransGen (Takes limits)

/-- What is left of the records: each is an old one of no greater amount, and none was
emptied without being removed. -/
def Shrinks (L L' : UnlockLedgers AccountId) : Prop :=
  ∀ id r', L'.token.get id = some r' → ∃ r, L.token.get id = some r ∧
    r'.redeemer = r.redeemer ∧ r'.timeUnit = r.timeUnit ∧ r'.redeemType = r.redeemType ∧
      r'.amount ≤ r.amount ∧ (0 < r.amount → 0 < r'.amount)

theorem sound_empty : Sound (∅ : UnlockLedgers AccountId) :=
  ⟨Indexes.empty, Indexes.empty, rfl, rfl⟩

theorem sound_add (hL : Sound L) {account : AccountId} {n id : ℕ} {t : TimeUnit}
    {b : Bool} (hid : L.token.get id = none)
    (h : L.update limits account n id t rt .add = .ok (b, L')) : Sound L' := by
  obtain ⟨redeemType, -, -, -, rfl⟩ := update_add_ok h
  have hstored : GroupIndex.stored UnlockRecord.amount
      (L.token.write id (some ⟨account, n, t, redeemType⟩)) = L.stored + n := stored_insert hid _
  refine ⟨hL.user.insert hid ⟨account, n, t, redeemType⟩,
    hL.timeUnit.insert hid ⟨account, n, t, redeemType⟩, ?_, ?_⟩
  · apply (indexed_insert account id n).trans
    rw [hL.userTotal]
    exact hstored.symm
  · apply (indexed_insert t id n).trans
    rw [hL.timeUnitTotal]
    exact hstored.symm

theorem stored_add {account : AccountId} {n id : ℕ} {t : TimeUnit}
    {b : Bool} (hid : L.token.get id = none)
    (h : L.update limits account n id t rt .add = .ok (b, L')) :
    L'.stored = L.stored + n ∧ L'.unlockingTotal = L.unlockingTotal + n := by
  obtain ⟨redeemType, -, -, -, rfl⟩ := update_add_ok h
  exact ⟨stored_insert hid _, rfl⟩

theorem sound_takes (hL : Sound L) (h : Takes limits L L') : Sound L' := by
  obtain ⟨id, r, n, b, hr, hn, h⟩ := h
  obtain ⟨r₀, g, g', hr₀, hg, hg', -, rfl, rfl⟩ := update_sub_ok h
  rw [hr] at hr₀
  cases hr₀
  have hamount : ({ r with amount := r.amount - n } : UnlockRecord AccountId).amount + n =
      r.amount := Nat.sub_add_cancel hn
  have hstored : GroupIndex.stored UnlockRecord.amount (L.token.write id
      (if r.amount ≤ n then none else some { r with amount := r.amount - n })) + n = L.stored :=
    stored_reduce hr hn hamount
  have huser := indexed_reduce hg id (hn.trans (hL.user.amount_le hr hg)) (decide (r.amount ≤ n))
  have htime := indexed_reduce hg' id (hn.trans (hL.timeUnit.amount_le hr hg'))
    (decide (r.amount ≤ n))
  refine ⟨hL.user.reduce hr hg hn rfl hamount, hL.timeUnit.reduce hr hg' hn rfl hamount, ?_, ?_⟩
  · have h := hL.userTotal
    simp only [UnlockLedgers.stored] at h hstored ⊢
    omega
  · have h := hL.timeUnitTotal
    simp only [UnlockLedgers.stored] at h hstored ⊢
    omega

theorem stored_takes (h : Takes limits L L') :
    ∃ n, L'.stored + n = L.stored ∧ L'.unlockingTotal + n = L.unlockingTotal := by
  obtain ⟨id, r, n, b, hr, hn, h⟩ := h
  obtain ⟨r₀, g, g', hr₀, -, -, hle, -, rfl⟩ := update_sub_ok h
  rw [hr] at hr₀
  cases hr₀
  exact ⟨n, stored_reduce hr hn (Nat.sub_add_cancel hn), Nat.sub_add_cancel hle⟩

omit [DecidableEq AccountId] in
theorem Shrinks.refl (L : UnlockLedgers AccountId) : Shrinks L L :=
  fun _ r hr => ⟨r, hr, rfl, rfl, rfl, Nat.le_refl _, id⟩

omit [DecidableEq AccountId] in
theorem Shrinks.trans {L₁ L₂ L₃ : UnlockLedgers AccountId} (h : Shrinks L₁ L₂)
    (h' : Shrinks L₂ L₃) : Shrinks L₁ L₃ := by
  intro id r₃ hr₃
  obtain ⟨r₂, hr₂, hw₂, ht₂, hrt₂, hle₂, hpos₂⟩ := h' id r₃ hr₃
  obtain ⟨r₁, hr₁, hw₁, ht₁, hrt₁, hle₁, hpos₁⟩ := h id r₂ hr₂
  exact ⟨r₁, hr₁, hw₂.trans hw₁, ht₂.trans ht₁, hrt₂.trans hrt₁, hle₂.trans hle₁,
    fun hpos => hpos₂ (hpos₁ hpos)⟩

theorem shrinks_sub {account : AccountId} {n id : ℕ} {t : TimeUnit}
    {b : Bool} (h : L.update limits account n id t rt .sub = .ok (b, L')) : Shrinks L L' := by
  obtain ⟨r, g, g', hr, -, -, -, -, rfl⟩ := update_sub_ok h
  intro j r' hj
  rw [Table.get_write] at hj
  split at hj
  · subst j
    split at hj
    · contradiction
    · cases hj
      exact ⟨r, hr, rfl, rfl, rfl, Nat.sub_le _ _, fun _ => by simp only; omega⟩
  · exact ⟨r', hj, rfl, rfl, rfl, Nat.le_refl _, fun hpos => hpos⟩

theorem shrinks_taken (h : Taken limits L L') : Shrinks L L' := by
  induction h with
  | refl => exact Shrinks.refl L
  | tail _ hstep ih =>
    obtain ⟨id, r, n, b, -, -, hstep⟩ := hstep
    exact ih.trans (shrinks_sub hstep)

theorem sound_taken (hL : Sound L) (h : Taken limits L L') : Sound L' := by
  induction h with
  | refl => exact hL
  | tail _ hstep ih => exact sound_takes ih hstep

theorem stored_taken (h : Taken limits L L') :
    ∃ n, L'.stored + n = L.stored ∧ L'.unlockingTotal + n = L.unlockingTotal := by
  induction h with
  | refl => exact ⟨0, rfl, rfl⟩
  | tail _ hstep ih =>
    obtain ⟨n, hn, hn'⟩ := ih
    obtain ⟨m, hm, hm'⟩ := stored_takes hstep
    exact ⟨n + m, by omega, by omega⟩

omit [DecidableEq AccountId] in
theorem Shrinks.positive (h : Shrinks L L') (hL : Positive L) : Positive L' := by
  intro id r' hr'
  obtain ⟨r, hr, -, -, -, -, hpos⟩ := h id r' hr'
  exact hpos (hL id r hr)

theorem positive_add (hL : Positive L) {account : AccountId} {n id : ℕ} {t : TimeUnit}
    {b : Bool} (hn : 0 < n)
    (h : L.update limits account n id t rt .add = .ok (b, L')) : Positive L' := by
  obtain ⟨redeemType, -, -, -, rfl⟩ := update_add_ok h
  intro j r hj
  rw [Table.get_write] at hj
  split at hj
  · cases hj
    exact hn
  · exact hL j r hj

theorem rebondLedgers_taken {rebonder : AccountId} {ids : List ℕ} {temp : ℕ}
    (hown : ∀ id ∈ ids, ∀ r, L.token.get id = some r → r.redeemer = rebonder)
    (h : rebondLedgers limits rebonder ids temp L = .ok L') : Taken limits L L' := by
  induction ids generalizing temp L with
  | nil =>
    simp only [rebondLedgers, pure_eq_ok] at h
    exact h ▸ Relation.ReflTransGen.refl
  | cons id ids ih =>
    simp only [rebondLedgers, bind_eq_ok, okOr_eq_ok] at h
    obtain ⟨r, hr, ⟨b, L₁⟩, h₁, h⟩ := h
    have hle : (if temp ≤ r.amount then temp else r.amount) ≤ r.amount := by
      split <;> omega
    have hfirst : Takes limits L L₁ := by
      refine ⟨id, r, _, b, hr, hle, ?_⟩
      rw [hown id List.mem_cons_self r hr]
      exact h₁
    split at h
    · refine Relation.ReflTransGen.head hfirst (ih ?_ h)
      intro j hj r' hr'
      obtain ⟨r₀, hr₀, hwho, -⟩ := shrinks_sub h₁ j r' hr'
      rw [hwho]
      exact hown j (List.mem_cons_of_mem id hj) r₀ hr₀
    · simp only [pure_eq_ok] at h
      subst L'
      exact Relation.ReflTransGen.single hfirst

theorem rebondLedgers_of_sound (hL : Sound L) {rebonder : AccountId} {g : Group ℕ} {temp : ℕ}
    (hg : L.user.get rebonder = some g)
    (h : rebondLedgers limits rebonder g.ids.reverse temp L = .ok L') : Taken limits L L' := by
  apply rebondLedgers_taken _ h
  intro id hid r hr
  obtain ⟨r₀, hr₀, hwho⟩ := hL.user.live _ _ hg id (List.mem_reverse.mp hid)
  rw [hr] at hr₀
  cases hr₀
  exact hwho

end Ledgers

section Steps

variable {cfg : Config AccountId} {s s' : State cfg} {a : Call cfg}

theorem processRecords_ok {c : CurrencyId} {ids : List ℕ}
    (h : processRecords c ids s = .ok s') :
    ∃ ledgers L es, s' = s.served c ledgers L es ∧
      Taken cfg.limits (s.unlockLedgers c) ledgers := by
  induction ids generalizing s with
  | nil =>
    simp only [processRecords, pure_eq_ok] at h
    subst s'
    exact ⟨s.unlockLedgers c, s.ledger, [], by simp [State.served], Relation.ReflTransGen.refl⟩
  | cons id ids ih =>
    unfold processRecords at h
    split at h
    · exact ih h
    · rename_i r hr
      split at h
      · simp only [pure_eq_ok] at h
        subst s'
        exact ⟨s.unlockLedgers c, s.ledger, [], by simp [State.served],
          Relation.ReflTransGen.refl⟩
      · simp only [bind_eq_ok] at h
        obtain ⟨s₁, h₁, h⟩ := h
        obtain ⟨n, L, hle, -, -, hcase⟩ := processRedeem_ok h₁
        obtain ⟨ledgers, L', es, rfl, htaken⟩ := ih h
        rcases hcase with ⟨-, rfl⟩ | ⟨-, b, ledgers₁, redeemTo, hledgers, rfl⟩
        · refine ⟨ledgers, L', es, by simp [State.served], ?_⟩
          simpa [State.served] using htaken
        · refine ⟨ledgers, L', .redeemSuccess r.redeemer id c redeemTo n :: es, ?_, ?_⟩
          · simp [State.served]
          · simp only [State.served, Function.update_self] at htaken
            exact Relation.ReflTransGen.head ⟨id, r, n, b, hr, hle, hledgers⟩ htaken

/-- What one currency's turn in `on_idle` can do. -/
inductive Handled (s : State cfg) (c : CurrencyId) : State cfg → Prop
  | served (g : Group ℕ) (ledgers : UnlockLedgers AccountId) (L : cfg.currency.Ledger)
      (es : List (Event AccountId))
      (hg : (s.unlockLedgers c).timeUnit.get (s.minTimeUnit c) = some g)
      (htaken : Taken cfg.limits (s.unlockLedgers c) ledgers) :
      Handled s c (s.served c ledgers L es)
  | advanced (hnone : (s.unlockLedgers c).timeUnit.get (s.minTimeUnit c) = none) :
      Handled s c
        { s with minTimeUnit := Function.update s.minTimeUnit c (s.minTimeUnit c).addOne }
  | waited : Handled s c s
  | failed (err : Fault) : Handled s c (s.depositEvent (.fastRedeemFailed err))

theorem handleLedgerByCurrency_handled {c : CurrencyId}
    (h : handleLedgerByCurrency s c = .ok s') : Handled s c s' := by
  simp only [handleLedgerByCurrency] at h
  split at h
  · rename_i g hg
    obtain ⟨ledgers, L, es, rfl, htaken⟩ := processRecords_ok h
    exact .served g ledgers L es hg htaken
  · rename_i hnone
    simp only [bind_eq_ok, okOr_eq_ok] at h
    obtain ⟨duration, -, ongoing, -, result, -, h⟩ := h
    split at h
    · simp only [pure_eq_ok] at h
      subst s'
      exact .advanced hnone
    · simp only [pure_eq_ok] at h
      subst s'
      exact .waited

theorem handleOrFail_handled (s : State cfg) (c : CurrencyId) :
    Handled s c (handleOrFail s c) := by
  unfold handleOrFail
  split
  · exact handleLedgerByCurrency_handled (by assumption)
  · exact .failed _

theorem onIdle_invariant {I : State cfg → Prop}
    (hI : ∀ s c s', I s → Handled s c s' → I s') {order : List CurrencyId} (hs : I s)
    (h : onIdle s order = .ok s') : I s' := by
  simp only [onIdle, bind_eq_ok, ensure_eq_ok, pure_eq_ok] at h
  obtain ⟨-, -, rfl⟩ := h
  induction order generalizing s with
  | nil => exact hs
  | cons c order ih => exact ih (hI s c _ hs (handleOrFail_handled s c))

def Call.movesCursor : Call cfg → Bool
  | .onIdle _ | .setMinTimeUnit _ _ => true
  | _ => false

def Call.redeems : Call cfg → Bool
  | .redeem .. => true
  | _ => false

def Call.maps : Call cfg → Bool
  | .setVtokenMultimap _ _ => true
  | _ => false

def Call.movesLedgers : Call cfg → Bool
  | .redeem .. | .rebond .. | .rebondByUnlockId .. | .onIdle _ | .setUnlockingTotal _ _ => true
  | _ => false

/-- What a call leaves alone. -/
structure Frame (s s' : State cfg) (a : Call cfg) : Prop where
  minTimeUnit : a.movesCursor = false → s'.minTimeUnit = s.minTimeUnit
  tokenUnlockNextId : a.redeems = false → s'.tokenUnlockNextId = s.tokenUnlockNextId
  tokenToVToken : a.maps = false → s'.tokenToVToken = s.tokenToVToken
  unlockLedgers : a.movesLedgers = false → s'.unlockLedgers = s.unlockLedgers

omit [DecidableEq AccountId] in
theorem Frame.same (hmin : s'.minTimeUnit = s.minTimeUnit)
    (hnext : s'.tokenUnlockNextId = s.tokenUnlockNextId)
    (hmap : s'.tokenToVToken = s.tokenToVToken) (hledgers : s'.unlockLedgers = s.unlockLedgers) :
    Frame s s' a :=
  ⟨fun _ => hmin, fun _ => hnext, fun _ => hmap, fun _ => hledgers⟩

theorem handled_frame {c : CurrencyId} (h : Handled s c s') :
    s'.tokenUnlockNextId = s.tokenUnlockNextId ∧ s'.tokenToVToken = s.tokenToVToken := by
  cases h <;> exact ⟨rfl, rfl⟩

theorem step_frame (h : step s a = .ok s') : Frame s s' a := by
  cases a with
  | mint who d n channel =>
    simp only [step, bind_eq_ok, pure_eq_ok] at h
    obtain ⟨⟨v, m, s₁⟩, h₁, rfl⟩ := h
    obtain ⟨n, fee, L, es, -, -, -, -, -, rfl⟩ := doMint_ok h₁
    exact .same rfl rfl rfl rfl
  | redeem who oc v n redeemType =>
    obtain ⟨d, target, k, t, ledgers, L, es, -, -, -, -, -, -, -, -, -, rfl⟩ := doRedeem_ok h
    exact ⟨fun _ => rfl, fun hno => (by cases hno), fun _ => rfl, fun hno => (by cases hno)⟩
  | rebond who d n =>
    obtain ⟨g, ledgers, target, k, m, fee, rebonded, L, es, -, -, -, -, -, -, -, rfl⟩ := rebond_ok h
    exact ⟨fun _ => rfl, fun _ => rfl, fun _ => rfl, fun hno => (by cases hno)⟩
  | rebondByUnlockId who d id =>
    obtain ⟨r, b, ledgers, target, k, m, fee, rebonded, L, es, -, -, -, -, -, -, -, rfl⟩ :=
      rebondByUnlockId_ok h
    exact ⟨fun _ => rfl, fun _ => rfl, fun _ => rfl, fun hno => (by cases hno)⟩
  | onIdle order =>
    have hkept := onIdle_invariant (I := fun t => t.tokenUnlockNextId = s.tokenUnlockNextId ∧
      t.tokenToVToken = s.tokenToVToken) (by
        intro t d t' ht hstep
        obtain ⟨hnext, hmap⟩ := handled_frame hstep
        exact ⟨hnext.trans ht.1, hmap.trans ht.2⟩) ⟨rfl, rfl⟩ h
    exact ⟨fun hno => (by cases hno), fun _ => hkept.1, fun _ => hkept.2, fun hno => (by cases hno)⟩
  | setUnlockingTotal d n =>
    simp only [step, updateTotal, bind_eq_ok, mapErr_eq_ok, pure_eq_ok] at h
    obtain ⟨_, rfl, rfl⟩ := h
    exact ⟨fun _ => rfl, fun _ => rfl, fun _ => rfl, fun hno => (by cases hno)⟩
  | addSupportRebondToken d =>
    simp only [step, bind_eq_ok, pure_eq_ok] at h
    obtain ⟨-, -, rfl⟩ := h
    exact .same rfl rfl rfl rfl
  | removeSupportRebondToken d =>
    simp only [step, bind_eq_ok, pure_eq_ok] at h
    obtain ⟨-, -, rfl⟩ := h
    exact .same rfl rfl rfl rfl
  | setVtokenMultimap v configs =>
    simp only [step, setVtokenMultimap, bind_eq_ok, pure_eq_ok] at h
    obtain ⟨-, -, -, -, rfl⟩ := h
    refine ⟨fun _ => ?_, fun _ => ?_, fun hno => (by cases hno), fun _ => ?_⟩ <;> split <;> rfl
  | setVCurrencyIssuance v adjustment =>
    obtain ⟨-, issuance, -, rfl⟩ := setVCurrencyIssuanceInner_ok h
    exact .same rfl rfl rfl rfl
  | increaseTokenPool d n =>
    obtain ⟨target, amount, -, -, rfl⟩ := updateTokenPool_ok h
    exact .same rfl rfl rfl rfl
  | decreaseTokenPool d n =>
    obtain ⟨target, amount, -, -, rfl⟩ := updateTokenPool_ok h
    exact .same rfl rfl rfl rfl
  | setMinTimeUnit d t =>
    simp only [step, pure_eq_ok] at h
    subst s'
    exact ⟨fun hno => (by cases hno), fun _ => rfl, fun _ => rfl, fun _ => rfl⟩
  | setUnlockDuration | setMinimumMint | setMinimumRedeem | setFees | setHookIterationLimit
  | setOngoingTimeUnit | world =>
    simp only [step, pure_eq_ok] at h
    subst s'
    exact .same rfl rfl rfl rfl

/-- What a call can do to the ledgers of a currency. -/
inductive LedgerChange (s : State cfg) (c : CurrencyId) (s' : State cfg) : Call cfg → Prop
  | taken (a : Call cfg) (h : Taken cfg.limits (s.unlockLedgers c) (s'.unlockLedgers c)) :
      LedgerChange s c s' a
  | redeemed (redeemer : AccountId) (oc : Option CurrencyId) (v : CurrencyId) (amount : ℕ)
      (redeemType : RedeemType AccountId) (t : TimeUnit) (hc : redeemCurrency s oc v = .ok c)
      (ht : lockToTimeUnit s c = .ok t)
      (hadd : (s.unlockLedgers c).update cfg.limits redeemer (s.redemption c v amount)
        (s.tokenUnlockNextId v) t (some redeemType) .add = .ok (false, s'.unlockLedgers c)) :
      LedgerChange s c s' (.redeem redeemer oc v amount redeemType)
  | totalSet (n : ℕ)
      (h : s'.unlockLedgers c = { s.unlockLedgers c with unlockingTotal := n }) :
      LedgerChange s c s' (.setUnlockingTotal c n)

theorem LedgerChange.same {c : CurrencyId}
    (h : s'.unlockLedgers c = s.unlockLedgers c) : LedgerChange s c s' a := by
  apply LedgerChange.taken
  rw [h]
  exact Relation.ReflTransGen.refl

theorem LedgerChange.update {c d : CurrencyId} {ledgers : UnlockLedgers AccountId}
    (hs' : s'.unlockLedgers = Function.update s.unlockLedgers c ledgers)
    (h : s'.unlockLedgers c = ledgers → LedgerChange s c s' a) : LedgerChange s d s' a := by
  by_cases hd : d = c
  · subst d
    exact h (by rw [hs', Function.update_self])
  · apply LedgerChange.same
    rw [hs', Function.update_of_ne hd]

theorem taken_handled {c d : CurrencyId} (h : Handled s c s') :
    Taken cfg.limits (s.unlockLedgers d) (s'.unlockLedgers d) := by
  cases h with
  | served g ledgers L es hg htaken =>
    by_cases hd : d = c
    · subst d
      simpa [State.served] using htaken
    · simp only [State.served, Function.update_of_ne hd]
      exact Relation.ReflTransGen.refl
  | advanced hnone => exact Relation.ReflTransGen.refl
  | waited => exact Relation.ReflTransGen.refl
  | failed err => exact Relation.ReflTransGen.refl

theorem step_ledgers (hs : ∀ c, Sound (s.unlockLedgers c))
    (h : step s a = .ok s') (c : CurrencyId) : LedgerChange s c s' a := by
  cases hmoves : a.movesLedgers with
  | false => exact .same (congrFun ((step_frame h).unlockLedgers hmoves) c)
  | true =>
    cases a with
    | redeem who oc v n redeemType =>
      obtain ⟨d, target, k, t, ledgers, L, es, hd, -, htarget, rfl, -, -, ht, -, hadd, rfl⟩ :=
        doRedeem_ok h
      refine LedgerChange.update (c := d) rfl fun hledgers => ?_
      refine .redeemed who oc v n redeemType t hd ht ?_
      rw [hledgers]
      rwa [State.redemption, getTokenPool_of_mapped htarget]
    | rebond who d n =>
      obtain ⟨g, ledgers, target, k, m, fee, rebonded, L, es, hg, -, hledgers, -, -, -, -, rfl⟩ :=
        rebond_ok h
      refine LedgerChange.update (c := d) rfl fun heq => ?_
      apply LedgerChange.taken
      rw [heq]
      exact rebondLedgers_of_sound (hs d) hg hledgers
    | rebondByUnlockId who d id =>
      obtain ⟨r, b, ledgers, target, k, m, fee, rebonded, L, es, hr, rfl, hledgers, -, -, -, -,
        rfl⟩ := rebondByUnlockId_ok h
      refine LedgerChange.update (c := d) rfl fun heq => ?_
      apply LedgerChange.taken
      rw [heq]
      exact Relation.ReflTransGen.single ⟨id, r, r.amount, b, hr, Nat.le_refl _, hledgers⟩
    | onIdle order =>
      apply LedgerChange.taken
      refine onIdle_invariant (I := fun t => Taken cfg.limits (s.unlockLedgers c)
        (t.unlockLedgers c)) ?_ Relation.ReflTransGen.refl h
      intro t d t' ht hstep
      exact ht.trans (taken_handled hstep)
    | setUnlockingTotal d n =>
      simp only [step, updateTotal, bind_eq_ok, mapErr_eq_ok, pure_eq_ok] at h
      obtain ⟨_, rfl, rfl⟩ := h
      exact LedgerChange.update (c := d) rfl fun heq => .totalSet n heq
    | _ => contradiction

/-- A redemption uses an id that no record of its currency has. -/
def FreshId (s : State cfg) : Call cfg → Prop
  | .redeem _ oc v _ _ => ∀ c, redeemCurrency s oc v = .ok c →
      (s.unlockLedgers c).token.get (s.tokenUnlockNextId v) = none
  | _ => True

/-- A redemption is worth some of its currency. -/
def PositiveAmount (s : State cfg) : Call cfg → Prop
  | .redeem _ oc v n _ => ∀ c, redeemCurrency s oc v = .ok c → 0 < s.redemption c v n
  | _ => True

def KeepsUnlockingTotal : Call cfg → Prop
  | .setUnlockingTotal _ _ => False
  | _ => True

theorem sound_step (hs : ∀ c, Sound (s.unlockLedgers c)) (ha : FreshId s a)
    (h : step s a = .ok s') (c : CurrencyId) : Sound (s'.unlockLedgers c) := by
  cases step_ledgers hs h c with
  | taken _ htaken => exact sound_taken (hs c) htaken
  | redeemed redeemer oc v amount redeemType t hc ht hadd => exact sound_add (hs c) (ha c hc) hadd
  | totalSet n heq =>
    rw [heq]
    exact ⟨(hs c).user, (hs c).timeUnit, (hs c).userTotal, (hs c).timeUnitTotal⟩

theorem positive_step (hs : ∀ c, Sound (s.unlockLedgers c))
    (hpos : ∀ c, Positive (s.unlockLedgers c)) (ha : PositiveAmount s a)
    (h : step s a = .ok s') (c : CurrencyId) : Positive (s'.unlockLedgers c) := by
  cases step_ledgers hs h c with
  | taken _ htaken => exact (shrinks_taken htaken).positive (hpos c)
  | redeemed redeemer oc v amount redeemType t hc ht hadd =>
    exact positive_add (hpos c) (ha c hc) hadd
  | totalSet n heq =>
    rw [heq]
    exact hpos c

theorem total_step (hs : ∀ c, Sound (s.unlockLedgers c))
    (htotal : ∀ c, (s.unlockLedgers c).unlockingTotal = (s.unlockLedgers c).stored)
    (ha : FreshId s a) (hkeeps : KeepsUnlockingTotal a) (h : step s a = .ok s')
    (c : CurrencyId) : (s'.unlockLedgers c).unlockingTotal = (s'.unlockLedgers c).stored := by
  have hc := htotal c
  cases step_ledgers hs h c with
  | taken _ htaken =>
    obtain ⟨n, hn, hn'⟩ := stored_taken htaken
    omega
  | redeemed redeemer oc v amount redeemType t hcur ht hadd =>
    obtain ⟨hstored, hunlocking⟩ := stored_add (ha c hcur) hadd
    omega
  | totalSet n heq => exact hkeeps.elim

theorem sound_genesis (ledger : cfg.currency.Ledger) (c : CurrencyId) :
    Sound ((genesis cfg ledger).unlockLedgers c) := sound_empty

theorem sound_run (ledger : cfg.currency.Ledger) {as : List (Call cfg)}
    (has : Meets step FreshId (genesis cfg ledger) as) (c : CurrencyId) :
    Sound ((run step (genesis cfg ledger) as).unlockLedgers c) :=
  run_invariant (I := fun s : State cfg => ∀ c, Sound (s.unlockLedgers c))
    (fun _ _ _ hs ha h => sound_step hs ha h) as (sound_genesis ledger) has c

omit [DecidableEq AccountId] in
theorem positive_genesis (ledger : cfg.currency.Ledger) (c : CurrencyId) :
    Positive ((genesis cfg ledger).unlockLedgers c) := by
  intro id r hr
  exact absurd ((Table.get_empty id).symm.trans hr) (by simp)

/-- The ledgers of one currency agree. -/
structure Agrees (L : UnlockLedgers AccountId) : Prop where
  unlockingTotal : L.unlockingTotal = L.stored
  userTotal : indexed L.user = L.stored
  timeUnitTotal : indexed L.timeUnit = L.stored
  userLists : ∀ who g, L.user.get who = some g →
    g.total = (g.ids.map (amountAt UnlockRecord.amount L.token)).sum
  timeUnitLists : ∀ t g, L.timeUnit.get t = some g →
    g.total = (g.ids.map (amountAt UnlockRecord.amount L.token)).sum
  userIds : ∀ id, L.user.sum (fun _ g => g.ids.count id) =
    if (L.token.get id).isSome then 1 else 0
  timeUnitIds : ∀ id, L.timeUnit.sum (fun _ g => g.ids.count id) =
    if (L.token.get id).isSome then 1 else 0

theorem Sound.agrees {L : UnlockLedgers AccountId} (hL : Sound L) (hpos : Positive L)
    (htotal : L.unlockingTotal = L.stored) : Agrees L where
  unlockingTotal := htotal
  userTotal := hL.userTotal
  timeUnitTotal := hL.timeUnitTotal
  userLists := hL.user.total
  timeUnitLists := hL.timeUnit.total
  userIds := hL.user.count_ids hpos
  timeUnitIds := hL.timeUnit.count_ids hpos

/-- The redemptions that the ledgers can index. -/
def Indexable (s : State cfg) (a : Call cfg) : Prop :=
  FreshId s a ∧ PositiveAmount s a ∧ KeepsUnlockingTotal a

/-- In every run of such calls the ledgers of every currency agree. -/
theorem ledgers_agree (ledger : cfg.currency.Ledger) (as : List (Call cfg))
    (has : Meets step Indexable (genesis cfg ledger) as) (c : CurrencyId) :
    Agrees ((run step (genesis cfg ledger) as).unlockLedgers c) := by
  have hrun := run_invariant
    (I := fun s : State cfg => (∀ c, Sound (s.unlockLedgers c)) ∧
      (∀ c, Positive (s.unlockLedgers c)) ∧
      ∀ c, (s.unlockLedgers c).unlockingTotal = (s.unlockLedgers c).stored)
    (by
      intro s a s' hs ha h
      obtain ⟨hsound, hpos, htotal⟩ := hs
      exact ⟨sound_step hsound ha.1 h, positive_step hsound hpos ha.2.1 h,
        total_step hsound htotal ha.1 ha.2.2 h⟩)
    as ⟨sound_genesis ledger, positive_genesis ledger, fun c => rfl⟩ has
  exact (hrun.1 c).agrees (hrun.2.1 c) (hrun.2.2 c)

end Steps

/-! Account 1 holds HP_ETH, which is mapped to vETH; every existential deposit is 10. -/

namespace Sample

def config : Config ℕ where
  currency := Tokens.multiCurrency ℕ fun _ => 10
  entranceAccount := 100
  feeAccount := 101
  redeemFeeAccount := 102
  limits := ⟨10, 50⟩
  moonbeamChainId := 2004
  getHyperbridgePayerAndFee := fun _ _ => .ok (100, 0)
  getMoonbeamTransferToFee := fun _ => 0
  sendAndCall := fun L _ _ _ _ _ _ _ => .ok L
  xcmTransfer := fun L _ _ _ _ => .ok L
  xcmTransferMulticurrencies := fun L _ _ _ _ => .ok L
  onRedeemSuccess := fun L _ _ _ => L
  onRedeemed := fun L _ _ _ _ _ => L
  recordMintAmount := fun L _ _ _ => .ok L
  recordRedeemAmount := fun L _ _ => .ok L

def balances : Tokens.Accounts ℕ := fun c x => if c = hpEth ∧ x = 1 then 1000 else 0

def setup : List (Call config) :=
  [.setVtokenMultimap vEth [⟨hpEth, true⟩], .setOngoingTimeUnit hpEth (.era 1),
    .setUnlockDuration hpEth (.era 2), .mint 1 hpEth 1000 none,
    .redeem 1 (some hpEth) vEth 400 .native]

end Sample

theorem ledgers_agree_sample :
    let s := run step (genesis Sample.config Sample.balances) Sample.setup
    Agrees (s.unlockLedgers hpEth) := by
  apply @ledgers_agree _ _ Sample.config Sample.balances Sample.setup
  refine ⟨fun _ _ => ⟨trivial, trivial, trivial⟩, fun _ _ => ⟨trivial, trivial, trivial⟩,
    fun _ _ => ⟨trivial, trivial, trivial⟩, fun _ _ => ⟨trivial, trivial, trivial⟩,
    fun _ _ => ⟨?_, ?_, trivial⟩, trivial⟩
  · intro c hc
    cases redeemCurrency_some hc
    decide
  · intro c hc
    cases redeemCurrency_some hc
    decide

/-- vToken2 16 has no tokens of its own and falls back to HP_ETH, where its first id is
taken. -/
theorem ledgers_disagree :
    let s := run step (genesis Sample.config Sample.balances)
      (Sample.setup ++ [.redeem 2 none (.vToken2 16) 0 .native])
    (s.unlockLedgers hpEth).token.get 0 = some ⟨2, 0, .era 3, .native⟩ ∧
      (s.unlockLedgers hpEth).stored = 0 ∧ (s.unlockLedgers hpEth).unlockingTotal = 400 := by
  decide

end Bifrost.VtokenMinting
