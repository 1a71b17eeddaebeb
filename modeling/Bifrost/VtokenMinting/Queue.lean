import Bifrost.VtokenMinting.Agreement

/-!
# The redeem queue

`on_idle` serves the records of one time unit, `MinTimeUnit`, and steps on when that unit has
none. No record falls behind the cursor as long as redemptions are locked to it or later,
and the unit at the cursor loses a record whenever it can be paid.
-/

namespace Bifrost.VtokenMinting

open Result Machine GroupIndex
set_option autoImplicit false

variable {AccountId : Type} [DecidableEq AccountId] {cfg : Config AccountId} {s s' : State cfg}
  {c : CurrencyId} {r : UnlockRecord AccountId}

/-- Every record of the currency is at the cursor or after it. -/
def Ahead (s : State cfg) (c : CurrencyId) : Prop :=
  ∀ id r, (s.unlockLedgers c).token.get id = some r → (s.minTimeUnit c).AtOrAfter r.timeUnit

/-- Redemptions are locked to the cursor or later, and neither the cursor nor the total is set
past the records. -/
def KeepsQueue (s : State cfg) : Call cfg → Prop
  | .redeem _ oc v _ _ => ∀ c t, redeemCurrency s oc v = .ok c → lockToTimeUnit s c = .ok t →
      (s.minTimeUnit c).AtOrAfter t
  | .setMinTimeUnit c t => ∀ id r, (s.unlockLedgers c).token.get id = some r →
      t.AtOrAfter r.timeUnit
  | .setUnlockingTotal c n => (s.unlockLedgers c).stored ≤ n
  | _ => True

structure Queued (s : State cfg) (c : CurrencyId) : Prop where
  sound : Sound (s.unlockLedgers c)
  positive : Positive (s.unlockLedgers c)
  covered : (s.unlockLedgers c).stored ≤ (s.unlockLedgers c).unlockingTotal
  ahead : Ahead s c

omit [DecidableEq AccountId] in
theorem ahead_of_shrinks (hs : Ahead s c) (hmin : s'.minTimeUnit c = s.minTimeUnit c)
    (h : Shrinks (s.unlockLedgers c) (s'.unlockLedgers c)) : Ahead s' c := by
  intro id r' hr'
  obtain ⟨r, hr, -, ht, -⟩ := h id r' hr'
  rw [hmin, ht]
  exact hs id r hr

theorem ahead_advanced (hs : Queued s c)
    (hnone : (s.unlockLedgers c).timeUnit.get (s.minTimeUnit c) = none) {id : ℕ}
    (hr : (s.unlockLedgers c).token.get id = some r) :
    (s.minTimeUnit c).addOne.AtOrAfter r.timeUnit := by
  apply TimeUnit.AtOrAfter.addOne (hs.ahead id r hr)
  intro heq
  obtain ⟨g, hg, -⟩ := hs.sound.timeUnit.listed id r hr (hs.positive id r hr)
  rw [← heq, hnone] at hg
  contradiction

theorem queued_taken (hs : Queued s c) (hmin : s'.minTimeUnit c = s.minTimeUnit c)
    (h : Taken cfg.limits (s.unlockLedgers c) (s'.unlockLedgers c)) : Queued s' c := by
  obtain ⟨n, hn, hn'⟩ := stored_taken h
  have hcov := hs.covered
  exact ⟨sound_taken hs.sound h, (shrinks_taken h).positive hs.positive, by omega,
    ahead_of_shrinks hs.ahead hmin (shrinks_taken h)⟩

theorem queued_handled (hs : ∀ d, Queued s d) (h : Handled s c s') : ∀ d, Queued s' d := by
  intro d
  have htaken' : Taken cfg.limits (s.unlockLedgers d) (s'.unlockLedgers d) := taken_handled h
  cases h with
  | served g ledgers L es hg htaken =>
    refine queued_taken (hs d) ?_ htaken'
    rfl
  | advanced hnone =>
    refine ⟨(hs d).sound, (hs d).positive, (hs d).covered, ?_⟩
    intro id r hr
    by_cases hd : d = c
    · subst d
      simp only [Function.update_self]
      exact ahead_advanced (hs c) hnone hr
    · simp only [Function.update_of_ne hd]
      exact (hs d).ahead id r hr
  | waited => exact hs d
  | failed err => exact ⟨(hs d).sound, (hs d).positive, (hs d).covered, (hs d).ahead⟩

def QueueSafe (s : State cfg) (a : Call cfg) : Prop :=
  FreshId s a ∧ PositiveAmount s a ∧ KeepsQueue s a

theorem queued_step {a : Call cfg} (hs : ∀ c, Queued s c) (ha : QueueSafe s a)
    (h : step s a = .ok s') : ∀ c, Queued s' c := by
  obtain ⟨hfresh, hamount, hqueue⟩ := ha
  by_cases hidle : ∃ order, a = .onIdle order
  · obtain ⟨order, rfl⟩ := hidle
    exact onIdle_invariant (I := fun t => ∀ c, Queued t c) (fun _ _ _ => queued_handled) hs h
  intro c
  have hsound := fun d => (hs d).sound
  have hsound' := sound_step hsound hfresh h c
  have hpos' := positive_step hsound (fun d => (hs d).positive) hamount h c
  have hcov := (hs c).covered
  have hmoved : s'.minTimeUnit c = s.minTimeUnit c ∨
      a = .setMinTimeUnit c (s'.minTimeUnit c) ∧ s'.unlockLedgers c = s.unlockLedgers c := by
    cases hmoves : a.movesCursor with
    | false => exact Or.inl (congrFun ((step_frame h).minTimeUnit hmoves) c)
    | true =>
      cases a with
      | onIdle order => exact absurd ⟨order, rfl⟩ hidle
      | setMinTimeUnit d t =>
        simp only [step, pure_eq_ok] at h
        subst s'
        by_cases hd : c = d
        · subst d
          simp only [Function.update_self, and_self, or_true]
        · simp only [Function.update_of_ne hd, true_or]
      | _ => contradiction
  rcases hmoved with hmin | ⟨rfl, hsame⟩
  · cases step_ledgers hsound h c with
    | taken _ htaken => exact queued_taken (hs c) hmin htaken
    | redeemed redeemer oc v amount redeemType t hc ht hadd =>
      obtain ⟨hstored, htotal⟩ := stored_add (hfresh c hc) hadd
      obtain ⟨redeemType', -, -, -, hledgers⟩ := update_add_ok hadd
      refine ⟨hsound', hpos', by omega, ?_⟩
      intro id r hr
      rw [hledgers, Table.get_write] at hr
      rw [hmin]
      split at hr
      · cases hr
        exact hqueue c t hc ht
      · exact (hs c).ahead id r hr
    | totalSet n heq =>
      refine ⟨hsound', hpos', ?_, ?_⟩
      · rw [heq]
        exact hqueue
      · intro id r hr
        rw [heq] at hr
        rw [hmin]
        exact (hs c).ahead id r hr
  · refine ⟨hsound', hpos', by rw [hsame]; exact hcov, ?_⟩
    intro id r hr
    rw [hsame] at hr
    exact hqueue id r hr

theorem queued_genesis (ledger : cfg.currency.Ledger) (c : CurrencyId) :
    Queued (genesis cfg ledger) c := by
  refine ⟨sound_genesis ledger c, positive_genesis ledger c, Nat.zero_le _, ?_⟩
  intro id r hr
  exact absurd ((Table.get_empty id).symm.trans hr) (by simp)

/-! Serving the unit at the cursor. -/

/-- The transfers and sends for the records under the ids go through, one after another. -/
def SendsAccepted (c : CurrencyId) : List ℕ → State cfg → Prop
  | [], _ => True
  | id :: ids, s =>
    match (s.unlockLedgers c).token.get id with
    | none => SendsAccepted c ids s
    | some r => s.entranceBalance c = 0 ∨
      (∃ sent, transferToByRedeemType s r.redeemer c r.amount (s.entranceBalance c) r.redeemType =
        .ok sent) ∧
      ∀ s', processRedeem s c r.redeemer id r.amount (s.entranceBalance c) r.timeUnit
        r.redeemType = .ok s' → SendsAccepted c ids s'

theorem update_sub_succeeds {limits : Limits} {L : UnlockLedgers AccountId} (hL : Sound L)
    (hcov : L.stored ≤ L.unlockingTotal) {id n : ℕ}
    (hr : L.token.get id = some r) (hpos : 0 < r.amount) (hn : n ≤ r.amount) :
    ∃ b L', L.update limits r.redeemer n id r.timeUnit none .sub = .ok (b, L') := by
  obtain ⟨g, hg, -⟩ := hL.user.listed id r hr hpos
  obtain ⟨g', hg', -⟩ := hL.timeUnit.listed id r hr hpos
  have hstored : r.amount ≤ L.stored :=
    Table.le_sum (fun (_ : ℕ) (r₀ : UnlockRecord AccountId) => r₀.amount) hr
  refine ⟨decide (r.amount ≤ n), ⟨L.token.write id
      (if r.amount ≤ n then none else some { r with amount := r.amount - n }),
    L.user.write r.redeemer (g.reduce id n (decide (r.amount ≤ n))),
    L.timeUnit.write r.timeUnit (g'.reduce id n (decide (r.amount ≤ n))),
    L.unlockingTotal - n⟩, ?_⟩
  have htotal : U128.checkedSub L.unlockingTotal n = some (L.unlockingTotal - n) :=
    U128.checkedSub_eq_some.mpr ⟨by omega, rfl⟩
  by_cases hall : r.amount ≤ n
  · simp [UnlockLedgers.update, updateTokenUnlockLedger, updateUserUnlockLedger,
      updateTimeUnitUnlockLedger, updateGroup, updateTotal, hr, hg, hg', htotal, hall, okOr]
  · simp [UnlockLedgers.update, updateTokenUnlockLedger, updateUserUnlockLedger,
      updateTimeUnitUnlockLedger, updateGroup, updateTotal, hr, hg, hg', htotal, hall, okOr]

theorem processRedeem_succeeds (hs : Queued s c) {id balance : ℕ}
    (hr : (s.unlockLedgers c).token.get id = some r)
    (hsent : ∃ sent, transferToByRedeemType s r.redeemer c r.amount balance r.redeemType =
      .ok sent) :
    ∃ s', processRedeem s c r.redeemer id r.amount balance r.timeUnit r.redeemType = .ok s' := by
  obtain ⟨⟨n, redeemTo, s₁⟩, hsent⟩ := hsent
  obtain ⟨hle, -, L, rfl, -⟩ := transferToByRedeemType_ok hsent
  unfold processRedeem
  by_cases hn : n = 0
  · refine ⟨{ s with ledger := L }, ?_⟩
    rw [bind_eq_ok]
    exact ⟨_, hsent, by simp [hn]⟩
  · obtain ⟨b, L', hL'⟩ : ∃ b L', (s.unlockLedgers c).update cfg.limits r.redeemer n id r.timeUnit
        none .sub = .ok (b, L') :=
      update_sub_succeeds hs.sound hs.covered hr (hs.positive id r hr) hle
    refine ⟨s.served c L' (cfg.onRedeemSuccess L c r.redeemer n)
      [.redeemSuccess r.redeemer id c redeemTo n], ?_⟩
    rw [bind_eq_ok]
    refine ⟨_, hsent, ?_⟩
    simp [hn, State.updateUnlockLedger, hL', mapErr, State.served, State.depositEvent]

theorem queued_processRedeem (hs : Queued s c) {id balance : ℕ}
    (hr : (s.unlockLedgers c).token.get id = some r)
    (h : processRedeem s c r.redeemer id r.amount balance r.timeUnit r.redeemType = .ok s') :
    Queued s' c := by
  obtain ⟨n, L, hle, -, -, hcase⟩ := processRedeem_ok h
  rcases hcase with ⟨-, rfl⟩ | ⟨-, b, ledgers, redeemTo, hledgers, rfl⟩
  · refine queued_taken hs ?_ ?_
    · rfl
    · simp only [State.served, Function.update_self]
      exact Relation.ReflTransGen.refl
  · refine queued_taken hs ?_ ?_
    · rfl
    · simp only [State.served, Function.update_self]
      exact Relation.ReflTransGen.single ⟨id, r, n, b, hr, hle, hledgers⟩

theorem processRecords_succeeds {ids : List ℕ} (hs : Queued s c)
    (hsends : SendsAccepted c ids s) : ∃ s', processRecords c ids s = .ok s' := by
  induction ids generalizing s with
  | nil => exact ⟨s, rfl⟩
  | cons id ids ih =>
    unfold SendsAccepted at hsends
    unfold processRecords
    cases hr : (s.unlockLedgers c).token.get id with
    | none =>
      rw [hr] at hsends
      exact ih hs hsends
    | some r =>
      rw [hr] at hsends
      simp only at hsends ⊢
      by_cases hdry : s.entranceBalance c = 0
      · exact ⟨s, by simp [hdry]⟩
      · obtain ⟨hsent, hrest⟩ := hsends.resolve_left hdry
        obtain ⟨s₁, h₁⟩ := processRedeem_succeeds hs hr hsent
        obtain ⟨s', h'⟩ := ih (queued_processRedeem hs hr h₁) (hrest s₁ h₁)
        refine ⟨s', ?_⟩
        rw [if_neg hdry, bind_eq_ok]
        exact ⟨s₁, h₁, h'⟩

theorem processRecords_removes {id : ℕ} {ids : List ℕ}
    (hr : (s.unlockLedgers c).token.get id = some r)
    (hpos : 0 < r.amount) (hbalance : r.amount ≤ s.entranceBalance c)
    (h : processRecords c (id :: ids) s = .ok s') : (s'.unlockLedgers c).token.get id = none := by
  unfold processRecords at h
  rw [hr] at h
  simp only at h
  rw [if_neg (by omega), bind_eq_ok] at h
  obtain ⟨s₁, h₁, h⟩ := h
  obtain ⟨n, L, -, hwhole, -, hcase⟩ := processRedeem_ok h₁
  have hn := hwhole hbalance
  subst n
  rcases hcase with ⟨h0, -⟩ | ⟨-, b, ledgers, redeemTo, hledgers, rfl⟩
  · omega
  · obtain ⟨r₀, g, g', hr₀, -, -, -, -, hledgers⟩ := update_sub_ok hledgers
    rw [hr] at hr₀
    cases hr₀
    have hgone : ledgers.token.get id = none := by
      rw [hledgers, Table.get_write_self, if_pos (Nat.le_refl _)]
    obtain ⟨ledgers', L', es, rfl, htaken⟩ := processRecords_ok h
    simp only [State.served, Function.update_self] at htaken ⊢
    cases hleft : ledgers'.token.get id with
    | none => rfl
    | some r' =>
      obtain ⟨r₁, hr₁, -⟩ := shrinks_taken htaken id r' hleft
      rw [hgone] at hr₁
      contradiction

/-- In every run of safe calls no record is behind the cursor, and one round for the unit at
the cursor removes a record of it, given a positive limit, the balance and the sends. -/
theorem queue_never_blocked (ledger : cfg.currency.Ledger) (as : List (Call cfg))
    (has : Meets step QueueSafe (genesis cfg ledger) as) (c : CurrencyId) :
    let s := run step (genesis cfg ledger) as
    Ahead s c ∧
      ∀ g, (s.unlockLedgers c).timeUnit.get (s.minTimeUnit c) = some g → g.ids ≠ [] →
        0 < s.hookIterationLimit →
        (∀ id ∈ g.ids, amountAt UnlockRecord.amount (s.unlockLedgers c).token id ≤
          s.entranceBalance c) →
        SendsAccepted c (g.ids.take s.hookIterationLimit) s →
          ∃ s', handleLedgerByCurrency s c = .ok s' ∧ ∃ id ∈ g.ids, ∃ r,
            (s.unlockLedgers c).token.get id = some r ∧
              (s'.unlockLedgers c).token.get id = none := by
  intro s
  have hs : ∀ c, Queued s c := run_invariant (I := fun s : State cfg => ∀ c, Queued s c)
    (fun _ _ _ hs ha h => queued_step hs ha h) as (queued_genesis ledger) has
  refine ⟨(hs c).ahead, ?_⟩
  intro g hg hids hlimit hbalance hsends
  obtain ⟨s', h⟩ := processRecords_succeeds (hs c) hsends
  refine ⟨s', by simp only [handleLedgerByCurrency, hg]; exact h, ?_⟩
  cases hlist : g.ids with
  | nil => exact absurd hlist hids
  | cons id ids =>
    have hmem : id ∈ g.ids := by rw [hlist]; exact List.mem_cons_self
    obtain ⟨r, hr, -⟩ := (hs c).sound.timeUnit.live _ _ hg id hmem
    obtain ⟨limit, hlimit⟩ := Nat.exists_eq_succ_of_ne_zero (Nat.pos_iff_ne_zero.mp hlimit)
    rw [hlist, hlimit, List.take_succ_cons] at h
    have hle := hbalance id hmem
    rw [amountAt_of_get hr] at hle
    exact ⟨id, List.mem_cons_self, r, hr,
      processRecords_removes hr ((hs c).positive id r hr) hle h⟩

namespace Sample

/-- As `setup`, with the cursor at the unit of the record. -/
def dueRecord : List (Call config) :=
  [.setVtokenMultimap vEth [⟨hpEth, true⟩], .setOngoingTimeUnit hpEth (.era 1),
    .setUnlockDuration hpEth (.era 2), .mint 1 hpEth 1000 none,
    .redeem 1 (some hpEth) vEth 400 .native, .setMinTimeUnit hpEth (.era 3),
    .setHookIterationLimit 1]

theorem dueRecord_safe : Meets step QueueSafe (genesis config balances) dueRecord := by
  refine ⟨fun _ _ => ⟨trivial, trivial, trivial⟩, fun _ _ => ⟨trivial, trivial, trivial⟩,
    fun _ _ => ⟨trivial, trivial, trivial⟩, fun _ _ => ⟨trivial, trivial, trivial⟩,
    fun _ _ => ⟨?_, ?_, ?_⟩, fun _ _ => ⟨trivial, trivial, ?_⟩,
    fun _ _ => ⟨trivial, trivial, trivial⟩, trivial⟩
  · intro c hc
    cases redeemCurrency_some hc
    decide
  · intro c hc
    cases redeemCurrency_some hc
    decide
  · intro c t hc ht
    cases redeemCurrency_some hc
    have hlock : lockToTimeUnit (run step (genesis config balances) (dueRecord.take 4)) hpEth =
      .ok (.era 3) := rfl
    cases hlock.symm.trans ht
    decide
  · intro id r hr
    have hentries : ((run step (genesis config balances) (dueRecord.take 5)).unlockLedgers
      hpEth).token.entries = [(0, ⟨1, 400, .era 3, .native⟩)] := by decide
    have hmem : (id, r) ∈ ((run step (genesis config balances) (dueRecord.take 5)).unlockLedgers
      hpEth).token.entries := Table.mem_entries.mpr hr
    rw [hentries] at hmem
    cases List.mem_singleton.mp hmem
    decide

end Sample

theorem queue_never_blocked_sample :
    Ahead (run step (genesis Sample.config Sample.balances) Sample.dueRecord) hpEth ∧
      ∃ s', handleLedgerByCurrency (run step (genesis Sample.config Sample.balances)
        Sample.dueRecord) hpEth = .ok s' ∧ ∃ id ∈ [0], ∃ r,
        ((run step (genesis Sample.config Sample.balances) Sample.dueRecord).unlockLedgers
          hpEth).token.get id = some r ∧ (s'.unlockLedgers hpEth).token.get id = none := by
  have h := @queue_never_blocked _ _ Sample.config Sample.balances _ Sample.dueRecord_safe hpEth
  have hunit : ((run step (genesis Sample.config Sample.balances) Sample.dueRecord).unlockLedgers
    hpEth).timeUnit.get ((run step (genesis Sample.config Sample.balances)
      Sample.dueRecord).minTimeUnit hpEth) = some ⟨400, [0]⟩ := by decide
  have hlimit : (run step (genesis Sample.config Sample.balances)
    Sample.dueRecord).hookIterationLimit = 1 := by decide
  have hget : ((run step (genesis Sample.config Sample.balances) Sample.dueRecord).unlockLedgers
    hpEth).token.get 0 = some ⟨1, 400, .era 3, .native⟩ := by decide
  have hbalance : (run step (genesis Sample.config Sample.balances)
    Sample.dueRecord).entranceBalance hpEth = 1000 := by decide
  have hsent : (transferToByRedeemType (run step (genesis Sample.config Sample.balances)
    Sample.dueRecord) 1 hpEth 400 1000 .native).toBool = true := by decide
  generalize run step (genesis Sample.config Sample.balances) Sample.dueRecord = s at *
  refine ⟨h.1, h.2 _ hunit (by simp) (by omega) ?_ ?_⟩
  · intro id hid
    cases List.mem_singleton.mp hid
    rw [amountAt_of_get hget, hbalance]
    decide
  · rw [hlimit, List.take_succ_cons, List.take_nil]
    unfold SendsAccepted
    rw [hget, hbalance]
    exact Or.inr ⟨exists_of_toBool hsent, fun _ _ => trivial⟩

/-- An empty redemption at the head of a unit is never removed and takes up the limit; and a
redemption after the duration was shortened falls behind the cursor. -/
theorem queue_blocked :
    (let s := run step (genesis Sample.config Sample.balances)
      [.setVtokenMultimap vEth [⟨hpEth, true⟩], .setOngoingTimeUnit hpEth (.era 1),
        .setUnlockDuration hpEth (.era 2), .mint 1 hpEth 1000 none,
        .redeem 2 (some hpEth) vEth 0 .native, .redeem 1 (some hpEth) vEth 400 .native,
        .onIdle [hpEth], .onIdle [hpEth], .onIdle [hpEth], .setHookIterationLimit 1]
    let s' := exec step s (.onIdle [hpEth])
    (s.unlockLedgers hpEth).timeUnit.get (s.minTimeUnit hpEth) = some ⟨400, [0, 1]⟩ ∧
      s.entranceBalance hpEth = 1000 ∧ (handleLedgerByCurrency s hpEth).toBool = true ∧
      (s'.unlockLedgers hpEth).token.entries = (s.unlockLedgers hpEth).token.entries) ∧
    (let s := run step (genesis Sample.config Sample.balances)
      [.setVtokenMultimap vEth [⟨hpEth, true⟩], .setOngoingTimeUnit hpEth (.era 1),
        .setUnlockDuration hpEth (.era 2), .mint 1 hpEth 1000 none, .onIdle [hpEth],
        .onIdle [hpEth], .onIdle [hpEth], .setUnlockDuration hpEth (.era 1),
        .redeem 1 (some hpEth) vEth 400 .native]
    s.minTimeUnit hpEth = .era 3 ∧
      (s.unlockLedgers hpEth).token.get 0 = some ⟨1, 400, .era 2, .native⟩) := by
  decide

end Bifrost.VtokenMinting
