import Bifrost.VtokenMinting.Agreement

/-!
# What a rebond consumes

The loop of `rebond` walks the unlock ids of the user, last first, and stops at the first
record that is left with something. It does not lower the running amount when a record
matches it exactly, so there it goes on to the next record. `rebondTaken` is the amount the
loop takes off; it is the amount asked for unless the last few records, but not all, add up
to it.
-/

namespace Bifrost.VtokenMinting

open Result Machine GroupIndex
set_option autoImplicit false

/-- What the loop of `rebond` takes off records of the given amounts. -/
def rebondTaken : ℕ → List ℕ → ℕ
  | _, [] => 0
  | temp, a :: as =>
    if temp < a then temp else a + rebondTaken (if temp ≤ a then temp else temp - a) as

theorem rebondTaken_zero (as : List ℕ) : rebondTaken 0 as = 0 := by
  induction as with
  | nil => rfl
  | cons a as ih =>
    unfold rebondTaken
    split
    · rfl
    · simp only [Nat.zero_le, if_true, ih]
      omega

theorem rebondTaken_eq_zero_iff {temp : ℕ} (htemp : 0 < temp) (as : List ℕ) :
    rebondTaken temp as = 0 ↔ as.sum = 0 := by
  induction as generalizing temp with
  | nil => simp [rebondTaken]
  | cons a as ih =>
    unfold rebondTaken
    rw [List.sum_cons]
    split
    · omega
    · rename_i hle
      have hnext : 0 < a ∨ 0 < if temp ≤ a then temp else temp - a := by
        split <;> omega
      rcases hnext with ha | hnext
      · omega
      · have h := ih hnext
        omega

theorem rebondTaken_eq_iff {temp : ℕ} {as : List ℕ} (hle : temp ≤ as.sum) :
    rebondTaken temp as = temp ↔ temp = 0 ∨ temp = as.sum ∨ ∀ k, (as.take k).sum ≠ temp := by
  induction as generalizing temp with
  | nil =>
    have h0 : temp = 0 := Nat.le_zero.mp hle
    simp [rebondTaken, h0]
  | cons a as ih =>
    rw [List.sum_cons] at hle ⊢
    rcases Nat.eq_zero_or_pos temp with h0 | hpos
    · subst temp
      simp [rebondTaken_zero]
    · unfold rebondTaken
      rcases Nat.lt_trichotomy temp a with hlt | heq | hgt
      · rw [if_pos hlt]
        simp only [true_iff]
        refine Or.inr (Or.inr fun k => ?_)
        cases k with
        | zero => simp only [List.take_zero, List.sum_nil]; omega
        | succ k => simp only [List.take_succ_cons, List.sum_cons]; omega
      · subst a
        have hrest := rebondTaken_eq_zero_iff hpos as
        rw [if_neg (Nat.lt_irrefl temp), if_pos (Nat.le_refl temp)]
        constructor
        · intro h
          exact Or.inr (Or.inl (by omega))
        · intro h
          rcases h with h | h | h
          · omega
          · omega
          · exact absurd (by simp) (h 1)
      · have hrest : temp - a ≤ as.sum := by omega
        have h := ih hrest
        rw [if_neg (by omega), if_neg (by omega)]
        constructor
        · intro heq
          rcases h.mp (by omega) with h | h | h
          · omega
          · exact Or.inr (Or.inl (by omega))
          · refine Or.inr (Or.inr fun k => ?_)
            cases k with
            | zero => simp only [List.take_zero, List.sum_nil]; omega
            | succ k =>
              have hk := h k
              simp only [List.take_succ_cons, List.sum_cons]
              omega
        · intro hcase
          have heq : rebondTaken (temp - a) as = temp - a := by
            apply h.mpr
            rcases hcase with h0 | hsum | htake
            · omega
            · exact Or.inr (Or.inl (by omega))
            · refine Or.inr (Or.inr fun k hk => ?_)
              apply htake (k + 1)
              simp only [List.take_succ_cons, List.sum_cons]
              omega
          omega

variable {AccountId : Type} [DecidableEq AccountId]

section Ledgers

variable {limits : Limits} {L L' : UnlockLedgers AccountId} {who : AccountId}

def UnlockLedgers.ownedBy (L : UnlockLedgers AccountId) (who : AccountId) : ℕ :=
  L.token.sum fun _ r => if r.redeemer = who then r.amount else 0

def UnlockLedgers.userTotal (L : UnlockLedgers AccountId) (who : AccountId) : ℕ :=
  (L.user.get who).elim 0 Group.total

def UnlockLedgers.userIds (L : UnlockLedgers AccountId) (who : AccountId) : List ℕ :=
  (L.user.get who).elim [] Group.ids

theorem Sound.mem_userIds (hL : Sound L) {id : ℕ} (hid : id ∈ L.userIds who) :
    ∃ r, L.token.get id = some r ∧ r.redeemer = who := by
  unfold UnlockLedgers.userIds at hid
  cases hg : L.user.get who with
  | none => simp [hg] at hid
  | some g =>
    rw [hg] at hid
    exact hL.user.live who g hg id hid

omit [DecidableEq AccountId] in
/-- The amounts of the records that are in `L` and not in `L'`. -/
def removed (L L' : UnlockLedgers AccountId) : ℕ :=
  L.token.sum fun id r => if (L'.token.get id).isNone then r.amount else 0

/-- The record is there before and after, and has changed. -/
def Partly (L L' : UnlockLedgers AccountId) (id : ℕ) : Prop :=
  ∃ r r', L.token.get id = some r ∧ L'.token.get id = some r' ∧ r' ≠ r

/-- Between `L` and `L'` the records under `ids` gave up `n`, all but one of them whole. -/
structure Consumes (L L' : UnlockLedgers AccountId) (who : AccountId) (ids : List ℕ) (n : ℕ) :
    Prop where
  owned : L'.ownedBy who + n = L.ownedBy who
  userTotal : L'.userTotal who + n = L.userTotal who
  unlockingTotal : L'.unlockingTotal + n = L.unlockingTotal
  kept : ∀ id, id ∉ ids → L'.token.get id = L.token.get id
  touched : ∀ id r', L'.token.get id = some r' → ∃ r, L.token.get id = some r ∧
    (r' = r ∨ r' = { r with amount := r'.amount } ∧ r'.amount < r.amount ∧
      removed L L' + (r.amount - r'.amount) = n)
  once : ∀ id id', Partly L L' id → Partly L L' id' → id = id'

theorem sub_totals (hL : Sound L) {n id : ℕ} {r : UnlockRecord AccountId} {t : TimeUnit}
    {rt : Option (RedeemType AccountId)} {b : Bool} (hr : L.token.get id = some r)
    (hwho : r.redeemer = who) (hn : n ≤ r.amount)
    (h : L.update limits who n id t rt .sub = .ok (b, L')) :
    L'.ownedBy who + n = L.ownedBy who ∧ L'.userTotal who + n = L.userTotal who ∧
      L'.unlockingTotal + n = L.unlockingTotal := by
  obtain ⟨r₀, g, g', hr₀, hg, -, hle, -, rfl⟩ := update_sub_ok h
  rw [hr] at hr₀
  cases hr₀
  subst who
  have htotal := hn.trans (hL.user.amount_le hr hg)
  refine ⟨?_, ?_, Nat.sub_add_cancel hle⟩
  · have hw := Table.sum_write (fun (_ : ℕ) (r₀ : UnlockRecord AccountId) =>
      if r₀.redeemer = r.redeemer then r₀.amount else 0) L.token id
      (if r.amount ≤ n then none else some { r with amount := r.amount - n })
    simp only [UnlockLedgers.ownedBy]
    rw [hr, Table.weight_some, if_pos rfl] at hw
    split at hw
    · rename_i hall
      rw [if_pos hall]
      rw [Table.weight_none] at hw
      omega
    · rename_i hall
      rw [if_neg hall]
      simp only [Table.weight_some, if_true] at hw
      omega
  · simp only [UnlockLedgers.userTotal, Table.get_write_self, hg, Option.elim_some]
    unfold Group.reduce
    split
    · simp only [Option.elim_none]
      omega
    · simp only [Option.elim_some]
      omega

theorem consumes_part (hL : Sound L) {n id : ℕ} {r : UnlockRecord AccountId} {b : Bool}
    {ids : List ℕ} (hr : L.token.get id = some r) (hwho : r.redeemer = who) (hn : n < r.amount)
    (h : L.update limits who n id r.timeUnit none .sub = .ok (b, L')) :
    Consumes L L' who (id :: ids) n := by
  obtain ⟨howned, huser, htotal⟩ := sub_totals hL hr hwho (Nat.le_of_lt hn) h
  obtain ⟨r₀, g, g', hr₀, -, -, -, -, hL'⟩ := update_sub_ok h
  rw [hr] at hr₀
  cases hr₀
  rw [if_neg (Nat.not_le.mpr hn)] at hL'
  have hself : L'.token.get id = some { r with amount := r.amount - n } := by
    rw [hL']
    exact Table.get_write_self _ _ _
  have hother : ∀ j, j ≠ id → L'.token.get j = L.token.get j := by
    intro j hj
    rw [hL']
    exact Table.get_write_ne _ _ hj
  have hnone : removed L L' = 0 := by
    apply Eq.trans _ (Table.sum_zero L.token)
    apply Table.sum_congr
    rintro ⟨j, r'⟩ he
    by_cases hj : j = id
    · subst j
      simp [hself]
    · simp [hother j hj, Table.mem_entries.mp he]
  refine ⟨howned, huser, htotal, ?_, ?_, ?_⟩
  · intro j hj
    exact hother j fun heq => hj (heq ▸ List.mem_cons_self)
  · intro j r' hj
    by_cases hjid : j = id
    · subst j
      rw [hself] at hj
      cases hj
      refine ⟨r, hr, ?_⟩
      rcases Nat.eq_zero_or_pos n with h0 | hpos
      · subst n
        exact Or.inl rfl
      · refine Or.inr ⟨rfl, by simp only; omega, ?_⟩
        rw [hnone]
        simp only
        omega
    · rw [hother j hjid] at hj
      exact ⟨r', hj, Or.inl rfl⟩
  · have hid : ∀ j, Partly L L' j → j = id := by
      rintro j ⟨r₁, r₂, h₁, h₂, hne⟩
      by_contra hjid
      rw [hother j hjid, h₁] at h₂
      exact hne (Option.some_inj.mp h₂).symm
    intro j k hj hk
    rw [hid j hj, hid k hk]

theorem consumes_whole {L₁ : UnlockLedgers AccountId} (hL : Sound L) {id m : ℕ}
    {r : UnlockRecord AccountId} {b : Bool} {ids : List ℕ} (hr : L.token.get id = some r)
    (hwho : r.redeemer = who) (hid : id ∉ ids)
    (h : L.update limits who r.amount id r.timeUnit none .sub = .ok (b, L₁))
    (hrest : Consumes L₁ L' who ids m) : Consumes L L' who (id :: ids) (r.amount + m) := by
  obtain ⟨howned, huser, htotal⟩ := sub_totals hL hr hwho (Nat.le_refl _) h
  obtain ⟨r₀, g, g', hr₀, -, -, -, -, hL₁⟩ := update_sub_ok h
  rw [hr] at hr₀
  cases hr₀
  rw [if_pos (Nat.le_refl _)] at hL₁
  have hself : L₁.token.get id = none := by
    rw [hL₁]
    exact Table.get_write_self _ _ _
  have hother : ∀ j, j ≠ id → L₁.token.get j = L.token.get j := by
    intro j hj
    rw [hL₁]
    exact Table.get_write_ne _ _ hj
  have hold : ∀ j r', L₁.token.get j = some r' → j ≠ id ∧ L.token.get j = some r' := by
    intro j r' hj
    have hne : j ≠ id := by
      rintro rfl
      rw [hself] at hj
      contradiction
    exact ⟨hne, (hother j hne).symm.trans hj⟩
  have hremoved : removed L L' = removed L₁ L' + r.amount := by
    have hw := Table.sum_write (fun (j : ℕ) (r' : UnlockRecord AccountId) =>
      if (L'.token.get j).isNone then r'.amount else 0) L.token id none
    have hgone : L'.token.get id = none := (hrest.kept id hid).trans hself
    rw [hr, Table.weight_some, hgone] at hw
    simp only [Option.isNone_none, if_true, Table.weight_none, Nat.add_zero] at hw
    simp only [removed, hL₁]
    exact hw.symm
  have h₁ := hrest.owned
  have h₂ := hrest.userTotal
  have h₃ := hrest.unlockingTotal
  refine ⟨by omega, by omega, by omega, ?_, ?_, ?_⟩
  · intro j hj
    rw [List.mem_cons, not_or] at hj
    rw [hrest.kept j hj.2, hother j hj.1]
  · intro j r' hj
    obtain ⟨r₁, hr₁, hcase⟩ := hrest.touched j r' hj
    refine ⟨r₁, (hold j r₁ hr₁).2, ?_⟩
    rcases hcase with heq | ⟨heq, hlt, hrem⟩
    · exact Or.inl heq
    · exact Or.inr ⟨heq, hlt, by omega⟩
  · have hpartly : ∀ j, Partly L L' j → Partly L₁ L' j := by
      rintro j ⟨r₁, r₂, hr₁, hr₂, hne⟩
      obtain ⟨r₃, hr₃, -⟩ := hrest.touched j r₂ hr₂
      have h := (hold j r₃ hr₃).2
      rw [hr₁] at h
      cases h
      exact ⟨r₁, r₂, hr₃, hr₂, hne⟩
    intro j k hj hk
    exact hrest.once j k (hpartly j hj) (hpartly k hk)

theorem rebondLedgers_consumes (hL : Sound L) {ids : List ℕ} {temp : ℕ} (hnodup : ids.Nodup)
    (hown : ∀ id ∈ ids, ∃ r, L.token.get id = some r ∧ r.redeemer = who)
    (h : rebondLedgers limits who ids temp L = .ok L') :
    Consumes L L' who ids
      (rebondTaken temp (ids.map (amountAt UnlockRecord.amount L.token))) := by
  induction ids generalizing temp L with
  | nil =>
    simp only [rebondLedgers, pure_eq_ok] at h
    subst L'
    refine ⟨rfl, rfl, rfl, fun _ _ => rfl, fun _ r hr => ⟨r, hr, Or.inl rfl⟩, ?_⟩
    rintro id id' ⟨r, r', hr, hr', hne⟩ -
    rw [hr] at hr'
    exact absurd (Option.some_inj.mp hr').symm hne
  | cons id ids ih =>
    rw [List.nodup_cons] at hnodup
    obtain ⟨r, hr, hwho⟩ := hown id List.mem_cons_self
    simp only [rebondLedgers, bind_eq_ok, okOr_eq_ok] at h
    obtain ⟨r₀, hr₀, ⟨b, L₁⟩, h₁, h⟩ := h
    rw [hr] at hr₀
    cases hr₀
    obtain ⟨r₀, g, g', hr₀, -, -, -, hb, hL₁⟩ := update_sub_ok h₁
    rw [hr] at hr₀
    cases hr₀
    rw [List.map_cons, amountAt_of_get hr, rebondTaken]
    rcases Nat.lt_or_ge temp r.amount with hlt | hge
    · rw [if_pos (Nat.le_of_lt hlt)] at h₁ hb
      rw [hb, decide_eq_false (Nat.not_le.mpr hlt)] at h
      simp only [Bool.false_eq_true, if_false, pure_eq_ok] at h
      subst L'
      rw [if_pos hlt]
      exact consumes_part hL hr hwho hlt h₁
    · have hall : (if temp ≤ r.amount then temp else r.amount) = r.amount := by
        split <;> omega
      rw [hall] at h₁ hb hL₁
      rw [if_pos (Nat.le_refl _)] at hL₁
      rw [hb, decide_eq_true (Nat.le_refl _)] at h
      simp only [if_true] at h
      rw [if_neg (Nat.not_lt.mpr hge)]
      have hget : ∀ j ∈ ids, L₁.token.get j = L.token.get j := by
        intro j hj
        rw [hL₁]
        exact Table.get_write_ne _ _ fun heq => hnodup.1 (heq ▸ hj)
      have hsound : Sound L₁ := by
        have htakes : Takes limits L L₁ :=
          ⟨id, r, r.amount, b, hr, Nat.le_refl _, by rw [hwho]; exact h₁⟩
        exact sound_takes hL htakes
      have hrest := ih hsound hnodup.2
        (fun j hj => by rw [hget j hj]; exact hown j (List.mem_cons_of_mem id hj)) h
      have hamounts : ids.map (amountAt UnlockRecord.amount L₁.token) =
          ids.map (amountAt UnlockRecord.amount L.token) := by
        apply List.map_congr_left
        intro j hj
        simp only [amountAt, hget j hj]
      rw [hamounts] at hrest
      exact consumes_whole hL hr hwho hnodup.1 h₁ hrest

end Ledgers

section Rebond

variable {cfg : Config AccountId}

/-- A rebond of `amount` consumes exactly that. -/
structure ConsumesExactly (s s' : State cfg) (who : AccountId) (c : CurrencyId) (amount : ℕ) :
    Prop where
  owned : (s'.unlockLedgers c).ownedBy who + amount = (s.unlockLedgers c).ownedBy who
  userTotal : (s'.unlockLedgers c).userTotal who + amount = (s.unlockLedgers c).userTotal who
  unlockingTotal :
    (s'.unlockLedgers c).unlockingTotal + amount = (s.unlockLedgers c).unlockingTotal
  touched : ∀ id r', (s'.unlockLedgers c).token.get id = some r' →
    ∃ r, (s.unlockLedgers c).token.get id = some r ∧
      (r' = r ∨ r' = { r with amount := r'.amount } ∧ r'.amount < r.amount ∧
        removed (s.unlockLedgers c) (s'.unlockLedgers c) + (r.amount - r'.amount) = amount)
  once : ∀ id id', Partly (s.unlockLedgers c) (s'.unlockLedgers c) id →
    Partly (s.unlockLedgers c) (s'.unlockLedgers c) id' → id = id'
  others : ∀ d id r, (s.unlockLedgers d).token.get id = some r → d ≠ c ∨ r.redeemer ≠ who →
    (s'.unlockLedgers d).token.get id = some r

/-- The amounts of the user's listed records, in the order `rebond` walks them. -/
def UnlockLedgers.walk (L : UnlockLedgers AccountId) (who : AccountId) : List ℕ :=
  (L.userIds who).reverse.map (amountAt UnlockRecord.amount L.token)

theorem rebond_consumes {s s' : State cfg} (hs : ∀ c, Sound (s.unlockLedgers c))
    {who : AccountId} {c : CurrencyId} {amount : ℕ} (h : rebond s who c amount = .ok s') :
    amount ≤ ((s.unlockLedgers c).walk who).sum ∧
      ((s.unlockLedgers c).walk who).sum = (s.unlockLedgers c).userTotal who ∧
      (∀ d, d ≠ c → s'.unlockLedgers d = s.unlockLedgers d) ∧
      Consumes (s.unlockLedgers c) (s'.unlockLedgers c) who ((s.unlockLedgers c).userIds who)
        (rebondTaken amount ((s.unlockLedgers c).walk who)) := by
  obtain ⟨g, ledgers, target, k, m, fee, rebonded, L, es, hg, hle, hledgers, -, -, -, -, rfl⟩ :=
    rebond_ok h
  have hids : (s.unlockLedgers c).userIds who = g.ids := by
    simp [UnlockLedgers.userIds, hg]
  have hsum : ((s.unlockLedgers c).walk who).sum = g.total := by
    rw [UnlockLedgers.walk, hids, (hs c).user.total who g hg, List.map_reverse,
      List.sum_reverse]
  have htotal : (s.unlockLedgers c).userTotal who = g.total := by
    simp [UnlockLedgers.userTotal, hg]
  have hcon := rebondLedgers_consumes (hs c) (List.nodup_reverse.mpr ((hs c).user.nodup who g hg))
    (fun id hid => (hs c).user.live who g hg id (List.mem_reverse.mp hid)) hledgers
  refine ⟨by omega, by omega, ?_, ?_⟩
  · intro d hd
    simp [State.rebonded, hd]
  · simp only [State.rebonded, Function.update_self, hids, UnlockLedgers.walk]
    refine ⟨hcon.owned, hcon.userTotal, hcon.unlockingTotal, ?_, hcon.touched, hcon.once⟩
    intro id hid
    exact hcon.kept id fun hmem => hid (List.mem_reverse.mp hmem)

/-- In every state a run with fresh ids reaches, a rebond consumes exactly the amount asked
for if and only if that is nothing, or all, or not the sum of the last few records. -/
theorem rebond_exact_iff (ledger : cfg.currency.Ledger) (as : List (Call cfg))
    (has : Meets step FreshId (genesis cfg ledger) as) (who : AccountId) (c : CurrencyId)
    (amount : ℕ) (s' : State cfg) (h : rebond (run step (genesis cfg ledger) as) who c amount =
      .ok s') :
    let s := run step (genesis cfg ledger) as
    ConsumesExactly s s' who c amount ↔
      amount = 0 ∨ amount = (s.unlockLedgers c).userTotal who ∨
        ∀ k, (((s.unlockLedgers c).walk who).take k).sum ≠ amount := by
  intro s
  have hs : ∀ c, Sound (s.unlockLedgers c) := sound_run ledger has
  obtain ⟨hle, hsum, hsame, hcon⟩ := rebond_consumes hs h
  rw [← hsum, ← rebondTaken_eq_iff hle]
  constructor
  · intro hexact
    have h₁ := hexact.unlockingTotal
    have h₂ := hcon.unlockingTotal
    omega
  · intro heq
    rw [heq] at hcon
    refine ⟨hcon.owned, hcon.userTotal, hcon.unlockingTotal, hcon.touched, hcon.once, ?_⟩
    intro d id r hr hd
    by_cases hdc : d = c
    · subst d
      have hwho : r.redeemer ≠ who := hd.resolve_left fun hne => hne rfl
      rw [hcon.kept id, hr]
      intro hmem
      obtain ⟨r₀, hr₀, hwho₀⟩ := (hs c).mem_userIds hmem
      rw [hr] at hr₀
      cases hr₀
      exact hwho hwho₀
    · rw [hsame d hdc, hr]

end Rebond

namespace Sample

/-- Account 1 has records of 100 and 400 and may rebond. -/
def twoRecords : List (Call config) :=
  [.setVtokenMultimap vEth [⟨hpEth, true⟩], .setOngoingTimeUnit hpEth (.era 1),
    .setUnlockDuration hpEth (.era 2), .addSupportRebondToken hpEth, .mint 1 hpEth 1000 none,
    .redeem 1 (some hpEth) vEth 100 .native, .redeem 1 (some hpEth) vEth 400 .native]

theorem twoRecords_fresh : Meets step FreshId (genesis config balances) twoRecords := by
  refine ⟨fun _ _ => trivial, fun _ _ => trivial, fun _ _ => trivial, fun _ _ => trivial,
    fun _ _ => trivial, fun _ _ => ?_, fun _ _ => ?_, trivial⟩
  · intro c hc
    cases redeemCurrency_some hc
    decide
  · intro c hc
    cases redeemCurrency_some hc
    decide

end Sample

theorem rebond_exact_sample :
    ∃ s', rebond (run step (genesis Sample.config Sample.balances) Sample.twoRecords) 1 hpEth 450 =
      .ok s' ∧ ConsumesExactly (run step (genesis Sample.config Sample.balances) Sample.twoRecords)
        s' 1 hpEth 450 := by
  have htake : ∀ k, (([400, 100] : List ℕ).take k).sum ≠ 450 := by
    intro k
    match k with
    | 0 | 1 => decide
    | k + 2 => simp
  have hwalk : ((run step (genesis Sample.config Sample.balances) Sample.twoRecords).unlockLedgers
      hpEth).walk 1 = [400, 100] := by decide
  have hok : (rebond (run step (genesis Sample.config Sample.balances) Sample.twoRecords) 1 hpEth
      450).toBool = true := by decide
  have hiff := rebond_exact_iff Sample.balances Sample.twoRecords Sample.twoRecords_fresh 1 hpEth 450
  generalize run step (genesis Sample.config Sample.balances) Sample.twoRecords = s at *
  obtain ⟨s', h⟩ := exists_of_toBool hok
  refine ⟨s', h, (hiff s' h).mpr ?_⟩
  rw [hwalk]
  exact Or.inr (Or.inr htake)

/-- A rebond of the amount of the last record takes the record before it too. -/
theorem rebond_consumes_more :
    let s := run step (genesis Sample.config Sample.balances) Sample.twoRecords
    let s' := exec step s (.rebond 1 hpEth 400)
    (rebond s 1 hpEth 400).toBool = true ∧ ¬ ConsumesExactly s s' 1 hpEth 400 ∧
      (s.unlockLedgers hpEth).userTotal 1 = 500 ∧ (s'.unlockLedgers hpEth).userTotal 1 = 0 ∧
      (s'.unlockLedgers hpEth).unlockingTotal = 0 ∧ s'.tokenToRebond hpEth = some 400 ∧
      s'.tokenPool vEth = 900 := by
  refine ⟨by decide, fun h => absurd h.userTotal (by decide), by decide⟩

end Bifrost.VtokenMinting
