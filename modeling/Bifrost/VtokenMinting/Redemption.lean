import Bifrost.VtokenMinting.Rebond

/-!
# What a redemption pays and what it removes

`process_redeem` takes off the ledgers what `transfer_to_by_redeem_type` says it sent. A local
redemption of the whole record below the existential deposit is not sent, and is returned as
if it were: the record goes and nobody is paid. The branch for a part of the record returns
zero there, and then nothing changes.
-/

namespace Bifrost.VtokenMinting

open Result Machine GroupIndex
set_option autoImplicit false

variable {AccountId : Type} [DecidableEq AccountId] {cfg : Config AccountId}

/-- A local redemption that the entrance account can pay, but that is too small to be sent. -/
def Skipped (cfg : Config AccountId) (c : CurrencyId) (amount balance : ℕ)
    (redeemType : RedeemType AccountId) : Prop :=
  Dust cfg c amount redeemType ∧ 0 < amount ∧ amount ≤ balance

/-- Exactly `x` was sent to the redeemer of the record; a local transfer shows in its balance. -/
structure Credited (cfg : Config AccountId) (c : CurrencyId) (r : UnlockRecord AccountId) (x : ℕ)
    (L L' : cfg.currency.Ledger) : Prop where
  sent : Sent cfg c r.redeemer x r.redeemType L L'
  balance : r.redeemType = .native →
    cfg.currency.freeBalance L' c r.redeemer = cfg.currency.freeBalance L c r.redeemer + x

def UnlockLedgers.unitTotal (L : UnlockLedgers AccountId) (t : TimeUnit) : ℕ :=
  (L.timeUnit.get t).elim 0 Group.total

/-- The record under `id` and all ledgers that count it are lower by `x`. -/
structure Reduced (L L' : UnlockLedgers AccountId) (id : ℕ) (r : UnlockRecord AccountId) (x : ℕ) :
    Prop where
  le_amount : x ≤ r.amount
  record : L'.token.get id = if x = r.amount then none else some { r with amount := r.amount - x }
  others : ∀ j, j ≠ id → L'.token.get j = L.token.get j
  userTotal : ∀ who, L'.userTotal who + (if who = r.redeemer then x else 0) = L.userTotal who
  unitTotal : ∀ t, L'.unitTotal t + (if t = r.timeUnit then x else 0) = L.unitTotal t
  unlockingTotal : L'.unlockingTotal + x = L.unlockingTotal

/-- From `s` to `s'` exactly `x` was sent and exactly `x` was taken off the ledgers. With
`x = 0` nothing was sent and no ledger changed. -/
def Pays (s s' : State cfg) (c : CurrencyId) (id : ℕ) (r : UnlockRecord AccountId)
    (balance x : ℕ) : Prop :=
  ∃ redeemTo s₁,
    transferToByRedeemType s r.redeemer c r.amount balance r.redeemType = .ok (x, redeemTo, s₁) ∧
      (x = 0 ∧ s'.unlockLedgers = s.unlockLedgers ∨
        0 < x ∧ Credited cfg c r x s.ledger s₁.ledger ∧
          Reduced (s.unlockLedgers c) (s'.unlockLedgers c) id r x ∧
          (∀ d, d ≠ c → s'.unlockLedgers d = s.unlockLedgers d) ∧
          s'.ledger = cfg.onRedeemSuccess s₁.ledger c r.redeemer x)

section Group

omit [DecidableEq AccountId] in
theorem total_reduce {g : Group ℕ} {id n : ℕ} {b : Bool} (hle : n ≤ g.total) :
    (g.reduce id n b).elim 0 Group.total + n = g.total := by
  unfold Group.reduce
  split
  · simp only [Option.elim_none]
    omega
  · simp only [Option.elim_some]
    omega

variable {L L' : UnlockLedgers AccountId} {limits : Limits}

theorem reduced_of_sub (hL : Sound L) {id n : ℕ} {r : UnlockRecord AccountId} {b : Bool}
    (hr : L.token.get id = some r) (hn : n ≤ r.amount)
    (h : L.update limits r.redeemer n id r.timeUnit none .sub = .ok (b, L')) :
    Reduced L L' id r n := by
  obtain ⟨r₀, g, g', hr₀, hg, hg', hle, -, rfl⟩ := update_sub_ok h
  rw [hr] at hr₀
  cases hr₀
  have huser := hn.trans (hL.user.amount_le hr hg)
  have hunit := hn.trans (hL.timeUnit.amount_le hr hg')
  refine ⟨hn, ?_, ?_, ?_, ?_, Nat.sub_add_cancel hle⟩
  · rw [Table.get_write_self]
    by_cases hall : n = r.amount
    · rw [if_pos (Nat.le_of_eq hall.symm), if_pos hall]
    · rw [if_neg (by omega), if_neg hall]
  · intro j hj
    exact Table.get_write_ne _ _ hj
  · intro who
    unfold UnlockLedgers.userTotal
    by_cases hwho : who = r.redeemer
    · subst who
      rw [if_pos rfl, Table.get_write_self, hg]
      exact total_reduce huser
    · rw [if_neg hwho, Table.get_write_ne _ _ hwho, Nat.add_zero]
  · intro t
    unfold UnlockLedgers.unitTotal
    by_cases ht : t = r.timeUnit
    · subst t
      rw [if_pos rfl, Table.get_write_self, hg']
      exact total_reduce hunit
    · rw [if_neg ht, Table.get_write_ne _ _ ht, Nat.add_zero]

end Group

section Redeem

variable {s s' s₁ : State cfg} {c : CurrencyId} {id balance n : ℕ} {r : UnlockRecord AccountId}
  {redeemTo : RedeemTo AccountId}

omit [DecidableEq AccountId] in
theorem transferToByRedeemType_sent (hne : r.redeemer ≠ cfg.entranceAccount)
    (hskip : ¬ Skipped cfg c r.amount balance r.redeemType)
    (h : transferToByRedeemType s r.redeemer c r.amount balance r.redeemType =
      .ok (n, redeemTo, s₁)) :
    n = 0 ∨ Credited cfg c r n s.ledger s₁.ledger := by
  have hcredit : ∀ L, Sent cfg c r.redeemer n r.redeemType s.ledger L →
      Credited cfg c r n s.ledger L := by
    intro L hsent
    refine ⟨hsent, fun hnative => ?_⟩
    rw [hnative] at hsent
    exact (cfg.currency.transfer_moves hsent hne.symm).2.2
  unfold transferToByRedeemType at h
  split at h
  · rename_i hbalance
    obtain ⟨rfl, L, rfl, hL⟩ := payWhole_ok h
    rcases hL with hsent | ⟨-, hdust⟩
    · exact Or.inr (hcredit L hsent)
    · by_contra hpos
      exact hskip ⟨hdust, by omega, hbalance⟩
  · obtain ⟨L, rfl, hL⟩ := payPart_ok h
    rcases hL with ⟨rfl, hsent⟩ | ⟨hzero, -⟩
    · exact Or.inr (hcredit L hsent)
    · exact Or.inl hzero

omit [DecidableEq AccountId] in
theorem transferToByRedeemType_skipped (hskip : Skipped cfg c r.amount balance r.redeemType) :
    transferToByRedeemType s r.redeemer c r.amount balance r.redeemType =
      .ok (r.amount, .native r.redeemer, s) := by
  obtain ⟨⟨hnative, hsmall⟩, -, hbalance⟩ := hskip
  rw [transferToByRedeemType, if_pos hbalance, hnative, payWhole, if_neg (Nat.not_le.mpr hsmall)]
  rfl

theorem sound_processRedeem (hs : ∀ d, Sound (s.unlockLedgers d))
    (hr : (s.unlockLedgers c).token.get id = some r)
    (h : processRedeem s c r.redeemer id r.amount balance r.timeUnit r.redeemType = .ok s')
    (d : CurrencyId) : Sound (s'.unlockLedgers d) := by
  obtain ⟨n, L, hle, -, -, hcase⟩ := processRedeem_ok h
  by_cases hd : d = c
  · subst d
    rcases hcase with ⟨-, rfl⟩ | ⟨-, b, ledgers, redeemTo, hledgers, rfl⟩
    · simpa only [State.served, Function.update_self] using hs c
    · simp only [State.served, Function.update_self]
      exact sound_takes (hs c) ⟨id, r, n, b, hr, hle, hledgers⟩
  · rcases hcase with ⟨-, rfl⟩ | ⟨-, b, ledgers, redeemTo, -, rfl⟩
    · simpa only [State.served, Function.update_of_ne hd] using hs d
    · simpa only [State.served, Function.update_of_ne hd] using hs d

theorem processRedeem_pays_iff (hs : Sound (s.unlockLedgers c))
    (hr : (s.unlockLedgers c).token.get id = some r) (hne : r.redeemer ≠ cfg.entranceAccount)
    (h : processRedeem s c r.redeemer id r.amount balance r.timeUnit r.redeemType = .ok s') :
    (∃ x, Pays s s' c id r balance x) ↔ ¬ Skipped cfg c r.amount balance r.redeemType := by
  constructor
  · rintro ⟨x, redeemTo, s₁, htransfer, hx⟩ hskip
    rw [transferToByRedeemType_skipped hskip] at htransfer
    cases htransfer
    obtain ⟨⟨hnative, -⟩, hpos, -⟩ := hskip
    rcases hx with ⟨hzero, -⟩ | ⟨-, hcredit, -⟩
    · omega
    · have hbalance := hcredit.balance hnative
      omega
  · intro hskip
    simp only [processRedeem, bind_eq_ok] at h
    obtain ⟨⟨n, redeemTo, s₁⟩, h₁, h⟩ := h
    obtain ⟨hle, -, L, rfl, -⟩ := transferToByRedeemType_ok h₁
    refine ⟨n, redeemTo, _, h₁, ?_⟩
    split at h
    · simp only [pure_eq_ok] at h
      subst s'
      exact Or.inl ⟨by assumption, rfl⟩
    · rename_i hpos
      simp only [bind_eq_ok, pure_eq_ok] at h
      obtain ⟨⟨b, s₂⟩, h₂, rfl⟩ := h
      obtain ⟨ledgers, hledgers, rfl⟩ := updateUnlockLedger_ok h₂
      have hcredit := (transferToByRedeemType_sent hne hskip h₁).resolve_left hpos
      refine Or.inr ⟨Nat.pos_of_ne_zero hpos, hcredit, ?_, ?_, rfl⟩
      · simp only [State.depositEvent, Function.update_self]
        exact reduced_of_sub hs hr hle hledgers
      · intro d hd
        simp only [State.depositEvent, Function.update_of_ne hd]

end Redeem

/-! Partial payments. -/

section Histories

variable {c : CurrencyId} {id : ℕ} {r : UnlockRecord AccountId}

/-- One step in the life of the record under `id`: a run of `process_redeem` for it, with any
entrance balance, that is not skipped; or a call that leaves the record as it is. -/
inductive Serves (c : CurrencyId) (id : ℕ) : State cfg → State cfg → Prop
  | redeem {s s' : State cfg} (r : UnlockRecord AccountId) (balance : ℕ)
      (hr : (s.unlockLedgers c).token.get id = some r)
      (hskip : ¬ Skipped cfg c r.amount balance r.redeemType)
      (h : processRedeem s c r.redeemer id r.amount balance r.timeUnit r.redeemType = .ok s') :
      Serves c id s s'
  | call {s s' : State cfg} (a : Call cfg) (ha : FreshId s a) (h : step s a = .ok s')
      (hkept : (s'.unlockLedgers c).token.get id = (s.unlockLedgers c).token.get id) :
      Serves c id s s'

/-- The same history with the payments for the record, in their order. -/
inductive PaidIn (c : CurrencyId) (id : ℕ) (s : State cfg) : List ℕ → State cfg → Prop
  | start : PaidIn c id s [] s
  | pay {s₁ s₂ : State cfg} {xs : List ℕ} (r : UnlockRecord AccountId) (balance x : ℕ)
      (hrest : PaidIn c id s xs s₁) (hr : (s₁.unlockLedgers c).token.get id = some r)
      (h : processRedeem s₁ c r.redeemer id r.amount balance r.timeUnit r.redeemType = .ok s₂)
      (hpays : Pays s₁ s₂ c id r balance x) : PaidIn c id s (xs ++ [x]) s₂
  | call {s₁ s₂ : State cfg} {xs : List ℕ} (a : Call cfg) (hrest : PaidIn c id s xs s₁)
      (h : step s₁ a = .ok s₂) : PaidIn c id s xs s₂

/-- What is left of the record after the payments: the rest of its amount, and nothing once
they add up to it. -/
def Left (r : UnlockRecord AccountId) (xs : List ℕ) (left : Option (UnlockRecord AccountId)) :
    Prop :=
  match left with
  | some r' => r' = { r with amount := r'.amount } ∧ r'.amount + xs.sum = r.amount
  | none => xs.sum = r.amount

omit [DecidableEq AccountId] in
theorem left_pay {r' : UnlockRecord AccountId} {xs : List ℕ} {x : ℕ} (h : Left r xs (some r'))
    (hx : x ≤ r'.amount) :
    Left r (xs ++ [x])
      (if x = r'.amount then none else some { r' with amount := r'.amount - x }) := by
  obtain ⟨heq, hsum⟩ := h
  split
  · simp only [Left, List.sum_append, List.sum_singleton]
    omega
  · refine ⟨?_, ?_⟩
    · simp only
      rw [heq]
    · simp only [List.sum_append, List.sum_singleton]
      omega

theorem serves_paidIn {s s' : State cfg} (hs : ∀ d, Sound (s.unlockLedgers d))
    (hr : (s.unlockLedgers c).token.get id = some r) (hne : r.redeemer ≠ cfg.entranceAccount)
    (h : Relation.ReflTransGen (Serves c id) s s') :
    (∀ d, Sound (s'.unlockLedgers d)) ∧
      ∃ xs, PaidIn c id s xs s' ∧ Left r xs ((s'.unlockLedgers c).token.get id) := by
  induction h with
  | refl =>
    refine ⟨hs, [], .start, ?_⟩
    rw [hr]
    exact ⟨rfl, rfl⟩
  | @tail s₁ s₂ _ hstep ih =>
    obtain ⟨hs₁, xs, hpaid, hleft⟩ := ih
    cases hstep with
    | redeem r₁ balance hr₁ hskip hproc =>
      rw [hr₁] at hleft
      have hne₁ : r₁.redeemer ≠ cfg.entranceAccount := by
        rw [hleft.1]
        exact hne
      obtain ⟨x, hpays⟩ := (processRedeem_pays_iff (hs₁ c) hr₁ hne₁ hproc).mpr hskip
      refine ⟨sound_processRedeem hs₁ hr₁ hproc, xs ++ [x], .pay r₁ balance x hpaid hr₁ hproc hpays,
        ?_⟩
      obtain ⟨_, _, -, hx⟩ := hpays
      rcases hx with ⟨rfl, hsame⟩ | ⟨-, -, hreduced, -⟩
      · rw [hsame, hr₁]
        refine ⟨hleft.1, ?_⟩
        rw [List.sum_append, List.sum_singleton, Nat.add_zero]
        exact hleft.2
      · rw [hreduced.record]
        exact left_pay hleft hreduced.le_amount
    | call a ha hcall hkept =>
      refine ⟨sound_step hs₁ ha hcall, xs, .call a hpaid hcall, ?_⟩
      rw [hkept]
      exact hleft

end Histories

/-- In every state a run with fresh ids reaches, and for every record of a redeemer other than
the entrance account: a run of `process_redeem` sends exactly what it takes off the ledgers if
and only if the transfer is not skipped, and in every history of the record without skipped
transfers it is removed only when the payments add up to its amount. -/
theorem redemption_pays_iff (ledger : cfg.currency.Ledger) (as : List (Call cfg))
    (has : Meets step FreshId (genesis cfg ledger) as) (c : CurrencyId) (id : ℕ)
    (r : UnlockRecord AccountId)
    (hr : ((run step (genesis cfg ledger) as).unlockLedgers c).token.get id = some r)
    (hne : r.redeemer ≠ cfg.entranceAccount) :
    let s := run step (genesis cfg ledger) as
    (∀ balance s', processRedeem s c r.redeemer id r.amount balance r.timeUnit r.redeemType =
        .ok s' →
      ((∃ x, Pays s s' c id r balance x) ↔ ¬ Skipped cfg c r.amount balance r.redeemType)) ∧
      ∀ s', Relation.ReflTransGen (Serves c id) s s' →
        ∃ xs, PaidIn c id s xs s' ∧ Left r xs ((s'.unlockLedgers c).token.get id) := by
  intro s
  have hs : ∀ d, Sound (s.unlockLedgers d) := sound_run ledger has
  constructor
  · intro balance s' h
    exact processRedeem_pays_iff (hs c) hr hne h
  · intro s' h
    exact (serves_paidIn hs hr hne h).2

namespace Sample

def redeemed (amount : ℕ) : List (Call config) :=
  [.setVtokenMultimap vEth [⟨hpEth, true⟩], .setOngoingTimeUnit hpEth (.era 1),
    .setUnlockDuration hpEth (.era 2), .mint 1 hpEth 1000 none,
    .redeem 1 (some hpEth) vEth amount .native]

theorem redeemed_fresh (amount : ℕ) :
    Meets step FreshId (genesis config balances) (redeemed amount) := by
  refine ⟨fun _ _ => trivial, fun _ _ => trivial, fun _ _ => trivial, fun _ _ => trivial,
    fun _ _ => ?_, trivial⟩
  intro c hc
  cases redeemCurrency_some hc
  decide

end Sample

theorem redemption_pays_sample :
    let s := run step (genesis Sample.config Sample.balances) (Sample.redeemed 400)
    ∃ s', processRedeem s hpEth 1 0 400 150 (.era 3) .native = .ok s' ∧
      (∃ x, Pays s s' hpEth 0 ⟨1, 400, .era 3, .native⟩ 150 x) ∧
      ∃ xs, PaidIn hpEth 0 s xs s' ∧ Left ⟨1, 400, .era 3, .native⟩ xs
        ((s'.unlockLedgers hpEth).token.get 0) := by
  have hr : ((run step (genesis Sample.config Sample.balances)
    (Sample.redeemed 400)).unlockLedgers hpEth).token.get 0 =
      some ⟨1, 400, .era 3, .native⟩ := by decide
  have hok : (processRedeem (run step (genesis Sample.config Sample.balances)
    (Sample.redeemed 400)) hpEth 1 0 400 150 (.era 3) .native).toBool = true := by decide
  have hne : (⟨1, 400, .era 3, .native⟩ : UnlockRecord ℕ).redeemer ≠
      Sample.config.entranceAccount := by decide
  have hskip : ¬ Skipped Sample.config hpEth 400 150 .native := fun hskip =>
    absurd hskip.2.2 (by decide)
  have hpays := @redemption_pays_iff _ _ Sample.config Sample.balances (Sample.redeemed 400)
    (Sample.redeemed_fresh 400) hpEth 0 ⟨1, 400, .era 3, .native⟩ hr hne
  generalize run step (genesis Sample.config Sample.balances) (Sample.redeemed 400) = s at *
  obtain ⟨s', h⟩ := exists_of_toBool hok
  exact ⟨s', h, (hpays.1 150 s' h).mpr hskip,
    hpays.2 s' (Relation.ReflTransGen.single (.redeem _ 150 hr hskip h))⟩

/-- A record of 5 below the existential deposit of 10: the transfer is skipped, the record and
`UnlockingTotal` go, and no balance moves. -/
theorem redemption_pays_nothing :
    let s := run step (genesis Sample.config Sample.balances) (Sample.redeemed 5)
    let r : UnlockRecord ℕ := ⟨1, 5, .era 3, .native⟩
    (s.unlockLedgers hpEth).token.get 0 = some r ∧ (s.unlockLedgers hpEth).unlockingTotal = 5 ∧
      s.entranceBalance hpEth = 1000 ∧
      ∃ s', processRedeem s hpEth 1 0 5 1000 (.era 3) .native = .ok s' ∧
        ((s'.unlockLedgers hpEth).token.get 0 = none ∧
          (s'.unlockLedgers hpEth).unlockingTotal = 0 ∧ s'.ledger hpEth 1 = s.ledger hpEth 1 ∧
          s'.ledger hpEth 100 = s.ledger hpEth 100) ∧
        ∀ x, ¬ Pays s s' hpEth 0 r 1000 x := by
  intro s r
  have hr : (s.unlockLedgers hpEth).token.get 0 = some r := by decide
  have htotal : (s.unlockLedgers hpEth).unlockingTotal = 5 := by decide
  have hbalance : s.entranceBalance hpEth = 1000 := by decide
  have hs : Sound (s.unlockLedgers hpEth) :=
    @sound_run _ _ Sample.config Sample.balances _ (Sample.redeemed_fresh 5) hpEth
  have hafter : Yields (processRedeem s hpEth 1 0 5 1000 (.era 3) .native) fun s' =>
      (s'.unlockLedgers hpEth).token.get 0 = none ∧
        (s'.unlockLedgers hpEth).unlockingTotal = 0 ∧ s'.ledger hpEth 1 = s.ledger hpEth 1 ∧
        s'.ledger hpEth 100 = s.ledger hpEth 100 := by decide
  have hne : r.redeemer ≠ Sample.config.entranceAccount := by decide
  have hskip : Skipped Sample.config hpEth r.amount 1000 r.redeemType :=
    ⟨⟨rfl, by decide⟩, by decide, by decide⟩
  clear_value s
  obtain ⟨s', h, hs'⟩ := yields_iff.mp hafter
  refine ⟨hr, htotal, hbalance, s', h, hs', fun x hx => ?_⟩
  exact (processRedeem_pays_iff hs hr hne h).mp ⟨x, hx⟩ hskip

end Bifrost.VtokenMinting
