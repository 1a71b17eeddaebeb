import Bifrost.VtokenMinting.ExchangeRate
import Bifrost.VtokenMinting.Queue
import Bifrost.VtokenMinting.Rebond

/-!
# Unlock ids and the end of a record

The id counter is kept under the vToken, the records under the token. While redemptions go
through the vToken their token is mapped to, the counter stays above the ids of all tokens
mapped to it, so a redemption never meets a used id. A record then goes only to its owner:
by a rebond, or in `on_idle` by payments that add up to it.
-/

namespace Bifrost.VtokenMinting

open Result Machine GroupIndex
set_option autoImplicit false

variable {AccountId : Type} {cfg : Config AccountId} {c : CurrencyId} {r : UnlockRecord AccountId}

/-! Payments. -/

structure Payment (AccountId : Type) where
  currency : CurrencyId
  id : ℕ
  redeemer : AccountId
  amount : ℕ
  redeemType : RedeemType AccountId

/-- The outside after the sends of the payments, in their order, and nothing else but the
hooks of `on_redeem_success`. -/
inductive Payouts (cfg : Config AccountId) :
    cfg.currency.Ledger → List (Payment AccountId) → cfg.currency.Ledger → Prop
  | nil (L : cfg.currency.Ledger) : Payouts cfg L [] L
  | cons {L L₁ L' : cfg.currency.Ledger} {p : Payment AccountId} {ps : List (Payment AccountId)}
      (hsent : Sent cfg p.currency p.redeemer p.amount p.redeemType L L₁)
      (hrest : Payouts cfg
        (if p.amount = 0 then L₁ else cfg.onRedeemSuccess L₁ p.currency p.redeemer p.amount) ps L') :
      Payouts cfg L (p :: ps) L'

theorem Payouts.append {L L₁ L' : cfg.currency.Ledger} {ps qs : List (Payment AccountId)}
    (h : Payouts cfg L ps L₁) (h' : Payouts cfg L₁ qs L') : Payouts cfg L (ps ++ qs) L' := by
  induction h with
  | nil => exact h'
  | cons hsent _ ih => exact .cons hsent (ih h')

def Payment.isFor (p : Payment AccountId) (c : CurrencyId) (id : ℕ) : Prop :=
  p.currency = c ∧ p.id = id

instance (p : Payment AccountId) (c : CurrencyId) (id : ℕ) : Decidable (p.isFor c id) :=
  inferInstanceAs (Decidable (_ ∧ _))

def paidFor (ps : List (Payment AccountId)) (c : CurrencyId) (id : ℕ) : ℕ :=
  (ps.map fun p => if p.isFor c id then p.amount else 0).sum

theorem paidFor_cons (p : Payment AccountId) (ps : List (Payment AccountId)) (c : CurrencyId)
    (id : ℕ) : paidFor (p :: ps) c id = (if p.isFor c id then p.amount else 0) + paidFor ps c id := by
  simp [paidFor]

theorem paidFor_append (ps qs : List (Payment AccountId)) (c : CurrencyId) (id : ℕ) :
    paidFor (ps ++ qs) c id = paidFor ps c id + paidFor qs c id := by
  simp [paidFor]

theorem paidFor_eq_zero {ps : List (Payment AccountId)} {id : ℕ}
    (h : ∀ p ∈ ps, ¬ p.isFor c id) : paidFor ps c id = 0 := by
  induction ps with
  | nil => rfl
  | cons p ps ih =>
    rw [paidFor_cons, if_neg (h p List.mem_cons_self), Nat.zero_add]
    exact ih fun q hq => h q (List.mem_cons_of_mem p hq)

/-- The payments for a record go to its redeemer as it asked, and are what it lost: the record
is there with the rest of its amount, or it is gone and was paid in full. -/
structure PaidDown (ps : List (Payment AccountId)) (c : CurrencyId) (id : ℕ)
    (r : UnlockRecord AccountId) (left : Option (UnlockRecord AccountId)) : Prop where
  receiver : ∀ p ∈ ps, p.isFor c id → p.redeemer = r.redeemer ∧ p.redeemType = r.redeemType
  rest : ∀ r', left = some r' → r' = { r with amount := r'.amount } ∧
    r'.amount + paidFor ps c id = r.amount
  full : left = none → paidFor ps c id = r.amount

theorem PaidDown.none {ps : List (Payment AccountId)} {id : ℕ}
    (h : ∀ p ∈ ps, ¬ p.isFor c id) : PaidDown ps c id r (some r) where
  receiver p hp hfor := absurd hfor (h p hp)
  rest r' hr' := by
    cases hr'
    exact ⟨rfl, by rw [paidFor_eq_zero h, Nat.add_zero]⟩
  full hnone := nomatch hnone

theorem PaidDown.append_left {ps qs : List (Payment AccountId)} {id : ℕ}
    {left : Option (UnlockRecord AccountId)}
    (h : PaidDown qs c id r left) (hps : ∀ p ∈ ps, ¬ p.isFor c id) :
    PaidDown (ps ++ qs) c id r left := by
  have hsum : paidFor (ps ++ qs) c id = paidFor qs c id := by
    rw [paidFor_append, paidFor_eq_zero hps, Nat.zero_add]
  refine ⟨?_, ?_, ?_⟩
  · intro p hp hfor
    rcases List.mem_append.mp hp with hp | hp
    · exact absurd hfor (hps p hp)
    · exact h.receiver p hp hfor
  · rw [hsum]
    exact h.rest
  · rw [hsum]
    exact h.full

theorem PaidDown.append_right {ps qs : List (Payment AccountId)} {id : ℕ}
    {left : Option (UnlockRecord AccountId)}
    (h : PaidDown ps c id r left) (hqs : ∀ p ∈ qs, ¬ p.isFor c id) :
    PaidDown (ps ++ qs) c id r left := by
  have hsum : paidFor (ps ++ qs) c id = paidFor ps c id := by
    rw [paidFor_append, paidFor_eq_zero hqs, Nat.add_zero]
  refine ⟨?_, ?_, ?_⟩
  · intro p hp hfor
    rcases List.mem_append.mp hp with hp | hp
    · exact h.receiver p hp hfor
    · exact absurd hfor (hqs p hp)
  · rw [hsum]
    exact h.rest
  · rw [hsum]
    exact h.full

variable [DecidableEq AccountId] {s s' : State cfg}

theorem processRedeem_paid {id balance : ℕ} (hr : (s.unlockLedgers c).token.get id = some r)
    (hdust : ¬ Dust cfg c r.amount r.redeemType)
    (h : processRedeem s c r.redeemer id r.amount balance r.timeUnit r.redeemType = .ok s') :
    ∃ ps, Payouts cfg s.ledger ps s'.ledger ∧ (∀ p ∈ ps, p.isFor c id) ∧
      PaidDown ps c id r ((s'.unlockLedgers c).token.get id) ∧
      ∀ j, j ≠ id → (s'.unlockLedgers c).token.get j = (s.unlockLedgers c).token.get j := by
  obtain ⟨n, L, hle, -, hsent, hcase⟩ := processRedeem_ok h
  have hpayment : ∀ L', Sent cfg c r.redeemer n r.redeemType s.ledger L →
      L' = (if n = 0 then L else cfg.onRedeemSuccess L c r.redeemer n) →
      Payouts cfg s.ledger [⟨c, id, r.redeemer, n, r.redeemType⟩] L' := by
    rintro L' hsent rfl
    exact .cons hsent (.nil _)
  have hreceiver : ∀ p ∈ [(⟨c, id, r.redeemer, n, r.redeemType⟩ : Payment AccountId)],
      p.isFor c id ∧ p.redeemer = r.redeemer ∧ p.redeemType = r.redeemType := by
    intro p hp
    rw [List.mem_singleton.mp hp]
    exact ⟨⟨rfl, rfl⟩, rfl, rfl⟩
  have hsum : paidFor [(⟨c, id, r.redeemer, n, r.redeemType⟩ : Payment AccountId)] c id = n := by
    simp [paidFor, Payment.isFor]
  rcases hcase with ⟨rfl, rfl⟩ | ⟨hpos, b, ledgers, redeemTo, hledgers, rfl⟩
  · simp only [State.served, Function.update_self]
    rcases hsent with hsent | ⟨rfl, -⟩
    · refine ⟨[⟨c, id, r.redeemer, 0, r.redeemType⟩], hpayment L hsent rfl,
        fun p hp => (hreceiver p hp).1, ?_, fun _ _ => trivial⟩
      refine ⟨fun p hp _ => (hreceiver p hp).2, ?_, ?_⟩
      · intro r' hr'
        rw [hr] at hr'
        cases hr'
        exact ⟨rfl, by rw [hsum, Nat.add_zero]⟩
      · intro hnone
        rw [hr] at hnone
        contradiction
    · refine ⟨[], .nil _, List.forall_mem_nil _, ?_, fun _ _ => trivial⟩
      rw [hr]
      exact .none (List.forall_mem_nil _)
  · have hsent' : Sent cfg c r.redeemer n r.redeemType s.ledger L := by
      rcases hsent with hsent | ⟨-, h0 | ⟨-, hd⟩⟩
      · exact hsent
      · omega
      · exact absurd hd hdust
    obtain ⟨r₀, g, g', hr₀, -, -, -, -, rfl⟩ := update_sub_ok hledgers
    rw [hr] at hr₀
    cases hr₀
    simp only [State.served, Function.update_self]
    refine ⟨[⟨c, id, r.redeemer, n, r.redeemType⟩], hpayment _ hsent' ?_,
      fun p hp => (hreceiver p hp).1, ?_, ?_⟩
    · rw [if_neg (by omega)]
    · rw [Table.get_write_self]
      refine ⟨fun p hp _ => (hreceiver p hp).2, ?_, ?_⟩
      · intro r' hr'
        split at hr'
        · contradiction
        · cases hr'
          refine ⟨rfl, ?_⟩
          rw [hsum]
          exact Nat.sub_add_cancel hle
      · intro hnone
        split at hnone
        · rw [hsum]
          omega
        · contradiction
    · intro j hj
      exact Table.get_write_ne _ _ hj

/-- Between the states the records of `c` under `ids` were paid down, and no others. -/
structure Round (s s' : State cfg) (c : CurrencyId) (ids : List ℕ)
    (ps : List (Payment AccountId)) : Prop where
  payouts : Payouts cfg s.ledger ps s'.ledger
  listed : ∀ p ∈ ps, p.currency = c ∧ p.id ∈ ids
  records : ∀ id r, (s.unlockLedgers c).token.get id = some r →
    PaidDown ps c id r ((s'.unlockLedgers c).token.get id)
  kept : ∀ id, id ∉ ids → (s'.unlockLedgers c).token.get id = (s.unlockLedgers c).token.get id

omit [DecidableEq AccountId] in
theorem Round.nothing (s : State cfg) (c : CurrencyId) (ids : List ℕ) : Round s s c ids [] := by
  refine ⟨.nil _, List.forall_mem_nil _, ?_, fun _ _ => rfl⟩
  intro id r hr
  rw [hr]
  exact .none (List.forall_mem_nil _)

theorem processRecords_paid {ids : List ℕ} (hnodup : ids.Nodup)
    (hdust : ∀ id ∈ ids, ∀ r, (s.unlockLedgers c).token.get id = some r →
      ¬ Dust cfg c r.amount r.redeemType) (h : processRecords c ids s = .ok s') :
    ∃ ps, Round s s' c ids ps := by
  induction ids generalizing s with
  | nil =>
    simp only [processRecords, pure_eq_ok] at h
    subst s'
    exact ⟨[], .nothing s c []⟩
  | cons id ids ih =>
    rw [List.nodup_cons] at hnodup
    unfold processRecords at h
    split at h
    · obtain ⟨ps, hps⟩ := ih hnodup.2 (fun j hj => hdust j (List.mem_cons_of_mem id hj)) h
      refine ⟨ps, hps.payouts, ?_, hps.records, ?_⟩
      · intro p hp
        exact ⟨(hps.listed p hp).1, List.mem_cons_of_mem id (hps.listed p hp).2⟩
      · intro j hj
        exact hps.kept j fun hmem => hj (List.mem_cons_of_mem id hmem)
    · rename_i r hr
      split at h
      · simp only [pure_eq_ok] at h
        subst s'
        exact ⟨[], .nothing s c _⟩
      · simp only [bind_eq_ok] at h
        obtain ⟨s₁, h₁, h⟩ := h
        obtain ⟨ps, hpay, hfor, hdown, hother⟩ :=
          processRedeem_paid hr (hdust id List.mem_cons_self r hr) h₁
        have hne : ∀ j ∈ ids, j ≠ id := fun j hj heq => hnodup.1 (heq ▸ hj)
        obtain ⟨qs, hqs⟩ := ih hnodup.2 (by
          intro j hj r' hr'
          rw [hother j (hne j hj)] at hr'
          exact hdust j (List.mem_cons_of_mem id hj) r' hr') h
        refine ⟨ps ++ qs, hpay.append hqs.payouts, ?_, ?_, ?_⟩
        · intro p hp
          rcases List.mem_append.mp hp with hp | hp
          · obtain ⟨hc, hid⟩ := hfor p hp
            exact ⟨hc, hid ▸ List.mem_cons_self⟩
          · exact ⟨(hqs.listed p hp).1, List.mem_cons_of_mem id (hqs.listed p hp).2⟩
        · intro j r' hr'
          by_cases hj : j = id
          · subst j
            rw [hr] at hr'
            cases hr'
            rw [hqs.kept id hnodup.1]
            apply hdown.append_right
            intro p hp hfor'
            exact hnodup.1 (hfor'.2 ▸ (hqs.listed p hp).2)
          · rw [← hother j hj] at hr'
            apply (hqs.records j r' hr').append_left
            intro p hp hfor'
            exact hj (hfor'.2.symm.trans (hfor p hp).2)
        · intro j hj
          rw [List.mem_cons, not_or] at hj
          rw [hqs.kept j hj.2, hother j hj.1]

/-- No local redemption below the existential deposit is due in the next round. -/
def NoDust (s : State cfg) (c : CurrencyId) : Prop :=
  ∀ g, (s.unlockLedgers c).timeUnit.get (s.minTimeUnit c) = some g →
    ∀ id ∈ g.ids.take s.hookIterationLimit, ∀ r, (s.unlockLedgers c).token.get id = some r →
      ¬ Dust cfg c r.amount r.redeemType

/-- Rounds of different currencies: `on_idle` so far. -/
structure Rounds (s s' : State cfg) (order : List CurrencyId) (ps : List (Payment AccountId)) :
    Prop where
  payouts : Payouts cfg s.ledger ps s'.ledger
  listed : ∀ p ∈ ps, p.currency ∈ order
  records : ∀ c id r, (s.unlockLedgers c).token.get id = some r →
    PaidDown ps c id r ((s'.unlockLedgers c).token.get id)

theorem handleOrFail_paid (hs : Sound (s.unlockLedgers c)) (hdust : NoDust s c) :
    (∃ ps ids, Round s (handleOrFail s c) c ids ps) ∧
      (handleOrFail s c).hookIterationLimit = s.hookIterationLimit ∧
      ∀ d, d ≠ c → (handleOrFail s c).unlockLedgers d = s.unlockLedgers d ∧
        (handleOrFail s c).minTimeUnit d = s.minTimeUnit d := by
  unfold handleOrFail
  split
  · rename_i s₁ h
    unfold handleLedgerByCurrency at h
    simp only at h
    split at h
    · rename_i g hg
      have hnodup := (hs.timeUnit.nodup _ g hg).sublist
        (List.take_sublist s.hookIterationLimit g.ids)
      obtain ⟨ps, hps⟩ := processRecords_paid hnodup (hdust g hg) h
      obtain ⟨ledgers, L, es, rfl, -⟩ := processRecords_ok h
      refine ⟨⟨ps, _, hps⟩, rfl, fun d hd => ⟨?_, rfl⟩⟩
      simp [State.served, hd]
    · simp only [bind_eq_ok, okOr_eq_ok] at h
      obtain ⟨duration, -, ongoing, -, result, -, h⟩ := h
      have hsame : (∃ ps ids, Round s s c ids ps) := ⟨[], [], .nothing s c []⟩
      split at h
      · simp only [pure_eq_ok] at h
        subst s₁
        obtain ⟨ps, ids, hps⟩ := hsame
        refine ⟨⟨ps, ids, hps.payouts, hps.listed, hps.records, hps.kept⟩, rfl, fun d hd => ⟨rfl, ?_⟩⟩
        simp [hd]
      · simp only [pure_eq_ok] at h
        subst s₁
        exact ⟨hsame, rfl, fun _ _ => ⟨rfl, rfl⟩⟩
  · obtain ⟨hpay, hlisted, hrecords, hkept⟩ := Round.nothing s c []
    exact ⟨⟨[], [], hpay, hlisted, hrecords, hkept⟩, rfl, fun _ _ => ⟨rfl, rfl⟩⟩

theorem foldl_paid {order : List CurrencyId} (hnodup : order.Nodup)
    (hs : ∀ c ∈ order, Sound (s.unlockLedgers c)) (hdust : ∀ c ∈ order, NoDust s c) :
    (∃ ps, Rounds s (order.foldl handleOrFail s) order ps) ∧
      ∀ d, d ∉ order → (order.foldl handleOrFail s).unlockLedgers d = s.unlockLedgers d := by
  induction order generalizing s with
  | nil =>
    refine ⟨⟨[], .nil _, List.forall_mem_nil _, ?_⟩, fun _ _ => rfl⟩
    intro c id r hr
    rw [List.foldl_nil, hr]
    exact .none (List.forall_mem_nil _)
  | cons c order ih =>
    rw [List.nodup_cons] at hnodup
    obtain ⟨⟨ps, ids, hps⟩, hlimit, hother⟩ :=
      handleOrFail_paid (hs c List.mem_cons_self) (hdust c List.mem_cons_self)
    have hne : ∀ d ∈ order, d ≠ c := fun d hd heq => hnodup.1 (heq ▸ hd)
    obtain ⟨⟨qs, hqs⟩, hrest⟩ := @ih (handleOrFail s c) hnodup.2
      (by
        intro d hd
        rw [(hother d (hne d hd)).1]
        exact hs d (List.mem_cons_of_mem c hd))
      (by
        intro d hd
        unfold NoDust
        rw [hlimit, (hother d (hne d hd)).1, (hother d (hne d hd)).2]
        exact hdust d (List.mem_cons_of_mem c hd))
    rw [List.foldl_cons]
    refine ⟨⟨ps ++ qs, hps.payouts.append hqs.payouts, ?_, ?_⟩, ?_⟩
    · intro p hp
      rcases List.mem_append.mp hp with hp | hp
      · exact (hps.listed p hp).1 ▸ List.mem_cons_self
      · exact List.mem_cons_of_mem c (hqs.listed p hp)
    · intro d id r hr
      by_cases hd : d = c
      · subst d
        rw [hrest c hnodup.1]
        apply (hps.records id r hr).append_right
        intro p hp hfor
        exact hnodup.1 (hfor.1 ▸ hqs.listed p hp)
      · rw [← (hother d hd).1] at hr
        apply (hqs.records d id r hr).append_left
        intro p hp hfor
        exact hd (hfor.1.symm.trans (hps.listed p hp).1)
    · intro d hd
      rw [List.mem_cons, not_or] at hd
      rw [hrest d hd.2, (hother d hd.1).1]

theorem onIdle_paid {order : List CurrencyId} (hs : ∀ c, Sound (s.unlockLedgers c))
    (hdust : ∀ c ∈ order, NoDust s c) (h : onIdle s order = .ok s') :
    ∃ ps, Rounds s s' order ps := by
  simp only [onIdle, bind_eq_ok, ensure_eq_ok, pure_eq_ok] at h
  obtain ⟨-, hperm, rfl⟩ := h
  have hnodup := hperm.nodup_iff.mpr s.ongoingTimeUnit.keys_nodup
  exact (foldl_paid hnodup (fun c _ => hs c) hdust).1

/-! The id counters. -/

/-- The counter of a vToken is above the ids of the tokens mapped to it. -/
def Below (s : State cfg) : Prop :=
  ∀ c v, s.tokenToVToken c = some v → ∀ id r, (s.unlockLedgers c).token.get id = some r →
    id < s.tokenUnlockNextId v

/-- Redemptions go through the vToken of their token, or take an id that this vToken has
used and that is free again; a token is mapped to a vToken only if its records have ids below
the counter; and `on_idle` finds no dust. -/
def KeepsIds (s : State cfg) : Call cfg → Prop
  | .redeem _ oc v _ _ => ∀ c w, redeemCurrency s oc v = .ok c → s.tokenToVToken c = some w →
      w = v ∨ s.tokenUnlockNextId v < s.tokenUnlockNextId w ∧
        (s.unlockLedgers c).token.get (s.tokenUnlockNextId v) = none
  | .setVtokenMultimap v configs => ∀ config ∈ configs, ∀ id r,
      (s.unlockLedgers config.token).token.get id = some r → id < s.tokenUnlockNextId v
  | .onIdle order => ∀ c ∈ order, NoDust s c
  | _ => True

omit [DecidableEq AccountId] in
theorem Below.fresh (hs : Below s) {c v : CurrencyId} (hv : s.tokenToVToken c = some v) :
    (s.unlockLedgers c).token.get (s.tokenUnlockNextId v) = none := by
  cases hr : (s.unlockLedgers c).token.get (s.tokenUnlockNextId v) with
  | none => rfl
  | some r => exact absurd (hs c v hv _ r hr) (Nat.lt_irrefl _)

theorem freshId_of_keepsIds (hs : Below s) {a : Call cfg} (ha : KeepsIds s a)
    (h : step s a = .ok s') : FreshId s a := by
  cases a with
  | redeem who oc v n redeemType =>
    obtain ⟨d, target, k, t, ledgers, L, es, hd, -, htarget, -, -, -, -, -, -, -⟩ := doRedeem_ok h
    intro c hc
    rw [hd] at hc
    cases hc
    rcases ha d target hd htarget with rfl | ⟨-, hfree⟩
    · exact hs.fresh htarget
    · exact hfree
  | _ => trivial

omit [DecidableEq AccountId] in
theorem below_genesis (ledger : cfg.currency.Ledger) : Below (genesis cfg ledger) := by
  intro c v hv
  simp [genesis] at hv

theorem setEntries_apply (m : CurrencyId → Option CurrencyId) (tokens : List CurrencyId)
    (entry : Option CurrencyId) (c : CurrencyId) :
    setEntries m tokens entry c = if c ∈ tokens then entry else m c := by
  induction tokens generalizing m with
  | nil => simp [setEntries]
  | cons t tokens ih =>
    have hcons : setEntries m (t :: tokens) entry =
        setEntries (Function.update m t entry) tokens entry := rfl
    rw [hcons, ih]
    by_cases hc : c ∈ tokens
    · simp [hc]
    · by_cases ht : c = t
      · subst t
        simp
      · simp [hc, ht]

omit [DecidableEq AccountId] in
theorem setVtokenMultimap_maps {v : CurrencyId} {configs : List VTokenTokenConfig}
    (h : setVtokenMultimap s v configs = .ok s') {c w : CurrencyId}
    (hw : s'.tokenToVToken c = some w) :
    w = v ∧ (∃ config ∈ configs, config.token = c) ∨ s.tokenToVToken c = some w := by
  simp only [setVtokenMultimap, bind_eq_ok, pure_eq_ok] at h
  obtain ⟨-, -, -, -, rfl⟩ := h
  simp only [State.depositEvent] at hw
  split at hw
  · simp only [setEntries_apply] at hw
    split at hw
    · contradiction
    · exact Or.inr hw
  · simp only [setEntries_apply] at hw
    split at hw
    · rename_i hmem
      obtain ⟨config, hconfig, rfl⟩ := List.mem_map.mp hmem
      exact Or.inl ⟨(Option.some_inj.mp hw).symm, config, hconfig, rfl⟩
    · split at hw
      · contradiction
      · exact Or.inr hw

theorem below_step (hsound : ∀ c, Sound (s.unlockLedgers c)) (hs : Below s) {a : Call cfg}
    (ha : KeepsIds s a) (h : step s a = .ok s') : Below s' := by
  cases hredeems : a.redeems with
  | true =>
    cases a with
    | redeem who oc v n redeemType =>
      obtain ⟨d, target, k, t, ledgers, L, es, hd, -, htarget, -, -, -, -, -, hadd, rfl⟩ :=
        doRedeem_ok h
      obtain ⟨redeemType', -, -, -, rfl⟩ := update_add_ok hadd
      have hcounter : ∀ w, s.tokenUnlockNextId w ≤
          Function.update s.tokenUnlockNextId v (s.tokenUnlockNextId v + 1) w := by
        intro w
        by_cases hw : w = v
        · subst w
          rw [Function.update_self]
          omega
        · rw [Function.update_of_ne hw]
      intro c w hw id r hr
      simp only [State.redeemed] at hw hr ⊢
      by_cases hc : c = d
      · subst d
        rw [Function.update_self, Table.get_write] at hr
        split at hr
        · subst id
          rw [htarget] at hw
          cases hw
          rcases ha c target hd htarget with rfl | ⟨hlt, -⟩
          · rw [Function.update_self]
            omega
          · exact hlt.trans_le (hcounter target)
        · exact (hs c w hw id r hr).trans_le (hcounter w)
      · rw [Function.update_of_ne hc] at hr
        exact (hs c w hw id r hr).trans_le (hcounter w)
    | _ => contradiction
  | false =>
    intro c w hw id r hr
    rw [(step_frame h).tokenUnlockNextId hredeems]
    have hold : ∃ r₀, (s.unlockLedgers c).token.get id = some r₀ := by
      cases step_ledgers hsound h c with
      | taken _ htaken =>
        obtain ⟨r₀, hr₀, -⟩ := shrinks_taken htaken id r hr
        exact ⟨r₀, hr₀⟩
      | redeemed => contradiction
      | totalSet n heq =>
        rw [heq] at hr
        exact ⟨r, hr⟩
    obtain ⟨r₀, hr₀⟩ := hold
    cases hmaps : a.maps with
    | false =>
      rw [(step_frame h).tokenToVToken hmaps] at hw
      exact hs c w hw id r₀ hr₀
    | true =>
      cases a with
      | setVtokenMultimap v configs =>
        rcases setVtokenMultimap_maps h hw with ⟨rfl, config, hconfig, rfl⟩ | hw
        · exact ha config hconfig id r₀ hr₀
        · exact hs c w hw id r₀ hr₀
      | _ => contradiction

/-- What a call did with a record: nothing, or it was a rebond of the record's redeemer, or
`on_idle` paid it down. -/
inductive Fate (s s' : State cfg) (c : CurrencyId) (id : ℕ) (r : UnlockRecord AccountId) :
    Call cfg → Prop
  | kept (a : Call cfg) (h : (s'.unlockLedgers c).token.get id = some r) : Fate s s' c id r a
  | rebonded (amount : ℕ) (h : ∀ r', (s'.unlockLedgers c).token.get id = some r' →
      r' = { r with amount := r'.amount } ∧ r'.amount ≤ r.amount) :
      Fate s s' c id r (.rebond r.redeemer c amount)
  | rebondedByUnlockId (h : (s'.unlockLedgers c).token.get id = none) :
      Fate s s' c id r (.rebondByUnlockId r.redeemer c id)
  | paid (order : List CurrencyId) (ps : List (Payment AccountId))
      (hpay : Payouts cfg s.ledger ps s'.ledger)
      (h : PaidDown ps c id r ((s'.unlockLedgers c).token.get id)) :
      Fate s s' c id r (.onIdle order)

theorem step_fate {a : Call cfg} (hsound : ∀ c, Sound (s.unlockLedgers c)) (hs : Below s)
    (ha : KeepsIds s a) (h : step s a = .ok s') {id : ℕ}
    (hr : (s.unlockLedgers c).token.get id = some r) :
    Fate s s' c id r a := by
  cases hmoves : a.movesLedgers with
  | false =>
    apply Fate.kept
    rw [(step_frame h).unlockLedgers hmoves]
    exact hr
  | true =>
    cases a with
    | redeem who oc v n redeemType =>
      have hfresh := freshId_of_keepsIds hs ha h
      obtain ⟨d, target, k, t, ledgers, L, es, hd, -, -, -, -, -, -, -, hadd, rfl⟩ := doRedeem_ok h
      obtain ⟨redeemType', -, -, -, rfl⟩ := update_add_ok hadd
      apply Fate.kept
      simp only [State.redeemed]
      by_cases hc : c = d
      · subst d
        rw [Function.update_self, Table.get_write_ne]
        · exact hr
        · rintro rfl
          rw [hfresh c hd] at hr
          contradiction
      · rw [Function.update_of_ne hc]
        exact hr
    | rebond who d n =>
      obtain ⟨-, -, hsame, hcon⟩ := rebond_consumes hsound h
      by_cases hc : c = d
      · subst d
        by_cases hid : id ∈ (s.unlockLedgers c).userIds who
        · obtain ⟨r₀, hr₀, hwho⟩ := (hsound c).mem_userIds hid
          rw [hr] at hr₀
          cases hr₀
          subst who
          refine .rebonded n fun r' hr' => ?_
          obtain ⟨r₁, hr₁, hcase⟩ := hcon.touched id r' hr'
          rw [hr] at hr₁
          cases hr₁
          rcases hcase with rfl | ⟨heq, hlt, -⟩
          · exact ⟨rfl, Nat.le_refl _⟩
          · exact ⟨heq, Nat.le_of_lt hlt⟩
        · apply Fate.kept
          rw [hcon.kept id hid, hr]
      · apply Fate.kept
        rw [hsame c hc, hr]
    | rebondByUnlockId who d id' =>
      obtain ⟨r₀, b, ledgers, target, k, m, fee, rebonded, L, es, hr₀, hwho, hledgers, -, -, -, -,
        rfl⟩ := rebondByUnlockId_ok h
      obtain ⟨r₁, g, g', hr₁, -, -, -, -, rfl⟩ := update_sub_ok hledgers
      rw [hr₀] at hr₁
      cases hr₁
      simp only [State.rebonded]
      by_cases hc : c = d
      · subst d
        by_cases hid : id = id'
        · subst id'
          rw [hr] at hr₀
          cases hr₀
          subst who
          apply Fate.rebondedByUnlockId
          simp only [Function.update_self, Table.get_write_self, Nat.le_refl, if_true]
        · apply Fate.kept
          simp only [Function.update_self]
          rw [Table.get_write_ne _ _ hid, hr]
      · apply Fate.kept
        simp only [Function.update_of_ne hc, hr]
    | onIdle order =>
      obtain ⟨ps, hps⟩ := onIdle_paid hsound ha h
      exact .paid order ps hps.payouts (hps.records c id r hr)
    | setUnlockingTotal d n =>
      simp only [step, updateTotal, bind_eq_ok, mapErr_eq_ok, pure_eq_ok] at h
      obtain ⟨_, rfl, rfl⟩ := h
      apply Fate.kept
      by_cases hc : c = d
      · subst d
        simp only [Function.update_self]
        exact hr
      · simp only [Function.update_of_ne hc]
        exact hr
    | _ => contradiction

/-- In every run of such calls the id of the next redemption of any mapped pair is free, and
no such call overwrites a record or takes it away but by its redeemer's rebond or by
payments that add up to it. -/
theorem unlock_records_kept (ledger : cfg.currency.Ledger) (as : List (Call cfg))
    (has : Meets step KeepsIds (genesis cfg ledger) as) :
    let s := run step (genesis cfg ledger) as
    (∀ c v, s.tokenToVToken c = some v →
      (s.unlockLedgers c).token.get (s.tokenUnlockNextId v) = none) ∧
      ∀ a s', KeepsIds s a → step s a = .ok s' → ∀ c id r,
        (s.unlockLedgers c).token.get id = some r → Fate s s' c id r a := by
  intro s
  have hs : (∀ c, Sound (s.unlockLedgers c)) ∧ Below s :=
    run_invariant (I := fun s : State cfg => (∀ c, Sound (s.unlockLedgers c)) ∧ Below s)
      (by
        intro s a s' hs ha h
        exact ⟨sound_step hs.1 (freshId_of_keepsIds hs.2 ha h) h, below_step hs.1 hs.2 ha h⟩)
      as ⟨sound_genesis ledger, below_genesis ledger⟩ has
  refine ⟨fun c v hv => hs.2.fresh hv, ?_⟩
  intro a s' ha h c id r hr
  exact step_fate hs.1 hs.2 ha h hr

theorem Sample.dueRecord_keepsIds :
    Meets step KeepsIds (genesis Sample.config Sample.balances) Sample.dueRecord := by
  refine ⟨fun _ _ => ?_, fun _ _ => trivial, fun _ _ => trivial, fun _ _ => trivial,
    fun _ _ => ?_, fun _ _ => trivial, fun _ _ => trivial, trivial⟩
  · intro config _ id r hr
    exact absurd ((Table.get_empty id).symm.trans hr) (by simp)
  · intro c w hc hw
    cases redeemCurrency_some hc
    have hmap : (run step (genesis Sample.config Sample.balances)
      (Sample.dueRecord.take 4)).tokenToVToken hpEth = some vEth := by decide
    exact Or.inl (Option.some_inj.mp (hw.symm.trans hmap))

theorem unlock_records_kept_sample :
    ((run step (genesis Sample.config Sample.balances) Sample.dueRecord).unlockLedgers
        hpEth).token.get 1 = none ∧
      ∃ s', step (run step (genesis Sample.config Sample.balances) Sample.dueRecord)
        (.onIdle [hpEth]) = .ok s' ∧
        Fate (run step (genesis Sample.config Sample.balances) Sample.dueRecord) s' hpEth 0
          ⟨1, 400, .era 3, .native⟩ (.onIdle [hpEth]) := by
  have h := @unlock_records_kept _ Sample.config _ Sample.balances _ Sample.dueRecord_keepsIds
  have hmap : (run step (genesis Sample.config Sample.balances)
    Sample.dueRecord).tokenToVToken hpEth = some vEth := by decide
  have hnext : (run step (genesis Sample.config Sample.balances)
    Sample.dueRecord).tokenUnlockNextId vEth = 1 := by decide
  have hunit : ((run step (genesis Sample.config Sample.balances) Sample.dueRecord).unlockLedgers
    hpEth).timeUnit.get ((run step (genesis Sample.config Sample.balances)
      Sample.dueRecord).minTimeUnit hpEth) = some ⟨400, [0]⟩ := by decide
  have hget : ((run step (genesis Sample.config Sample.balances) Sample.dueRecord).unlockLedgers
    hpEth).token.get 0 = some ⟨1, 400, .era 3, .native⟩ := by decide
  have hok : (step (run step (genesis Sample.config Sample.balances) Sample.dueRecord)
    (.onIdle [hpEth])).toBool = true := by decide
  generalize run step (genesis Sample.config Sample.balances) Sample.dueRecord = s at *
  obtain ⟨s', hstep⟩ := exists_of_toBool hok
  have hdust : KeepsIds s (.onIdle [hpEth]) := by
    intro c hc g hg id hid r hr
    cases List.mem_singleton.mp hc
    rw [hunit] at hg
    cases hg
    cases List.mem_singleton.mp (List.mem_of_mem_take hid)
    rw [hget] at hr
    cases hr
    exact fun hd => absurd hd.2 (by decide)
  exact ⟨hnext ▸ h.1 hpEth vEth hmap, s', hstep, h.2 _ s' hdust hstep hpEth 0 _ hget⟩

/-- A redemption through the fallback writes over a record; so does the first redemption of a
token that moved to a new vToken; and a record below the existential deposit is dropped
without a payment. -/
theorem unlock_record_lost :
    (let s := run step (genesis Sample.config Sample.balances) Sample.setup
    let s' := exec step s (.redeem 2 none (.vToken2 16) 0 .native)
    (s.unlockLedgers hpEth).token.get 0 = some ⟨1, 400, .era 3, .native⟩ ∧
      (s'.unlockLedgers hpEth).token.get 0 = some ⟨2, 0, .era 3, .native⟩) ∧
    (let s := run step (genesis Sample.config Sample.twoHolders)
      (Sample.setup ++ [.setVtokenMultimap vEth [],
        .setVtokenMultimap (.vToken2 50) [⟨hpEth, true⟩], .mint 1 hpEth 100 none])
    let s' := exec step s (.redeem 1 (some hpEth) (.vToken2 50) 50 .native)
    (s.unlockLedgers hpEth).token.get 0 = some ⟨1, 400, .era 3, .native⟩ ∧
      (s'.unlockLedgers hpEth).token.get 0 = some ⟨1, 50, .era 3, .native⟩) ∧
    (let s := run step (genesis Sample.config Sample.balances)
      [.setVtokenMultimap vEth [⟨hpEth, true⟩], .setOngoingTimeUnit hpEth (.era 1),
        .setUnlockDuration hpEth (.era 2), .mint 1 hpEth 1000 none,
        .redeem 1 (some hpEth) vEth 5 .native, .setMinTimeUnit hpEth (.era 3),
        .setHookIterationLimit 1]
    let s' := exec step s (.onIdle [hpEth])
    (s.unlockLedgers hpEth).token.get 0 = some ⟨1, 5, .era 3, .native⟩ ∧
      (s'.unlockLedgers hpEth).token.get 0 = none ∧
      s'.ledger hpEth 1 = s.ledger hpEth 1 ∧ s'.ledger hpEth 100 = s.ledger hpEth 100) := by
  decide

end Bifrost.VtokenMinting
