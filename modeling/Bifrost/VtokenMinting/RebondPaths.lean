import Bifrost.VtokenMinting.Rebond

/-!
# The two ways to rebond a record

`rebond` of the amount of a user's only record and `rebond_by_unlock_id` of that record take
the same steps up to the last one. There `rebond` adds to `TokenToRebond` the amount asked
for, and `rebond_by_unlock_id` the amount that is left of it after the mint fee, which is
what the pool has grown by.
-/

namespace Bifrost.VtokenMinting

open Result Machine GroupIndex
set_option autoImplicit false

variable {AccountId : Type} [DecidableEq AccountId] {cfg : Config AccountId}

/-- The record under `id` is the only one of `who` in the currency. -/
structure OnlyRecord (s : State cfg) (who : AccountId) (c : CurrencyId) (id : ℕ)
    (r : UnlockRecord AccountId) : Prop where
  record : (s.unlockLedgers c).token.get id = some r
  owner : r.redeemer = who
  listed : (s.unlockLedgers c).user.get who = some ⟨r.amount, [id]⟩

theorem Sound.onlyRecord {s : State cfg} {who : AccountId} {c : CurrencyId} {id : ℕ}
    {r : UnlockRecord AccountId} (hs : Sound (s.unlockLedgers c))
    (hr : (s.unlockLedgers c).token.get id = some r) (hwho : r.redeemer = who)
    (hpos : 0 < r.amount)
    (honly : ∀ id' r', (s.unlockLedgers c).token.get id' = some r' → r'.redeemer = who →
      id' = id) : OnlyRecord s who c id r := by
  refine ⟨hr, hwho, ?_⟩
  subst who
  obtain ⟨g, hg, hid⟩ := hs.user.listed id r hr hpos
  have hall : ∀ id' ∈ g.ids, id' = id := by
    intro id' hid'
    obtain ⟨r', hr', howner⟩ := hs.user.live _ g hg id' hid'
    exact honly id' r' hr' howner
  have hids : g.ids = [id] := by
    have hlist := List.eq_replicate_of_mem hall
    have hnodup := hs.user.nodup _ g hg
    rw [hlist, List.nodup_replicate] at hnodup
    rw [hlist, Nat.le_antisymm hnodup (List.length_pos_of_mem hid), List.replicate_one]
  have htotal := hs.user.total _ g hg
  rw [hids, List.map_singleton, List.sum_singleton, amountAt_of_get hr] at htotal
  rw [hg, ← htotal, ← hids]

/-- The steps the two calls share: the record is taken off the ledgers and its amount minted. -/
def takeBack (s : State cfg) (who : AccountId) (c : CurrencyId) (id : ℕ)
    (r : UnlockRecord AccountId) : Except Fault (ℕ × ℕ × ℕ × State cfg) := do
  let v ← s.convertToVtoken c
  let (_, s) ← s.updateUnlockLedger who c r.amount id r.timeUnit none .sub
  mintWithoutTransfer s who v c r.amount

section Paths

variable {s s₁ s₂ : State cfg} {who : AccountId} {c : CurrencyId} {id : ℕ}
  {r : UnlockRecord AccountId}

theorem OnlyRecord.get (h : OnlyRecord s who c id r) (e : Fault) :
    okOr ((s.unlockLedgers c).token.get id) e = pure r := by
  rw [h.record]
  rfl

omit [DecidableEq AccountId] in
theorem ensure_of {p : Prop} [Decidable p] (h : p) (e : Fault) : ensure p e = pure ⟨⟩ :=
  if_pos h

theorem rebond_eq (h : OnlyRecord s who c id r) :
    rebond s who c r.amount = (do
      let (_, m, fee, s) ← takeBack s who c id r
      let s ← s.addToRebond c r.amount
      pure (s.depositEvent (.rebonded who c r.amount m fee))) := by
  have hlisted : ∀ e : Fault, okOr ((s.unlockLedgers c).user.get who) e =
      pure ⟨r.amount, [id]⟩ := by
    intro e
    rw [h.listed]
    rfl
  simp only [rebond, takeBack, hlisted, ensure_of (Nat.le_refl r.amount), pure_bind,
    List.reverse_singleton, rebondLoop, h.get, if_pos (Nat.le_refl r.amount), ite_self, bind_assoc]

theorem rebondByUnlockId_eq (h : OnlyRecord s who c id r) :
    rebondByUnlockId s who c id = (do
      let (n, m, fee, s) ← takeBack s who c id r
      let s ← s.addToRebond c n
      pure (s.depositEvent (.rebondedByUnlockId who c r.amount m fee id))) := by
  simp only [rebondByUnlockId, takeBack, h.get, ensure_of h.owner, pure_bind, bind_assoc]

theorem takeBack_ok {n m fee : ℕ} (h : takeBack s who c id r = .ok (n, m, fee, s₁)) :
    n + s.fees.1.mulFloor r.amount = r.amount ∧ s₁.tokenToRebond = s.tokenToRebond ∧
      ∃ v, s.tokenToVToken c = some v ∧
        s₁.tokenPool = Function.update s.tokenPool v (s.tokenPool v + n) := by
  simp only [takeBack, bind_eq_ok] at h
  obtain ⟨v, hv, ⟨b, s₂⟩, h₁, h₂⟩ := h
  obtain ⟨ledgers, -, rfl⟩ := updateUnlockLedger_ok h₁
  obtain ⟨rfl, hn, -, target, L, htarget, -, rfl⟩ := mintWithoutTransfer_ok h₂
  exact ⟨hn, rfl, target, htarget, rfl⟩

omit [DecidableEq AccountId] in
theorem addToRebond_error {n a : ℕ} (hle : n ≤ a) {e : Fault} (h : s.addToRebond c n = .error e) :
    s.addToRebond c a = .error e := by
  unfold State.addToRebond at h ⊢
  cases hrebond : s.tokenToRebond c with
  | none => simpa [hrebond, okOr, bind, Except.bind] using h
  | some m =>
    rw [hrebond] at h
    by_cases hmax : m + a ≤ u128Max
    · have hadd : U128.checkedAdd m n = some (m + n) :=
        U128.checkedAdd_eq_some.mpr ⟨rfl, by omega⟩
      simp [hadd, okOr, bind, Except.bind, pure, Except.pure] at h
    · have hadd : U128.checkedAdd m a = none := by
        cases hx : U128.checkedAdd m a with
        | none => rfl
        | some x =>
          obtain ⟨rfl, hx⟩ := U128.checkedAdd_eq_some.mp hx
          exact absurd hx hmax
      simp only [hadd, okOr, bind, Except.bind]
      cases hx : U128.checkedAdd m n with
      | none => simpa [hx, okOr, bind, Except.bind] using h
      | some x => simp [hx, okOr, bind, Except.bind, pure, Except.pure] at h

end Paths

/-- The storage items the two calls write are the same. -/
structure SameBooks (s₁ s₂ : State cfg) : Prop where
  tokenPool : s₁.tokenPool = s₂.tokenPool
  tokenToRebond : s₁.tokenToRebond = s₂.tokenToRebond
  unlockLedgers : s₁.unlockLedgers = s₂.unlockLedgers
  vtokenIssuance : s₁.vtokenIssuance = s₂.vtokenIssuance
  ledger : s₁.ledger = s₂.ledger

/-- Between `s` and `s'` the pool of the currency and its amount to rebond grow alike. -/
def GrowAlike (s s' : State cfg) (c : CurrencyId) : Prop :=
  ∃ v n rebonded, s.tokenToVToken c = some v ∧ s.tokenToRebond c = some rebonded ∧
    s'.tokenPool v = s.tokenPool v + n ∧ s'.tokenToRebond c = some (rebonded + n)

/-- If `rebond_by_unlock_id` of a user's only record fails, so does the `rebond` of its amount.
If it goes through, `rebond` leads to the same storage, and in both the amount to rebond grows
with the pool, if and only if the mint fee on the amount is zero. -/
theorem rebond_paths_agree_iff (s : State cfg) (who : AccountId) (c : CurrencyId) (id : ℕ)
    (r : UnlockRecord AccountId) (h : OnlyRecord s who c id r) :
    (∀ e, rebondByUnlockId s who c id = .error e → rebond s who c r.amount = .error e) ∧
      ∀ s₂, rebondByUnlockId s who c id = .ok s₂ →
        ((∃ s₁, rebond s who c r.amount = .ok s₁ ∧ SameBooks s₁ s₂ ∧ GrowAlike s s₁ c ∧
          GrowAlike s s₂ c) ↔ s.fees.1.mulFloor r.amount = 0) := by
  rw [rebond_eq h, rebondByUnlockId_eq h]
  cases hback : takeBack s who c id r with
  | error e => exact ⟨fun _ he => he, fun _ hs => absurd hs (by simp)⟩
  | ok x =>
    obtain ⟨n, m, fee, s₀⟩ := x
    obtain ⟨hn, hrebond, v, hv, hpool⟩ := takeBack_ok hback
    constructor
    · intro e he
      simp only [bind, Except.bind] at he ⊢
      cases hadd : s₀.addToRebond c n with
      | error e' =>
        rw [hadd] at he
        cases he
        rw [addToRebond_error (by omega) hadd]
      | ok s₂ =>
        rw [hadd] at he
        cases he
    · intro s₂ h₂
      simp only [bind_eq_ok, pure_eq_ok] at h₂ ⊢
      obtain ⟨_, hx, s₃, h₃, rfl⟩ := h₂
      cases hx
      obtain ⟨m₀, hm₀, hs₃⟩ := addToRebond_ok h₃
      constructor
      · rintro ⟨s₁, ⟨_, hx, s₄, h₄, rfl⟩, hbooks, -, -⟩
        cases hx
        obtain ⟨m₁, hm₁, hs₄⟩ := addToRebond_ok h₄
        rw [hm₀] at hm₁
        cases hm₁
        have hsame := congrFun hbooks.tokenToRebond c
        simp only [hs₃, hs₄, State.depositEvent, Function.update_self, Option.some.injEq] at hsame
        omega
      · intro hfee
        have hna : n = r.amount := by omega
        subst n
        have hgrow : ∀ es, GrowAlike s ({ s₃ with events := es } : State cfg) c := by
          intro es
          refine ⟨v, r.amount, m₀, hv, by rw [← hrebond]; exact hm₀, ?_, ?_⟩
          · simp [hs₃, hpool]
          · simp [hs₃]
        exact ⟨_, ⟨_, rfl, s₃, h₃, rfl⟩, ⟨rfl, rfl, rfl, rfl, rfl⟩, hgrow _, hgrow _⟩

namespace Sample

/-- Account 1 has one record, of 400, and may rebond. -/
def oneRecord (mintFee : Permill) : List (Call config) :=
  [.setVtokenMultimap vEth [⟨hpEth, true⟩], .setOngoingTimeUnit hpEth (.era 1),
    .setUnlockDuration hpEth (.era 2), .addSupportRebondToken hpEth, .mint 1 hpEth 900 none,
    .redeem 1 (some hpEth) vEth 400 .native, .setFees mintFee .zero]

end Sample

theorem rebond_paths_agree_sample :
    let s := run step (genesis Sample.config Sample.balances) (Sample.oneRecord .zero)
    ∃ s₁ s₂, rebondByUnlockId s 1 hpEth 0 = .ok s₂ ∧ rebond s 1 hpEth 400 = .ok s₁ ∧
      SameBooks s₁ s₂ ∧ GrowAlike s s₁ hpEth ∧ GrowAlike s s₂ hpEth := by
  intro s
  have h : OnlyRecord s 1 hpEth 0 ⟨1, 400, .era 3, .native⟩ := by
    refine ⟨?_, ?_, ?_⟩
    · decide
    · decide
    · decide
  have hok : (rebondByUnlockId s 1 hpEth 0).toBool = true := by decide
  obtain ⟨s₂, h₂⟩ := exists_of_toBool hok
  have hiff := (rebond_paths_agree_iff s 1 hpEth 0 _ h).2 s₂ h₂
  obtain ⟨s₁, h₁, hrest⟩ := hiff.mpr (by decide)
  exact ⟨s₁, s₂, h₂, h₁, hrest⟩

/-- With a mint fee of five percent the pool grows by 380 in both, the amount to rebond by 400
in one and by 380 in the other. -/
theorem rebond_paths_differ :
    let s := run step (genesis Sample.config Sample.balances) (Sample.oneRecord ⟨50000, by decide⟩)
    let s₁ := exec step s (.rebond 1 hpEth 400)
    let s₂ := exec step s (.rebondByUnlockId 1 hpEth 0)
    OnlyRecord s 1 hpEth 0 ⟨1, 400, .era 3, .native⟩ ∧ (rebond s 1 hpEth 400).toBool = true ∧
      (rebondByUnlockId s 1 hpEth 0).toBool = true ∧ s.tokenPool vEth = 500 ∧
      s₁.tokenPool vEth = 880 ∧ s₂.tokenPool vEth = 880 ∧ s.tokenToRebond hpEth = some 0 ∧
      s₁.tokenToRebond hpEth = some 400 ∧ s₂.tokenToRebond hpEth = some 380 ∧
      ¬ SameBooks s₁ s₂ := by
  have hdiffer : ∀ s₁ s₂ : State Sample.config, s₁.tokenToRebond hpEth ≠ s₂.tokenToRebond hpEth →
      ¬ SameBooks s₁ s₂ := fun s₁ s₂ hne h => hne (congrFun h.tokenToRebond hpEth)
  refine ⟨⟨by decide, by decide, by decide⟩, by decide, by decide, by decide, by decide,
    by decide, by decide, by decide, by decide, hdiffer _ _ (by decide)⟩

end Bifrost.VtokenMinting
