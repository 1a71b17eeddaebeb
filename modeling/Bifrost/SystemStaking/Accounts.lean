import Bifrost.SystemStaking.Pallet
import Bifrost.VtokenMinting.Transitions

/-!
# Accounts of unbacked tokens

What the unlock records owe the pallet account is no more than what it waits for, that is no more
than the shadow amount, and the shadow amount is what was created and not destroyed. Calls of
others only take from the records, a redemption of the pallet adds to both, and a payment takes
from all. A top-up that is created but not minted, and an excess that is redeemed in another token
or that leaves a record without the callback, break the accounts.
-/

namespace Bifrost.SystemStaking

open Result Machine VtokenMinting Shares
set_option autoImplicit false

variable {AccountId : Type} [DecidableEq AccountId]

section Records

variable {limits : Limits} {L L' : UnlockLedgers AccountId} {account : AccountId} {n id : ℕ}
  {t : TimeUnit} {rt : Option (RedeemType AccountId)} {b : Bool}

def owedTo (a : AccountId) (L : UnlockLedgers AccountId) : ℕ :=
  L.token.sum fun _ r => if r.redeemer = a then r.amount else 0

theorem owedTo_add (a : AccountId) (h : L.update limits account n id t rt .add = .ok (b, L')) :
    owedTo a L' ≤ owedTo a L + if account = a then n else 0 := by
  obtain ⟨redeemType, -, -, -, rfl⟩ := update_add_ok h
  have hsum := Table.sum_write (fun _ (r : UnlockRecord AccountId) =>
    if r.redeemer = a then r.amount else 0) L.token id (some ⟨account, n, t, redeemType⟩)
  simp only [Table.weight_some] at hsum
  simp only [owedTo]
  omega

theorem owedTo_sub (a : AccountId) (h : L.update limits account n id t rt .sub = .ok (b, L')) :
    ∃ r, L.token.get id = some r ∧
      owedTo a L' + (if r.redeemer = a then min n r.amount else 0) = owedTo a L := by
  obtain ⟨r, g, g', hr, -, -, -, -, rfl⟩ := update_sub_ok h
  refine ⟨r, hr, ?_⟩
  have hsum := Table.sum_write (fun _ (r : UnlockRecord AccountId) =>
    if r.redeemer = a then r.amount else 0) L.token id
    (if r.amount ≤ n then none else some { r with amount := r.amount - n })
  rw [hr, Table.weight_some] at hsum
  unfold owedTo
  by_cases hle : r.amount ≤ n
  · simp only [if_pos hle, Table.weight_none] at hsum ⊢
    rw [Nat.min_eq_right hle]
    exact hsum
  · simp only [if_neg hle, Table.weight_some] at hsum ⊢
    rw [Nat.min_eq_left (by omega)]
    by_cases hown : r.redeemer = a
    · simp only [if_pos hown] at hsum ⊢
      omega
    · simp only [if_neg hown] at hsum ⊢
      omega

theorem owedTo_sub_le (a : AccountId) (h : L.update limits account n id t rt .sub = .ok (b, L')) :
    owedTo a L' ≤ owedTo a L := by
  obtain ⟨r, -, hsum⟩ := owedTo_sub a h
  omega

theorem owedTo_rebondLedgers (a : AccountId) {rebonder : AccountId} {ids : List ℕ} {temp : ℕ}
    (h : rebondLedgers limits rebonder ids temp L = .ok L') : owedTo a L' ≤ owedTo a L := by
  induction ids generalizing temp L with
  | nil =>
    simp only [rebondLedgers, pure_eq_ok] at h
    rw [h]
  | cons id ids ih =>
    simp only [rebondLedgers, bind_eq_ok, okOr_eq_ok] at h
    obtain ⟨r, -, ⟨b, L₁⟩, h₁, h⟩ := h
    have hfirst := owedTo_sub_le a h₁
    split at h
    · exact (ih h).trans hfirst
    · simp only [pure_eq_ok] at h
      rw [← h]
      exact hfirst

end Records

/-! The accounts. -/

/-- The accounts of a token whose unlock records owe the pallet account `owed`. -/
structure Accounted (st : Storage) (c : CurrencyId) (owed : ℕ) : Prop where
  owed : owed ≤ (st.info c).pendingRedeemAmount
  pending : (st.info c).pendingRedeemAmount ≤ (st.info c).systemShadowAmount
  shadow : (st.info c).systemShadowAmount ≤ u128Max
  created : st.created c = st.destroyed c + (st.info c).systemShadowAmount

theorem Accounted.anti {st : Storage} {c : CurrencyId} {m n : ℕ} (h : Accounted st c n)
    (hle : m ≤ n) : Accounted st c m :=
  ⟨hle.trans h.owed, h.pending, h.shadow, h.created⟩

@[simp] theorem info_setStatus (st : Storage) (c : CurrencyId) (info : TokenInfo) :
    (st.setStatus c info).info c = info := by
  simp [Storage.info, Storage.setStatus]

theorem info_setStatus_ne (st : Storage) {c d : CurrencyId} (hd : d ≠ c) (info : TokenInfo) :
    (st.setStatus c info).info d = st.info d := by
  simp [Storage.info, Storage.setStatus, hd]

theorem Accounted.other {st : Storage} {c d : CurrencyId} {n : ℕ} (h : Accounted st d n)
    (hd : d ≠ c) (info : TokenInfo) : Accounted (st.setStatus c info) d n := by
  constructor
  · rw [info_setStatus_ne st hd]
    exact h.owed
  · rw [info_setStatus_ne st hd]
    exact h.pending
  · rw [info_setStatus_ne st hd]
    exact h.shadow
  · rw [info_setStatus_ne st hd]
    exact h.created

variable {cfg : Config AccountId} {s s' : State cfg} {c : CurrencyId}

def State.owed (s : State cfg) (c : CurrencyId) : ℕ :=
  owedTo cfg.palletAccount (s.unlockLedgers c)

def Backed (s : State cfg) : Prop := ∀ c, Accounted s.storage c (s.owed c)

/-- Nothing of the pallet is touched, and its records shrink at most. -/
structure Quiet (s s' : State cfg) : Prop where
  storage : s'.storage = s.storage
  owed : ∀ c, s'.owed c ≤ s.owed c

theorem Quiet.of_eq (hstorage : s'.storage = s.storage)
    (hledgers : s'.unlockLedgers = s.unlockLedgers) : Quiet s s' :=
  ⟨hstorage, fun c => Nat.le_of_eq (by rw [State.owed, State.owed, hledgers])⟩

theorem Quiet.backed (h : Quiet s s') (hs : Backed s) : Backed s' := by
  intro c
  rw [h.storage]
  exact (hs c).anti (h.owed c)

theorem owed_update {ledgers : UnlockLedgers AccountId} {d : CurrencyId}
    (h : s'.unlockLedgers = Function.update s.unlockLedgers c ledgers) :
    s'.owed d = if d = c then owedTo cfg.palletAccount ledgers else s.owed d := by
  simp only [State.owed, h, Function.update_apply]
  split
  · rfl
  · rfl

theorem Quiet.of_update {ledgers : UnlockLedgers AccountId} (hstorage : s'.storage = s.storage)
    (hledgers : s'.unlockLedgers = Function.update s.unlockLedgers c ledgers)
    (hle : owedTo cfg.palletAccount ledgers ≤ s.owed c) : Quiet s s' := by
  refine ⟨hstorage, fun d => ?_⟩
  rw [owed_update hledgers]
  split
  · subst d
    exact hle
  · exact Nat.le_refl _

/-! What vtoken-minting does outside itself leaves the storage of the pallet alone. -/

theorem map_beside {ε α : Type} {r : Except ε α} {st : Storage} {w : α × Storage}
    (h : r.map (·, st) = .ok w) : w.2 = st := by
  cases r with
  | error e => cases h
  | ok L =>
    cases h
    rfl

theorem transfer_beside {w w' : cfg.World} {a b : AccountId} {n : ℕ}
    (h : cfg.minting.currency.transfer w c a b n = .ok w') : w'.2 = w.2 := map_beside h

theorem deposit_beside {w w' : cfg.World} {a : AccountId} {n : ℕ}
    (h : cfg.minting.currency.deposit w c a n = .ok w') : w'.2 = w.2 := map_beside h

theorem withdraw_beside {w w' : cfg.World} {a : AccountId} {n : ℕ}
    (h : cfg.minting.currency.withdraw w c a n = .ok w') : w'.2 = w.2 := map_beside h

theorem mint_quiet {minter : AccountId} {v : CurrencyId} {amount m : ℕ} {channel : Option ℕ}
    (h : doMint s minter c amount channel = .ok (v, m, s')) : Quiet s s' := by
  obtain ⟨n, fee, L, es, -, -, -, -, -, hs'⟩ := doMint_ok h
  obtain ⟨n, fee, w, w₁, w₂, -, hfee, hdeposit, hpay, hrecord⟩ := doMint_tokens h
  apply Quiet.of_eq
  · have hlast : s'.storage = w₂.2 := map_beside hrecord
    rw [hlast, transfer_beside hpay, deposit_beside hdeposit, transfer_beside hfee]
    rfl
  · rw [hs']
    rfl

/-! The callbacks. -/

section Callbacks

variable {R : Runtime AccountId} {w : R.World} {owed : CurrencyId → ℕ} {n : ℕ}

theorem redeemed_accounted (h : ∀ d, Accounted w.2 d (owed d))
    (hfits : (w.2.info c).pendingRedeemAmount + n ≤ (w.2.info c).systemShadowAmount)
    (d : CurrencyId) :
    Accounted (onRedeemed R w R.palletAccount c n).2 d (owed d + if d = c then n else 0) := by
  have hshadow := (h c).shadow
  have hpending : U128.saturatingAdd (w.2.info c).pendingRedeemAmount n =
      (w.2.info c).pendingRedeemAmount + n := Nat.min_eq_left (by omega)
  simp only [onRedeemed, ne_eq, not_true_eq_false, if_false, hpending]
  by_cases hd : d = c
  · subst d
    have hc := h c
    rw [if_pos rfl]
    constructor
    · rw [info_setStatus]
      exact Nat.add_le_add_right hc.owed n
    · rw [info_setStatus]
      exact hfits
    · rw [info_setStatus]
      exact hc.shadow
    · rw [info_setStatus]
      exact hc.created
  · rw [if_neg hd]
    exact (h d).other hd _

theorem paid_accounted (h : ∀ d, Accounted w.2 d (owed d + if d = c then n else 0))
    (d : CurrencyId) : Accounted (onRedeemSuccess R w c R.palletAccount n).2 d (owed d) := by
  have hc := h c
  rw [if_pos rfl] at hc
  have howed := hc.owed
  have hpending := hc.pending
  have hshadow := hc.shadow
  have hcreated := hc.created
  simp only [onRedeemSuccess, ne_eq, not_true_eq_false, if_false]
  cases R.outside.currency.withdraw w.1 c R.palletAccount n with
  | error e =>
    by_cases hd : d = c
    · subst d
      constructor
      · rw [info_setStatus]
        simp only
        omega
      · rw [info_setStatus]
        simp only
        omega
      · rw [info_setStatus]
        exact hshadow
      · rw [info_setStatus]
        exact hcreated
    · have hother := (h d).other hd
        { w.2.info c with pendingRedeemAmount := (w.2.info c).pendingRedeemAmount - n }
      rw [if_neg hd] at hother
      exact hother
  | ok L =>
    by_cases hd : d = c
    · subst d
      constructor
      · rw [info_setStatus]
        simp only
        omega
      · rw [info_setStatus]
        simp only
        omega
      · rw [info_setStatus]
        simp only
        omega
      · rw [info_setStatus]
        simp only [Storage.setStatus, Storage.destroy, Function.update_self]
        omega
    · have hbefore := h d
      rw [if_neg hd] at hbefore
      have hdestroyed : Accounted (w.2.destroy c n) d (owed d) := by
        refine ⟨hbefore.owed, hbefore.pending, hbefore.shadow, ?_⟩
        simp only [Storage.destroy, Function.update_of_ne hd]
        exact hbefore.created
      exact hdestroyed.other hd _

theorem onRedeemed_other {address : AccountId} (ha : R.palletAccount ≠ address) :
    onRedeemed R w address c n = w := if_pos ha

theorem onRedeemSuccess_other {to_ : AccountId} (ha : R.palletAccount ≠ to_) :
    onRedeemSuccess R w c to_ n = w := if_pos ha

end Callbacks

/-! The calls of vtoken-minting. -/

theorem mintWithoutTransfer_storage {minter : AccountId} {v : CurrencyId} {amount n m fee : ℕ}
    (h : mintWithoutTransfer s minter v c amount = .ok (n, m, fee, s')) :
    s'.storage = s.storage := by
  obtain ⟨-, w, hfee, hdeposit⟩ := mintWithoutTransfer_tokens h
  have hlast : s'.storage = w.2 := deposit_beside hdeposit
  rw [hlast, transfer_beside hfee]
  rfl

theorem rebond_quiet {who : AccountId} {amount : ℕ} (h : rebond s who c amount = .ok s') :
    Quiet s s' := by
  obtain ⟨g, ledgers, target, n, m, fee, rebonded, w, es, -, -, hledgers, -, -, -, -, hs'⟩ :=
    rebond_ok h
  simp only [rebond, bind_eq_ok, pure_eq_ok] at h
  obtain ⟨v, -, g, -, -, -, s₁, h₁, ⟨n, m, fee, s₂⟩, h₂, s₃, h₃, hlast⟩ := h
  obtain ⟨ledgers', -, rfl⟩ := rebondLoop_ok h₁
  obtain ⟨k, -, rfl⟩ := addToRebond_ok h₃
  have hupdate : s'.unlockLedgers = Function.update s.unlockLedgers c ledgers := by
    rw [hs']
    rfl
  have hstorage := mintWithoutTransfer_storage h₂
  refine Quiet.of_update ?_ hupdate (owedTo_rebondLedgers _ hledgers)
  rw [← hlast]
  exact hstorage

theorem rebondByUnlockId_quiet {who : AccountId} {id : ℕ}
    (h : rebondByUnlockId s who c id = .ok s') : Quiet s s' := by
  obtain ⟨r, b, ledgers, target, n, m, fee, rebonded, w, es, -, -, hledgers, -, -, -, -, hs'⟩ :=
    rebondByUnlockId_ok h
  simp only [rebondByUnlockId, bind_eq_ok, pure_eq_ok] at h
  obtain ⟨v, -, r, -, -, -, ⟨b, s₁⟩, h₁, ⟨n, m, fee, s₂⟩, h₂, s₃, h₃, hlast⟩ := h
  obtain ⟨ledgers', -, rfl⟩ := updateUnlockLedger_ok h₁
  obtain ⟨k, -, rfl⟩ := addToRebond_ok h₃
  have hupdate : s'.unlockLedgers = Function.update s.unlockLedgers c ledgers := by
    rw [hs']
    rfl
  have hstorage := mintWithoutTransfer_storage h₂
  refine Quiet.of_update ?_ hupdate (owedTo_sub_le _ hledgers)
  rw [← hlast]
  exact hstorage

theorem redeem_ok {redeemer : AccountId} {oc : Option CurrencyId} {v : CurrencyId} {amount : ℕ}
    {rt : RedeemType AccountId} (h : doRedeem s redeemer oc v amount rt = .ok s') :
    ∃ d w, redeemCurrency s oc v = .ok d ∧ w.2 = s.storage ∧
      s'.world = onRedeemed cfg.toRuntime w redeemer d (VtokenMinting.State.redemption s d v amount) ∧
      ∀ e, s'.owed e ≤ s.owed e + if e = d ∧ redeemer = cfg.palletAccount then
        VtokenMinting.State.redemption s d v amount else 0 := by
  obtain ⟨d, target, n, t, ledgers, w, es, hd, -, htarget, hn, -, -, -, -, hledgers, hs'⟩ :=
    doRedeem_ok h
  obtain ⟨d', w, w₁, w₂, hd', hfee, hburn, hrecord, hworld⟩ := doRedeem_tokens h
  rw [hd] at hd'
  cases hd'
  have hredemption : n = VtokenMinting.State.redemption s d v amount := by
    rw [hn, VtokenMinting.State.redemption, getTokenPool_of_mapped htarget]
  refine ⟨d, w₂, hd, ?_, hworld, fun e => ?_⟩
  · have hlast : w₂.2 = w₁.2 := map_beside hrecord
    rw [hlast, withdraw_beside hburn, transfer_beside hfee]
    rfl
  · have hupdate : s'.unlockLedgers = Function.update s.unlockLedgers d ledgers := by
      rw [hs']
      rfl
    rw [owed_update hupdate]
    have hadd := owedTo_add cfg.palletAccount hledgers
    rw [← hredemption]
    by_cases he : e = d
    · subst e
      rw [if_pos rfl]
      simp only [true_and]
      exact hadd
    · rw [if_neg he]
      exact Nat.le_add_right _ _

theorem redeem_other_quiet {redeemer : AccountId} {oc : Option CurrencyId} {v : CurrencyId}
    {amount : ℕ} {rt : RedeemType AccountId} (hother : redeemer ≠ cfg.palletAccount)
    (h : doRedeem s redeemer oc v amount rt = .ok s') : Quiet s s' := by
  obtain ⟨d, w, -, hw, hworld, howed⟩ := redeem_ok h
  rw [onRedeemed_other hother.symm] at hworld
  refine ⟨?_, fun e => ?_⟩
  · rw [State.storage, hworld, hw]
  · have hle := howed e
    rwa [if_neg (fun hboth => hother hboth.2), Nat.add_zero] at hle

/-! The redeem queue. -/

theorem sent_beside {redeemer : AccountId} {n : ℕ} {rt : RedeemType AccountId}
    {w w' : cfg.World} (h : Sent cfg.minting c redeemer n rt w w') : w'.2 = w.2 := by
  have hxcm : ∀ dest, SentByXcm cfg.minting c n dest w w' → w'.2 = w.2 := by
    intro dest hsent
    unfold SentByXcm at hsent
    split at hsent
    · exact map_beside hsent
    · exact map_beside hsent
  cases rt with
  | native => exact transfer_beside h
  | hyperBridge dest receiver =>
    obtain ⟨payer, fee, -, hsent⟩ := h
    exact map_beside hsent
  | astar | moonbeam | hydradx | interlay | manta =>
    obtain ⟨dest, redeemTo, -, hsent⟩ := h
    exact hxcm dest hsent

theorem processRedeem_backed {id balance : ℕ} {r : UnlockRecord AccountId} (hs : Backed s)
    (hr : (s.unlockLedgers c).token.get id = some r)
    (h : processRedeem s c r.redeemer id r.amount balance r.timeUnit r.redeemType = .ok s') :
    Backed s' := by
  obtain ⟨n, (w : cfg.World), hle, -, hpaid, hcase⟩ := processRedeem_ok h
  have hbeside : w.2 = s.storage := by
    rcases hpaid with hsent | ⟨rfl, -⟩
    · exact sent_beside hsent
    · rfl
  rcases hcase with ⟨-, rfl⟩ | ⟨-, b, ledgers, redeemTo, hledgers, hs'⟩
  · have hquiet : Quiet s (s.served c (s.unlockLedgers c) w []) :=
      Quiet.of_update hbeside rfl (Nat.le_refl _)
    exact hquiet.backed hs
  · have hupdate : s'.unlockLedgers = Function.update s.unlockLedgers c ledgers := by
      rw [hs']
      rfl
    have hworld : s'.world = onRedeemSuccess cfg.toRuntime w c r.redeemer n := by
      rw [hs']
      rfl
    obtain ⟨r', hr', hsum⟩ := owedTo_sub cfg.palletAccount hledgers
    rw [hr] at hr'
    cases hr'
    by_cases hown : r.redeemer = cfg.palletAccount
    · rw [if_pos hown, Nat.min_eq_left hle] at hsum
      rw [hown] at hworld
      intro d
      rw [State.storage, hworld]
      apply paid_accounted
      intro e
      rw [hbeside]
      apply (hs e).anti
      rw [owed_update hupdate]
      by_cases he : e = c
      · subst e
        rw [if_pos rfl, if_pos rfl]
        exact Nat.le_of_eq hsum
      · rw [if_neg he, if_neg he]
        exact Nat.le_refl _
    · rw [onRedeemSuccess_other (Ne.symm hown)] at hworld
      have hquiet : Quiet s s' := by
        apply Quiet.of_update _ hupdate
        · rw [if_neg hown] at hsum
          exact Nat.le_of_eq hsum
        · rw [State.storage, hworld]
          exact hbeside
      exact hquiet.backed hs

theorem processRecords_backed {ids : List ℕ} (hs : Backed s)
    (h : processRecords c ids s = .ok s') : Backed s' := by
  induction ids generalizing s with
  | nil =>
    simp only [processRecords, pure_eq_ok] at h
    rw [← h]
    exact hs
  | cons id ids ih =>
    unfold processRecords at h
    split at h
    · exact ih hs h
    · rename_i r hr
      split at h
      · simp only [pure_eq_ok] at h
        rw [← h]
        exact hs
      · simp only [bind_eq_ok] at h
        obtain ⟨s₁, h₁, h⟩ := h
        exact ih (processRedeem_backed hs hr h₁) h

theorem handleLedgerByCurrency_backed (hs : Backed s)
    (h : handleLedgerByCurrency s c = .ok s') : Backed s' := by
  simp only [handleLedgerByCurrency] at h
  split at h
  · exact processRecords_backed hs h
  · simp only [bind_eq_ok] at h
    obtain ⟨duration, -, ongoing, -, result, -, h⟩ := h
    split at h
    · simp only [pure_eq_ok] at h
      subst s'
      exact hs
    · simp only [pure_eq_ok] at h
      subst s'
      exact hs

theorem onIdle_backed {order : List CurrencyId} (hs : Backed s)
    (h : onIdle s order = .ok s') : Backed s' := by
  simp only [onIdle, bind_eq_ok, pure_eq_ok] at h
  obtain ⟨-, -, rfl⟩ := h
  induction order generalizing s with
  | nil => exact hs
  | cons c order ih =>
    apply ih
    unfold handleOrFail
    cases hhandled : handleLedgerByCurrency s c with
    | ok s₁ => exact handleLedgerByCurrency_backed hs hhandled
    | error e => exact hs

end Bifrost.SystemStaking
