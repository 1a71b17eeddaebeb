import Bifrost.FeeShare.Proportions

/-!
# Sharing out a balance

Proportions that are one share out a balance in full, up to less than a unit for each receiver and
the shares that are passed over. The fee account never lacks a share as long as it outlives its
payments: what it keeps while shares are still owed must not be swept.
-/

namespace Bifrost.FeeShare

open Result Machine
set_option autoImplicit false

variable {AccountId : Type} {P : Payments AccountId} {L L' : P.Ledger} {currency c : CurrencyId}
  {source : AccountId} {amount : ℕ} {receiver : AccountId × Perbill}
  {receivers : List (AccountId × Perbill)} {currencies : List CurrencyId}

/-! The shares of an amount. -/

def shares (receivers : List (AccountId × Perbill)) (amount : ℕ) : List ℕ :=
  receivers.map fun r => r.2.mulFloor amount

/-- The proportions listed are one. -/
def SumToOne (receivers : List (AccountId × Perbill)) : Prop :=
  (receivers.map fun r => r.2.parts).sum = Perbill.accuracy

theorem shares_eq_parts (receivers : List (AccountId × Perbill)) (amount : ℕ) :
    shares receivers amount = (receivers.map fun r => r.2.parts).map
      fun w => Proportion.part w Perbill.accuracy amount := by
  rw [List.map_map]
  apply List.map_congr_left
  intro r _
  simp only [Function.comp_apply, Perbill.mulFloor, Proportion.part, Nat.mul_comm]

theorem sum_shares_le (h : SumToOne receivers) (amount : ℕ) :
    (shares receivers amount).sum ≤ amount := by
  rw [shares_eq_parts]
  exact Proportion.sum_map_part_le (by decide) h amount

theorem lt_sum_shares (h : SumToOne receivers) (amount : ℕ) :
    amount < (shares receivers amount).sum + receivers.length := by
  have hlt := Proportion.lt_sum_map_part (by decide) h amount
  rw [List.length_map] at hlt
  rw [shares_eq_parts]
  exact hlt

/-- An account with a balance of `b` keeps at least the minimum after each of the payments that
another positive one follows. -/
def Survives (minimum : ℕ) : ℕ → List ℕ → Prop
  | _, [] => True
  | b, n :: ns => (minimum + n ≤ b ∨ ns.sum = 0) ∧ Survives minimum (b - n) ns

instance decidableSurvives (minimum : ℕ) : ∀ b ns, Decidable (Survives minimum b ns)
  | _, [] => .isTrue trivial
  | b, n :: ns =>
    have := decidableSurvives minimum (b - n) ns
    inferInstanceAs (Decidable (_ ∧ _))

theorem Survives.mono {minimum b b' : ℕ} {ns : List ℕ} (h : Survives minimum b ns) (hb : b ≤ b') :
    Survives minimum b' ns := by
  induction ns generalizing b b' with
  | nil => trivial
  | cons n ns ih =>
    refine ⟨?_, ih h.2 (by omega)⟩
    rcases h.1 with hlives | hlast
    · exact Or.inl (by omega)
    · exact Or.inr hlast

theorem survives_of_sum_eq_zero {minimum b : ℕ} {ns : List ℕ} (h : ns.sum = 0) :
    Survives minimum b ns := by
  induction ns generalizing b with
  | nil => trivial
  | cons n ns ih =>
    rw [List.sum_cons] at h
    exact ⟨Or.inr (by omega), ih (by omega)⟩

/-! One share. -/

theorem sendShare_ok (h : sendShare P currency source amount L receiver = .ok L') :
    (receiver.2.mulFloor amount < P.minimumBalance currency ∧ L' = L) ∨
      P.transfer L currency source receiver.1 (receiver.2.mulFloor amount) = .ok L' := by
  simp only [sendShare] at h
  split at h
  · rename_i hlow
    simp only [bind_eq_ok] at h
    obtain ⟨after, -, h⟩ := h
    split at h
    · rw [pure_eq_ok] at h
      exact Or.inl ⟨hlow, h.symm⟩
    · exact Or.inr (mapErr_eq_ok.mp h)
  · exact Or.inr (mapErr_eq_ok.mp h)

theorem mapErr_token_low {x : Except TokenError P.Ledger}
    (h : mapErr x Fault.token = .error (.token .balanceTooLow)) : x = .error .balanceTooLow := by
  cases x with
  | ok L => simp [mapErr] at h
  | error e =>
    simp only [mapErr, Except.error.injEq, Fault.token.injEq] at h
    rw [h]

theorem sendShare_low
    (h : sendShare P currency source amount L receiver = .error (.token .balanceTooLow)) :
    P.freeBalance L currency source < receiver.2.mulFloor amount := by
  apply P.transfer_low (b := receiver.1)
  simp only [sendShare] at h
  split at h
  · cases hafter : U128.checkedAdd (P.totalBalance L currency receiver.1)
        (receiver.2.mulFloor amount) with
    | none => simp [hafter, okOr, bind, Except.bind] at h
    | some after =>
      simp only [hafter, okOr, bind, Except.bind] at h
      split at h
      · simp [pure, Except.pure] at h
      · exact mapErr_token_low h
  · exact mapErr_token_low h

/-- Money only leaves the payer, and reaches the others. -/
def Flows (source : AccountId) (L L' : P.Ledger) : Prop :=
  (∀ d, P.freeBalance L' d source ≤ P.freeBalance L d source) ∧
    ∀ d x, x ≠ source → P.freeBalance L d x ≤ P.freeBalance L' d x

theorem Flows.refl (source : AccountId) (L : P.Ledger) : Flows source L L :=
  ⟨fun _ => Nat.le_refl _, fun _ _ _ => Nat.le_refl _⟩

theorem Flows.trans {L'' : P.Ledger} (h : Flows source L L') (h' : Flows source L' L'') :
    Flows source L L'' :=
  ⟨fun d => (h'.1 d).trans (h.1 d), fun d x hx => (h.2 d x hx).trans (h'.2 d x hx)⟩

theorem sendShare_flows (h : sendShare P currency source amount L receiver = .ok L') :
    Flows source L L' := by
  rcases sendShare_ok h with ⟨-, rfl⟩ | h
  · exact Flows.refl source L'
  · exact ⟨Payments.transfer_le h, fun d x hx => Payments.transfer_ge h d hx⟩

def Leaves (d : CurrencyId) (L L' : P.Ledger) : Prop :=
  ∀ x, P.freeBalance L' d x = P.freeBalance L d x

theorem sendShare_leaves {d : CurrencyId} (hd : d ≠ currency)
    (h : sendShare P currency source amount L receiver = .ok L') : Leaves d L L' := by
  rcases sendShare_ok h with ⟨-, rfl⟩ | h
  · exact fun _ => rfl
  · exact fun x => P.transfer_frame h (Or.inr hd)

/-! All shares of one token. -/

theorem sendShares_rel {R : P.Ledger → P.Ledger → Prop} (hrefl : ∀ L, R L L)
    (htrans : ∀ {L L' L''}, R L L' → R L' L'' → R L L'')
    (hstep : ∀ L r L', sendShare P currency source amount L r = .ok L' → R L L')
    (L : P.Ledger) : R L (sendShares P currency source amount L receivers).1 := by
  apply Attempt.tryForEach_rel hrefl htrans
  intro L r
  cases h : sendShare P currency source amount L r with
  | ok L' => exact hstep L r L' h
  | error e => exact hrefl L

theorem sendShares_flows (L : P.Ledger) :
    Flows source L (sendShares P currency source amount L receivers).1 :=
  sendShares_rel (Flows.refl source) Flows.trans (fun _ _ _ => sendShare_flows) L

theorem sendShares_leaves {d : CurrencyId} (hd : d ≠ currency) (L : P.Ledger) :
    Leaves d L (sendShares P currency source amount L receivers).1 :=
  sendShares_rel (fun _ _ => rfl) (fun h h' x => (h' x).trans (h x))
    (fun _ _ _ => sendShare_leaves hd) L

theorem sendShares_never_low (hself : ∀ r ∈ receivers, r.1 ≠ source)
    (hsum : (shares receivers amount).sum ≤ P.freeBalance L currency source)
    (hlives : P.keepsDust currency source = true ∨ Survives (P.minimumBalance currency)
      (P.freeBalance L currency source) (shares receivers amount)) :
    (sendShares P currency source amount L receivers).2 ≠ some (.token .balanceTooLow) := by
  induction receivers generalizing L with
  | nil => simp [sendShares]
  | cons r rs ih =>
    obtain ⟨hr, hrs⟩ := List.forall_mem_cons.mp hself
    have hshares : shares (r :: rs) amount = r.2.mulFloor amount :: shares rs amount := rfl
    rw [hshares, List.sum_cons] at hsum
    rw [hshares] at hlives
    rw [sendShares, Attempt.tryForEach]
    cases hsend : sendShare P currency source amount L r with
    | error e =>
      intro hlow
      have he : e = .token .balanceTooLow := by simpa [Attempt.atomic] using hlow
      have hlt := sendShare_low (he ▸ hsend)
      omega
    | ok L₁ =>
      simp only [Attempt.atomic_ok]
      rcases sendShare_ok hsend with ⟨-, rfl⟩ | htransfer
      · apply ih hrs (by omega)
        exact hlives.imp_right fun h => h.2.mono (Nat.sub_le _ _)
      · rcases hlives with hkeeps | ⟨henough | hlast, hrest⟩
        · have hexact := Payments.transfer_exact htransfer hr.symm (Or.inl hkeeps)
          exact ih hrs (by omega) (Or.inl hkeeps)
        · have hexact := Payments.transfer_exact htransfer hr.symm (Or.inr henough)
          exact ih hrs (by omega) (Or.inr (hrest.mono (by omega)))
        · exact ih hrs (by omega) (Or.inr (survives_of_sum_eq_zero hlast))

/-- What became of the balance `L` gives: the shares passed over are below the minimum balance,
the others are paid, and what is left is less than a unit each and the shares passed over. -/
structure SharedOut (L L' : P.Ledger) (currency : CurrencyId) (source : AccountId)
    (receivers unpaid : List (AccountId × Perbill)) : Prop where
  sublist : unpaid.Sublist receivers
  low : ∀ r ∈ unpaid,
    r.2.mulFloor (P.freeBalance L currency source) < P.minimumBalance currency
  paid : ∀ r ∈ receivers, r ∉ unpaid →
    P.freeBalance L currency r.1 + r.2.mulFloor (P.freeBalance L currency source) ≤
      P.freeBalance L' currency r.1
  left : P.freeBalance L' currency source <
    receivers.length + (shares unpaid (P.freeBalance L currency source)).sum

theorem sendShares_paid (hself : ∀ r ∈ receivers, r.1 ≠ source)
    (h : sendShares P currency source amount L receivers = (L', none)) :
    ∃ unpaid : List (AccountId × Perbill), unpaid.Sublist receivers ∧
      (∀ r ∈ unpaid, r.2.mulFloor amount < P.minimumBalance currency) ∧
      (∀ r ∈ receivers, r ∉ unpaid →
        P.freeBalance L currency r.1 + r.2.mulFloor amount ≤ P.freeBalance L' currency r.1) ∧
      P.freeBalance L' currency source + (shares receivers amount).sum ≤
        P.freeBalance L currency source + (shares unpaid amount).sum := by
  induction receivers generalizing L with
  | nil =>
    simp only [sendShares, Attempt.tryForEach_nil, Prod.mk.injEq, and_true] at h
    subst L'
    exact ⟨[], List.Sublist.refl _, by simp, by simp, Nat.le_refl _⟩
  | cons r rs ih =>
    obtain ⟨hr, hrs⟩ := List.forall_mem_cons.mp hself
    obtain ⟨L₁, hsend, hrest⟩ := Attempt.tryForEach_cons_eq_done.mp h
    rw [Attempt.atomic_eq_done] at hsend
    obtain ⟨unpaid, hsub, hlow, hpaid, hleft⟩ := ih hrs hrest
    have hflows : Flows source L₁ L' := by
      have hrel : Flows source L₁ (sendShares P currency source amount L₁ rs).1 :=
        sendShares_flows L₁
      rw [sendShares, hrest] at hrel
      exact hrel
    have hfirst := sendShare_flows hsend
    have hrests (x : AccountId × Perbill) (hx : x ∈ rs) (hnot : x ∉ unpaid) :
        P.freeBalance L currency x.1 + x.2.mulFloor amount ≤ P.freeBalance L' currency x.1 := by
      have hgain := hpaid x hx hnot
      have hmore := hfirst.2 currency x.1 (hrs x hx)
      omega
    have hshares : (shares (r :: rs) amount).sum = r.2.mulFloor amount + (shares rs amount).sum :=
      List.sum_cons
    rcases sendShare_ok hsend with ⟨hshare, rfl⟩ | htransfer
    · have hunpaid : (shares (r :: unpaid) amount).sum =
          r.2.mulFloor amount + (shares unpaid amount).sum := List.sum_cons
      refine ⟨r :: unpaid, hsub.cons_cons r, List.forall_mem_cons.mpr ⟨hshare, hlow⟩, ?_, by omega⟩
      intro x hx hnot
      rw [List.mem_cons, not_or] at hnot
      exact hrests x ((List.mem_cons.mp hx).resolve_left hnot.1) hnot.2
    · have hpays := Payments.transfer_pays htransfer hr.symm
      refine ⟨unpaid, hsub.cons r, hlow, ?_, by omega⟩
      intro x hx hnot
      rcases List.mem_cons.mp hx with rfl | hx
      · have hgot := (P.transfer_credits htransfer hr.symm).1
        have hmore := hflows.2 currency x.1 hr
        omega
      · exact hrests x hx hnot

/-! All tokens of a distribution. -/

/-- What each token of a list needs for its shares to be there in full. -/
def Outlives (receivers : List (AccountId × Perbill)) (source : AccountId) (L : P.Ledger)
    (currencies : List CurrencyId) : Prop :=
  ∀ c ∈ currencies, P.keepsDust c source = true ∨ (currencies.count c = 1 ∧
    Survives (P.minimumBalance c) (P.freeBalance L c source)
      (shares receivers (P.freeBalance L c source)))

theorem Outlives.tail
    (h : Outlives receivers source L (c :: currencies)) (hleaves : ∀ d, d ≠ c → Leaves d L L') :
    Outlives receivers source L' currencies := by
  intro d hd
  rcases h d (List.mem_cons_of_mem c hd) with hkeeps | ⟨honce, hlives⟩
  · exact Or.inl hkeeps
  · have hne : d ≠ c := by
      rintro rfl
      have hmore := List.count_pos_iff.mpr hd
      rw [List.count_cons_self] at honce
      omega
    rw [List.count_cons_of_ne hne.symm] at honce
    rw [hleaves d hne source]
    exact Or.inr ⟨honce, hlives⟩

theorem shareTokens_never_low (hself : ∀ r ∈ receivers, r.1 ≠ source)
    (hone : SumToOne receivers) (hlives : Outlives receivers source L currencies) :
    (Attempt.tryForEach (shareToken P source receivers) L currencies).2 ≠
      some (.token .balanceTooLow) := by
  induction currencies generalizing L with
  | nil => simp
  | cons c cs ih =>
    have hfirst : (shareToken P source receivers L c).2 ≠ some (.token .balanceTooLow) :=
      sendShares_never_low hself (sum_shares_le hone _)
        ((hlives c List.mem_cons_self).imp_right And.right)
    have hleaves (d : CurrencyId) (hd : d ≠ c) :
        Leaves d L (shareToken P source receivers L c).1 := sendShares_leaves hd L
    rw [Attempt.tryForEach]
    generalize shareToken P source receivers L c = r at hfirst hleaves
    obtain ⟨L₁, e⟩ := r
    cases e with
    | none => exact ih (hlives.tail hleaves)
    | some e => exact hfirst

theorem shareTokens_flows (currencies : List CurrencyId) (L : P.Ledger) :
    Flows source L (Attempt.tryForEach (shareToken P source receivers) L currencies).1 :=
  Attempt.tryForEach_rel (Flows.refl source) Flows.trans (fun L _ => sendShares_flows L)
    currencies L

theorem shareTokens_leaves (hc : c ∉ currencies) (L : P.Ledger) :
    Leaves c L (Attempt.tryForEach (shareToken P source receivers) L currencies).1 := by
  induction currencies generalizing L with
  | nil => exact fun _ => rfl
  | cons d ds ih =>
    rw [List.mem_cons, not_or] at hc
    have hfirst : Leaves c L (shareToken P source receivers L d).1 := sendShares_leaves hc.1 L
    rw [Attempt.tryForEach]
    generalize shareToken P source receivers L d = r at hfirst
    obtain ⟨L₁, e⟩ := r
    cases e with
    | none => exact fun x => (ih hc.2 L₁ x).trans (hfirst x)
    | some e => exact hfirst

theorem shareTokens_paid (hself : ∀ r ∈ receivers, r.1 ≠ source)
    (hone : SumToOne receivers) (hc : c ∈ currencies)
    (h : Attempt.tryForEach (shareToken P source receivers) L currencies = (L', none)) :
    ∃ unpaid, SharedOut L L' c source receivers unpaid := by
  obtain ⟨before, after, rfl, hbefore⟩ := List.eq_append_cons_of_mem hc
  obtain ⟨L₁, h₁, h⟩ := Attempt.tryForEach_append_eq_done.mp h
  obtain ⟨L₂, h₂, h₃⟩ := Attempt.tryForEach_cons_eq_done.mp h
  have hsame : Leaves c L L₁ := by
    have hleaves : Leaves c L (Attempt.tryForEach (shareToken P source receivers) L before).1 :=
      shareTokens_leaves hbefore L
    rw [h₁] at hleaves
    exact hleaves
  have hflows : Flows source L₂ L' := by
    have hrest : Flows source L₂
        (Attempt.tryForEach (shareToken P source receivers) L₂ after).1 :=
      shareTokens_flows after L₂
    rw [h₃] at hrest
    exact hrest
  obtain ⟨unpaid, hsub, hlow, hpaid, hleft⟩ := sendShares_paid hself h₂
  rw [hsame source] at hlow hpaid hleft
  refine ⟨unpaid, hsub, hlow, fun r hr hnot => ?_, ?_⟩
  · have hgot := hpaid r hr hnot
    have hmore := hflows.2 c r.1 (hself r hr)
    rw [hsame r.1] at hgot
    omega
  · have hless := hflows.1 c
    have hall := lt_sum_shares hone (P.freeBalance L c source)
    omega

/-! Distributions. -/

variable {cfg : Config AccountId} {s : State cfg}

theorem sumToOne_receivers {t : Table AccountId Perbill} (h : parts t = Perbill.accuracy) :
    SumToOne (cfg.receivers t) := by
  rw [SumToOne, ← h]
  have hperm := (cfg.receivers_perm t).map fun r => r.2.parts
  exact hperm.sum_eq

/-- The fee account pays others, and outlives its payments. -/
def Pays (s : State cfg) (id : ℕ) (info : Info AccountId) : Prop :=
  let receivers := cfg.receivers (s.tokensProportions id)
  (∀ r ∈ receivers, r.1 ≠ info.feeShareAccountId) ∧
    Outlives receivers info.feeShareAccountId s.ledger info.tokenType

/-- A distribution that does not collect shares out the balances of its tokens. -/
def SharesOut (s : State cfg) (id : ℕ) (info : Info AccountId) : Prop :=
  s.collecting id = none →
    (s.executeDistributeInner id info).2 ≠ some (.token .balanceTooLow) ∧
      ∀ s', s.executeDistributeInner id info = (s', none) → ∀ c ∈ info.tokenType, ∃ unpaid,
        SharedOut s.ledger s'.ledger c info.feeShareAccountId
          (cfg.receivers (s.tokensProportions id)) unpaid

theorem usdValue_never_low {infos : Info AccountId} :
    s.usdValue infos ≠ .error (.token .balanceTooLow) := by
  have hvalue (c : CurrencyId) (amount : ℕ) :
      s.getAssetValue c amount ≠ .error (.token .balanceTooLow) := by
    unfold State.getAssetValue State.getPrice
    cases s.price c with
    | none => simp [okOr, bind, Except.bind]
    | some price =>
      by_cases hzero : price = FixedU128.zero
      · simp [okOr, ensure, hzero, bind, Except.bind]
      · cases hmul : price.checkedMul ⟨min amount u128Max⟩ with
        | none => simp [okOr, ensure, hzero, hmul, bind, Except.bind, pure, Except.pure]
        | some value => simp [okOr, ensure, hzero, hmul, bind, Except.bind, pure, Except.pure]
  have hsum (currencies : List CurrencyId) (total : FixedU128) :
      currencies.foldlM (fun total currency => do
        let amount := cfg.payments.freeBalance s.ledger currency infos.feeShareAccountId
        let value ← s.getAssetValue currency amount
        okOr (total.checkedAdd value) .overflow) total ≠ .error (.token .balanceTooLow) := by
    induction currencies generalizing total with
    | nil => simp [pure, Except.pure]
    | cons c cs ih =>
      rw [List.foldlM_cons]
      cases hget : s.getAssetValue c
          (cfg.payments.freeBalance s.ledger c infos.feeShareAccountId) with
      | error e =>
        intro he
        have hlow := hvalue c (cfg.payments.freeBalance s.ledger c infos.feeShareAccountId)
        rw [hget] at hlow
        simp only [hget, bind, Except.bind, Except.error.injEq] at he
        exact hlow (he ▸ rfl)
      | ok value =>
        cases hadd : total.checkedAdd value with
        | none => simp [hget, hadd, okOr, bind, Except.bind]
        | some total' => simpa [hget, hadd, okOr, bind, Except.bind] using ih total'
  exact hsum infos.tokenType FixedU128.zero

theorem sharesOut_of_whole {id : ℕ} {info : Info AccountId}
    (hparts : parts (s.tokensProportions id) = Perbill.accuracy) (hpays : Pays s id info) :
    SharesOut s id info := by
  intro hdistributing
  have hone : SumToOne (cfg.receivers (s.tokensProportions id)) := sumToOne_receivers hparts
  unfold State.executeDistributeInner
  cases hvalue : s.usdValue info with
  | error e =>
    refine ⟨fun he => ?_, fun s' h => ?_⟩
    · rw [Option.some.inj he] at hvalue
      exact usdValue_never_low hvalue
    · simp at h
  | ok value =>
    simp only [hdistributing, State.withLedger]
    refine ⟨shareTokens_never_low hpays.1 hone hpays.2, fun s' h c hc => ?_⟩
    obtain ⟨hledger, hdone⟩ := Prod.mk.inj h
    have hrun : s.shareOut id info = (s'.ledger, none) := by
      rw [← hledger, ← hdone]
    exact shareTokens_paid hpays.1 hone hc hrun

theorem start_fresh (ledger : cfg.payments.Ledger) (price : CurrencyId → Option FixedU128)
    (now : ℕ) : Fresh (State.start cfg ledger price now) :=
  fun id _ => ⟨Table.get_empty id, rfl⟩

theorem start_whole (ledger : cfg.payments.Ledger) (price : CurrencyId → Option FixedU128)
    (now : ℕ) : Whole (State.start cfg ledger price now) := by
  intro id info h
  exact absurd h (by simp [State.start])

/-- Every distribution has proportions that are one exactly in the runs whose lists are lasting
wholes; there it shares out all it has. -/
theorem distributions_cover_balance [DecidableEq AccountId] (cfg : Config AccountId)
    (ledger : cfg.payments.Ledger) (price : CurrencyId → Option FixedU128) (now : ℕ)
    (calls : List (Origin × Call cfg)) :
    (Always step Whole (State.start cfg ledger price now) calls ↔
      Meets step (fun _ call => Divides call) (State.start cfg ledger price now) calls) ∧
    (Meets step (fun _ call => Divides call) (State.start cfg ledger price now) calls →
      Always step (fun s => ∀ id info, s.distributionInfos.get id = some info →
        Pays s id info → SharesOut s id info) (State.start cfg ledger price now) calls) := by
  have hstep (s : State cfg) (call : Origin × Call cfg) (s' : State cfg) (_ : True) (hfresh : Fresh s)
      (hs : Whole s) (h : step s call = .ok s') :
      (Whole s' ↔ Divides call) ∧ (Whole s' → Fresh s') :=
    ⟨step_whole_iff hfresh hs h, fun _ => step_fresh hfresh h⟩
  have hiff := always_iff_meets hstep (fun _ (_ : _ ∈ calls) => trivial)
    (start_fresh ledger price now) (start_whole ledger price now)
  refine ⟨hiff, fun hmeets => (hiff.mpr hmeets).imp fun s hs id info hinfo hpays => ?_⟩
  exact sharesOut_of_whole (hs id info hinfo) hpays

namespace Sample

/-- Fee accounts keep their dust, except of the native currency. -/
def config : Config ℕ where
  payments := Tokens.payments ℕ (fun _ => 10) fun c a => c ≠ .native .BNC ∧ 1000 ≤ a
  feeShareAccount := fun id => 1000 + id
  receivers := Table.entries
  receivers_perm := fun _ => List.Perm.refl _
  distributions := Table.entries
  distributions_perm := fun _ => List.Perm.refl _

def dot : CurrencyId := .token2 0

/-- The first fee account holds a hundred of every currency. -/
def start : State config :=
  State.start config (fun _ a => if a = 1000 then 100 else 0) (fun _ => some FixedU128.one) 1

def percent (n : Fin 101) : Perbill := ⟨n * 10000000, by omega⟩

def create (l : List (ℕ × Perbill)) : Origin × Call config :=
  (.control, .createDistribution [dot] l false)

end Sample

/-- What is left of the native currency after the first half is swept, and the second half is
missing. -/
example :
    let L : Sample.config.payments.Ledger := fun _ a => if a = 1000 then 15 else 50
    (shareToken Sample.config.payments 1000
      [(1, Sample.percent 50), (2, Sample.percent 50)] L (.native .BNC)).2 =
        some (.token .balanceTooLow) := by
  rfl

/-- Half of the proportions are lost where an account is listed twice, and a sum that stops
counting at one lets through proportions that the balance does not cover. -/
theorem repeated_account_lost :
    ¬Always step Whole Sample.start [Sample.create [(1, Sample.percent 50), (1, Sample.percent 50)]] ∧
      step (run step Sample.start [Sample.create [(1, Sample.percent 60), (2, Sample.percent 100)]])
        (.control, .executeDistribute 0) = .error (.token .balanceTooLow) := by
  constructor
  · rintro ⟨-, hwhole⟩
    exact absurd (hwhole 0 _ rfl) (by decide)
  · rfl

theorem distributions_cover_balance_sample :
    let calls := [Sample.create [(1, Sample.percent 50), (2, Sample.percent 50)]]
    Always step Whole Sample.start calls ∧
      SharesOut (run step Sample.start calls) 0 ⟨1000, [Sample.dot], false⟩ := by
  have hcover := distributions_cover_balance Sample.config (fun _ a => if a = 1000 then 100 else 0)
    (fun _ => some FixedU128.one) 1 [Sample.create [(1, Sample.percent 50), (2, Sample.percent 50)]]
  have hmeets : Meets step (fun _ call => Divides call) Sample.start
      [Sample.create [(1, Sample.percent 50), (2, Sample.percent 50)]] := by
    have hhalves : Apportions [(1, Sample.percent 50), (2, Sample.percent 50)] := by decide
    exact ⟨fun _ _ => hhalves, trivial⟩
  refine ⟨hcover.1.mpr hmeets, (hcover.2 hmeets).run 0 _ rfl ?_⟩
  refine ⟨by decide, fun c hc => Or.inl ?_⟩
  rw [List.mem_singleton.mp hc]
  rfl

end Bifrost.FeeShare
