import Bifrost.Farming.Moves
import Mathlib.Tactic.Ring

/-!
# The principal in a pool

The units an account deposited in a pool are its share, the units on its withdraw list and the
units paid to it, and no more tokens are paid than were deposited, under every call that keeps
this for the pool: no record is dropped with units on it, no gauge share is raised without a
deposit, and the rounding of the basket, which is to the nearest on both sides, goes up for a
deposit and down for a payment.
-/

namespace Bifrost.Farming

open Result Machine
set_option autoImplicit false

variable {AccountId : Type} [DecidableEq AccountId] {cfg : Config AccountId}
  {s s' : State cfg} {who : AccountId} {pid p : ℕ} {pool : PoolInfo AccountId}
  {tokens : List (CurrencyId × ℕ)}

def unitsOf (withdrawList : List (ℕ × ℕ)) : ℕ := (withdrawList.map Prod.snd).sum

/-- The units on the withdraw list of an account. -/
def State.listed (s : State cfg) (pid : ℕ) (who : AccountId) : ℕ :=
  (s.shareView pid who).elim 0 fun i => unitsOf i.withdrawList

structure PrincipalKept (s : State cfg) (pid : ℕ) : Prop where
  units : ∀ who, (s.principal pid who).deposited =
    s.shareUnits pid who + s.listed pid who + (s.principal pid who).paid
  tokens : ∀ who c, (s.principal pid who).tokensOut c ≤ (s.principal pid who).tokensIn c

/-- A record that a call removes was empty, or its units were paid in the call. -/
def RemovesPaid (s s' : State cfg) (pid : ℕ) : Prop :=
  ∀ who i, s.shareView pid who = some i → s'.shareView pid who = none →
    (s'.principal pid who).paid = (s.principal pid who).paid + i.share + unitsOf i.withdrawList

/-! Baskets, compared with the exact part of each token. -/

def RoundsUp (v : PoolView) (units : ℕ) : Prop :=
  ∀ native, v.basicToken.2.saturatingReciprocalMul units = some native →
    ∀ e ∈ v.tokensProportion.entries, e.2.parts * units ≤ e.2.mul native * v.basicToken.2.parts

def RoundsDown (v : PoolView) (units : ℕ) : Prop :=
  ∀ native, v.basicToken.2.saturatingReciprocalMul units = some native →
    ∀ e ∈ v.tokensProportion.entries, e.2.mul native * v.basicToken.2.parts ≤ e.2.parts * units

/-- The rules are those of one pool, `p`. -/
def Rules.principal (p : ℕ) : Rules where
  pay := fun pid v share n => pid = p → share + n ≤ u128Max ∧ RoundsUp v n
  add := fun pid _ _ n => pid = p → n = 0
  take := fun pid i input => pid = p → input = none → i.share = 0 → i.withdrawList = []
  process := fun pid now v i => pid = p → ∀ e ∈ i.withdrawList, e.1 ≤ now → RoundsDown v e.2
  drop := fun pid i => pid = p → i.share = 0 ∧ i.withdrawList = []

def Undeposited (s : State cfg) (pid : ℕ) : Prop :=
  ∀ who, (s.principal pid who).deposited = 0

/-- A new pool begins under an id that nothing was deposited under; a pool is killed with empty
records. -/
def BeginsAnew (p : ℕ) (s : State cfg) : Call cfg → Prop
  | .createFarmingPool _ _ gaugeInit .. =>
    (s.poolNextId = p → Undeposited s p) ∧
      (gaugeInit ≠ none → gaugePid s.poolNextId = p → s.poolInfos p = none → Undeposited s p)
  | .editPool pid _ gaugeInit =>
    gaugeInit ≠ none → gaugePid pid = p → s.poolInfos p = none → Undeposited s p
  | .resetPool pid _ gaugeInit => gaugeInit ≠ none → gaugePid pid = p → Undeposited s p
  | .killPool pid => pid = p → ∀ who i, s.shareView p who = some i →
    i.share = 0 ∧ i.withdrawList = []
  | _ => True

def KeepsPrincipal (p : ℕ) (s : State cfg) (call : Call cfg) : Prop :=
  MovesAdmit (Rules.principal p) s call ∧ BeginsAnew p s call

/-! The tokens of a list of payments. -/

def amountOf (tokens : List (CurrencyId × ℕ)) (c : CurrencyId) : ℕ :=
  (tokens.map fun e => if e.1 = c then e.2 else 0).sum

theorem foldl_amounts (tokens : List (CurrencyId × ℕ)) (m : CurrencyId → ℕ) (c : CurrencyId) :
    tokens.foldl (fun m e => Function.update m e.1 (m e.1 + e.2)) m c =
      m c + amountOf tokens c := by
  induction tokens generalizing m with
  | nil => rfl
  | cons e tokens ih =>
    rw [List.foldl_cons, ih]
    unfold amountOf
    rw [List.map_cons, List.sum_cons]
    by_cases hc : c = e.1
    · subst c
      simp only [Function.update_self, if_true]
      omega
    · rw [Function.update_of_ne hc, if_neg (Ne.symm hc)]
      omega

omit [DecidableEq AccountId] in
theorem basket_amount {units : ℕ} (h : pool.basket units = .ok tokens) (c : CurrencyId) :
    ∃ native, pool.basicToken.2.saturatingReciprocalMul units = some native ∧
      amountOf tokens c = (pool.tokensProportion.get c).elim 0 fun q => q.mul native := by
  simp only [PoolInfo.basket, bind_eq_ok, okOr_eq_ok, pure_eq_ok] at h
  obtain ⟨native, hnative, rfl⟩ := h
  refine ⟨native, hnative, ?_⟩
  rw [← Table.sum_single]
  unfold amountOf Table.sum
  rw [List.map_map]
  rfl

def partsOf (tokens : Table CurrencyId Perbill) (c : CurrencyId) : ℕ :=
  (tokens.get c).elim 0 Perbill.parts

omit [DecidableEq AccountId] in
theorem basket_up {units : ℕ} (h : pool.basket units = .ok tokens)
    (hup : RoundsUp pool.view units) (c : CurrencyId) :
    partsOf pool.tokensProportion c * units ≤ amountOf tokens c * pool.basicToken.2.parts := by
  obtain ⟨native, hnative, hamount⟩ := basket_amount h c
  rw [hamount, partsOf]
  cases hget : pool.tokensProportion.get c with
  | none => simp
  | some q => exact hup native hnative (c, q) (Table.mem_entries.mpr hget)

omit [DecidableEq AccountId] in
theorem basket_down {units : ℕ}
    (h : pool.basket units = .ok tokens) (hdown : RoundsDown pool.view units) (c : CurrencyId) :
    amountOf tokens c * pool.basicToken.2.parts ≤ partsOf pool.tokensProportion c * units := by
  obtain ⟨native, hnative, hamount⟩ := basket_amount h c
  rw [hamount, partsOf]
  cases hget : pool.tokensProportion.get c with
  | none => simp
  | some q => exact hdown native hnative (c, q) (Table.mem_entries.mpr hget)

omit [DecidableEq AccountId] in
theorem basket_parts {units : ℕ}
    (h : pool.basket units = .ok tokens) : pool.basicToken.2.parts ≠ 0 := by
  simp only [PoolInfo.basket, bind_eq_ok, okOr_eq_ok, pure_eq_ok] at h
  obtain ⟨native, hnative, -⟩ := h
  intro hzero
  simp [Perbill.saturatingReciprocalMul, PerThing.saturatingReciprocalMul, hzero] at hnative

/-! The invariant of one pool. -/

/-- Deposited tokens are at least, and paid ones at most, the exact parts of the units. -/
structure Principal.Priced (tokens : Table CurrencyId Perbill) (basic : Perbill)
    (m : Principal) : Prop where
  deposited : ∀ c, partsOf tokens c * m.deposited ≤ m.tokensIn c * basic.parts
  paid : ∀ c, m.tokensOut c * basic.parts ≤ partsOf tokens c * m.paid
  nothing : basic.parts = 0 → ∀ c, m.tokensOut c = 0

theorem Principal.Priced.payIn {tokens : Table CurrencyId Perbill} {basic : Perbill}
    {m : Principal} (h : m.Priced tokens basic) {units : ℕ} {amounts : List (CurrencyId × ℕ)}
    (hup : ∀ c, partsOf tokens c * units ≤ amountOf amounts c * basic.parts) :
    (m.payIn units amounts).Priced tokens basic := by
  refine ⟨?_, h.paid, h.nothing⟩
  intro c
  have hbefore := h.deposited c
  have hmore := hup c
  simp only [Principal.payIn, foldl_amounts, Nat.mul_add, Nat.add_mul]
  omega

theorem Principal.Priced.payOut {tokens : Table CurrencyId Perbill} {basic : Perbill}
    {m : Principal} (h : m.Priced tokens basic) {units : ℕ} {amounts : List (CurrencyId × ℕ)}
    (hbasic : basic.parts ≠ 0)
    (hdown : ∀ c, amountOf amounts c * basic.parts ≤ partsOf tokens c * units) :
    (m.payOut units amounts).Priced tokens basic := by
  refine ⟨h.deposited, ?_, fun hzero => absurd hzero hbasic⟩
  intro c
  have hbefore := h.paid c
  have hmore := hdown c
  simp only [Principal.payOut, foldl_amounts, Nat.mul_add, Nat.add_mul]
  omega

theorem Principal.Priced.anew {tokens tokens' : Table CurrencyId Perbill} {basic basic' : Perbill}
    {m : Principal} (h : m.Priced tokens basic) (hzero : m.deposited = 0) (hpaid : m.paid = 0) :
    m.Priced tokens' basic' := by
  have hout : ∀ c, m.tokensOut c = 0 := by
    intro c
    by_cases hbasic : basic.parts = 0
    · exact h.nothing hbasic c
    · have hle := h.paid c
      rw [hpaid, Nat.mul_zero] at hle
      rcases Nat.mul_eq_zero.mp (Nat.le_zero.mp hle) with hc | hc
      · exact hc
      · contradiction
  refine ⟨fun c => ?_, fun c => ?_, fun _ => hout⟩
  · rw [hzero, Nat.mul_zero]
    exact Nat.zero_le _
  · rw [hout, Nat.zero_mul]
    exact Nat.zero_le _

theorem Principal.Priced.tokensOut_le {tokens : Table CurrencyId Perbill} {basic : Perbill}
    {m : Principal} (h : m.Priced tokens basic) (hle : m.paid ≤ m.deposited) (c : CurrencyId) :
    m.tokensOut c ≤ m.tokensIn c := by
  by_cases hbasic : basic.parts = 0
  · rw [h.nothing hbasic c]
    exact Nat.zero_le _
  · apply Nat.le_of_mul_le_mul_right _ (Nat.pos_of_ne_zero hbasic)
    calc m.tokensOut c * basic.parts ≤ partsOf tokens c * m.paid := h.paid c
      _ ≤ partsOf tokens c * m.deposited := Nat.mul_le_mul_left _ hle
      _ ≤ m.tokensIn c * basic.parts := h.deposited c

structure PrincipalInv (p : ℕ) (s : State cfg) : Prop where
  units : ∀ who, (s.principal p who).deposited =
    s.shareUnits p who + s.listed p who + (s.principal p who).paid
  priced : ∃ tokens basic, (∀ v, s.poolView p = some v →
      v.tokensProportion = tokens ∧ v.basicToken.2 = basic) ∧
    ∀ who, (s.principal p who).Priced tokens basic

theorem PrincipalInv.kept (hs : PrincipalInv p s) : PrincipalKept s p := by
  refine ⟨hs.units, fun who c => ?_⟩
  obtain ⟨tokens, basic, -, hpriced⟩ := hs.priced
  apply (hpriced who).tokensOut_le
  have hunits := hs.units who
  omega

theorem PrincipalInv.of_seen (hs : PrincipalInv p s)
    (hpool : ∀ v, s'.poolView p = some v → ∃ v', s.poolView p = some v' ∧
      v.tokensProportion = v'.tokensProportion ∧ v.basicToken = v'.basicToken)
    (hview : ∀ w, s'.shareUnits p w + s'.listed p w = s.shareUnits p w + s.listed p w)
    (hprincipal : s'.principal p = s.principal p) : PrincipalInv p s' := by
  constructor
  · intro w
    rw [hprincipal, hview]
    exact hs.units w
  · obtain ⟨tokens, basic, hbasket, hpriced⟩ := hs.priced
    refine ⟨tokens, basic, ?_, ?_⟩
    · intro v hv
      obtain ⟨v', hv', htokens, hbasic⟩ := hpool v hv
      rw [htokens, hbasic]
      exact hbasket v' hv'
    · rw [hprincipal]
      exact hpriced

theorem PrincipalInv.of_local (hs : PrincipalInv p s) (h : Local pid s s') (hne : p ≠ pid) :
    PrincipalInv p s' := by
  obtain ⟨hpool, hview⟩ := h.view hne
  apply hs.of_seen
  · intro v hv
    exact ⟨v, hpool ▸ hv, rfl, rfl⟩
  · intro w
    unfold State.shareUnits State.listed
    rw [hview]
  · exact h.principal p hne

theorem shareView_setShare (s : State cfg) (pid : ℕ) (who : AccountId) (info : Option ShareInfo)
    (w : AccountId) : (s.setShare pid who info).shareView pid w =
      if w = who then info.map ShareInfo.view else s.shareView pid w := by
  unfold State.shareView
  rw [shareOf_setShare]
  by_cases hw : w = who <;> simp [hw]

/-! The moves. -/

theorem addShare_units (pool : PoolInfo AccountId) {n : ℕ}
    (hfits : s.shareUnits pid who + n ≤ u128Max) (w : AccountId) :
    (addShare s who pid pool n).shareUnits pid w + (addShare s who pid pool n).listed pid w =
      s.shareUnits pid w + s.listed pid w + if w = who then n else 0 := by
  unfold addShare
  split
  · rename_i hn
    simp [hn]
  · have hview : ∀ w, ((s.setShare pid who (some (((s.shareOf pid who).getD
        (ShareInfo.new s.blockNumber)).inflated pool n))).setPool pid
        (some (pool.inflated n))).shareView pid w = if w = who then
          some ⟨s.shareUnits pid who + n, (s.shareView pid who).elim [] ShareView.withdrawList⟩
          else s.shareView pid w := by
      intro w
      refine (shareView_setShare s pid who _ w).trans ?_
      split
      · have hshare : ((s.shareOf pid who).getD (ShareInfo.new s.blockNumber)).share =
            s.shareUnits pid who := by
          unfold State.shareUnits State.shareView
          cases s.shareOf pid who <;> rfl
        have hlist : ((s.shareOf pid who).getD (ShareInfo.new s.blockNumber)).withdrawList =
            (s.shareView pid who).elim [] ShareView.withdrawList := by
          unfold State.shareView
          cases s.shareOf pid who <;> rfl
        simp only [Option.map_some, ShareInfo.view, ShareInfo.inflated, saturatingAdd, hshare,
          hlist, Nat.min_eq_left hfits]
      · rfl
    unfold State.listed
    rw [State.shareUnits, hview]
    by_cases hw : w = who
    · subst w
      rw [if_pos rfl, if_pos rfl]
      have hnil : unitsOf [] = 0 := rfl
      cases hi : s.shareView pid who with
      | none => simp [State.shareUnits, hi, hnil]
      | some i =>
        simp only [State.shareUnits, hi, Option.elim_some]
        omega
    · rw [if_neg hw, if_neg hw]
      rfl

theorem addShare_poolView (hpool : s.poolInfos pid = some pool) (n : ℕ) (v : PoolView)
    (hv : (addShare s who pid pool n).poolView pid = some v) :
    ∃ v', s.poolView pid = some v' ∧ v.tokensProportion = v'.tokensProportion ∧
      v.basicToken = v'.basicToken := by
  unfold addShare at hv
  split at hv
  · exact ⟨v, hv, rfl, rfl⟩
  · rw [poolView_some (setPool_self _ pid _)] at hv
    cases hv
    exact ⟨pool.view, poolView_some hpool, rfl, rfl⟩

theorem addShare_principal (s : State cfg) (who : AccountId) (pid : ℕ)
    (pool : PoolInfo AccountId) (n : ℕ) :
    (addShare s who pid pool n).principal = s.principal := by
  unfold addShare
  split <;> rfl

theorem claimRewards_principal (h : claimRewards s who pid = .ok s') :
    s'.principal = s.principal := by
  rcases claimRewards_cases h with ⟨rfl, -⟩ | ⟨info, pool, ledger, -, -, -, rfl⟩
  · rfl
  · rfl

theorem setPrincipal_self (s : State cfg) (pid : ℕ) (who : AccountId) (m : Principal)
    (w : AccountId) :
    (s.setPrincipal pid who m).principal pid w = if w = who then m else s.principal pid w := by
  by_cases hw : w = who <;> simp [State.setPrincipal, hw]

theorem unitsOf_split (withdrawList : List (ℕ × ℕ)) (now : ℕ) :
    ((withdrawList.filter fun e => e.1 ≤ now).map Prod.snd).sum +
      unitsOf (withdrawList.filter fun e => now < e.1) = unitsOf withdrawList := by
  unfold unitsOf
  induction withdrawList with
  | nil => rfl
  | cons e withdrawList ih =>
    simp only [List.filter_cons, List.map_cons, List.sum_cons]
    by_cases he : e.1 ≤ now
    · have hlt : ¬ now < e.1 := Nat.not_lt.mpr he
      simp only [he, hlt, decide_true, decide_false, if_true, List.map_cons, List.sum_cons]
      simp only [Bool.false_eq_true, if_false]
      omega
    · have hlt : now < e.1 := Nat.lt_of_not_le he
      simp only [he, hlt, decide_true, decide_false, if_true, List.map_cons, List.sum_cons]
      simp only [Bool.false_eq_true, if_false]
      omega

theorem payUnits_priced {due : List ℕ} {tokens : Table CurrencyId Perbill} {basic : Perbill}
    (hbasket : pool.tokensProportion = tokens ∧ pool.basicToken.2 = basic)
    (hdown : ∀ units ∈ due, RoundsDown pool.view units)
    (h : due.foldlM (fun s units => payUnits s who pid pool units) s = .ok s')
    (hpriced : (s.principal pid who).Priced tokens basic) :
    (s'.principal pid who).Priced tokens basic ∧
      (s'.principal pid who).deposited = (s.principal pid who).deposited ∧
      (s'.principal pid who).paid = (s.principal pid who).paid + due.sum := by
  induction due generalizing s with
  | nil =>
    cases h
    exact ⟨hpriced, rfl, rfl⟩
  | cons units due ih =>
    simp only [List.foldlM_cons, bind_eq_ok] at h
    obtain ⟨s₁, hpay, h⟩ := h
    obtain ⟨amounts, ledger, hamounts, rfl⟩ := payUnits_ok hpay
    obtain ⟨rfl, rfl⟩ := hbasket
    have hself : ({ s with ledger := ledger }.setPrincipal pid who
        ((s.principal pid who).payOut units amounts)).principal pid who =
          (s.principal pid who).payOut units amounts := by
      rw [setPrincipal_self, if_pos rfl]
    have hpriced₁ := hpriced.payOut (basket_parts hamounts)
      (basket_down hamounts (hdown units List.mem_cons_self))
    obtain ⟨hpriced', hdeposited, hpaid⟩ := ih
      (fun u hu => hdown u (List.mem_cons_of_mem units hu)) h (hself.symm ▸ hpriced₁)
    rw [hself] at hdeposited hpaid
    refine ⟨hpriced', hdeposited, ?_⟩
    rw [hpaid, List.sum_cons]
    simp only [Principal.payOut]
    omega

theorem PrincipalInv.setShare (hs : PrincipalInv p s) {info : Option ShareInfo}
    (h : info.elim 0 (fun i => i.share + unitsOf i.withdrawList) =
      s.shareUnits p who + s.listed p who) : PrincipalInv p (s.setShare p who info) := by
  apply hs.of_seen
  · intro v hv
    exact ⟨v, hv, rfl, rfl⟩
  · intro w
    unfold State.listed State.shareUnits at *
    rw [shareView_setShare]
    by_cases hw : w = who
    · subst w
      rw [if_pos rfl, ← h]
      cases info <;> rfl
    · rw [if_neg hw]
  · rfl

theorem takeShare_principal {input : Option ℕ} {limitTime : ℕ} (hs : PrincipalInv p s)
    (hinput : input ≠ some 0)
    (hok : ∀ i, s.shareView p who = some i → input = none → i.share = 0 → i.withdrawList = [])
    (h : takeShare s who p input limitTime = .ok s') : PrincipalInv p s' := by
  rcases takeShare_cases h with
    ⟨rfl, -⟩ | ⟨info, hinfo, hle, ⟨hzero, rfl⟩ | ⟨pool, -, hpool, rfl⟩⟩
  · exact hs
  · cases input with
    | some n => exact absurd (congrArg some hzero) hinput
    | none =>
      have hshare : info.share = 0 := hzero
      have hlist : info.withdrawList = [] := hok _ (shareView_some hinfo) rfl hshare
      apply hs.setShare
      unfold State.listed
      rw [shareUnits_some (shareView_some hinfo), shareView_some hinfo]
      simp only [Option.elim_none, Option.elim_some, ShareInfo.view, hlist, hshare]
      rfl
  · have hshare : PrincipalInv p (s.setShare p who (some (info.deflated (input.getD info.share)
        ((s.blockNumber + limitTime) % 2 ^ 32)))) := by
      apply hs.setShare
      unfold State.listed
      rw [shareUnits_some (shareView_some hinfo), shareView_some hinfo]
      simp only [Option.elim_some, ShareInfo.deflated, ShareInfo.view, unitsOf, List.map_append,
        List.sum_append, List.map_cons, List.map_nil, List.sum_cons, List.sum_nil]
      omega
    apply hshare.of_seen
    · intro v hv
      rw [poolView_some (setPool_self _ p _)] at hv
      cases hv
      exact ⟨pool.view, poolView_some hpool, rfl, rfl⟩
    · intro w
      rfl
    · rfl

theorem processWithdrawList_principal {ifRemove : Bool} (hs : PrincipalInv p s)
    (hbasket : s.SameBasket p pool)
    (hok : ∀ i, s.shareView p who = some i →
      ∀ e ∈ i.withdrawList, e.1 ≤ s.blockNumber → RoundsDown pool.view e.2)
    (h : processWithdrawList s who p pool ifRemove = .ok s') : PrincipalInv p s' := by
  rcases processWithdrawList_cases h with ⟨rfl, -⟩ | ⟨info, s₁, hinfo, hpay, rfl⟩
  · exact hs
  · obtain ⟨tokens, basic, hstored, hpriced⟩ := hs.priced
    obtain ⟨v, hv, htokens, hbasic⟩ := hbasket
    have hpool : pool.tokensProportion = tokens ∧ pool.basicToken.2 = basic := by
      rw [← htokens, ← hbasic]
      exact hstored v hv
    have hdown : ∀ units ∈ info.due s.blockNumber, RoundsDown pool.view units := by
      intro units hunits
      obtain ⟨e, he, rfl⟩ := List.mem_map.mp hunits
      obtain ⟨he, hdue⟩ := List.mem_filter.mp he
      exact hok _ (shareView_some hinfo) e he (of_decide_eq_true hdue)
    obtain ⟨hpriced₁, hdeposited, hpaid⟩ := payUnits_priced hpool hdown hpay (hpriced who)
    obtain ⟨ledger, m, rfl⟩ := payUnits_all hpay
    rw [setPrincipal_self, if_pos rfl] at hpriced₁ hdeposited hpaid
    have hprincipal : ∀ w, (({ s with ledger := ledger }.setPrincipal p who m).setShare p who
        (info.processed s.blockNumber ifRemove)).principal p w =
          if w = who then m else s.principal p w := setPrincipal_self _ p who m
    constructor
    · intro w
      rw [hprincipal]
      unfold State.listed State.shareUnits
      rw [shareView_setShare]
      by_cases hw : w = who
      · subst w
        have hunits := hs.units who
        have hsplit := unitsOf_split info.withdrawList s.blockNumber
        have hrest : ((info.processed s.blockNumber ifRemove).map ShareInfo.view).elim 0
            ShareView.share + ((info.processed s.blockNumber ifRemove).map ShareInfo.view).elim 0
              (fun i => unitsOf i.withdrawList) = info.share + unitsOf
                (info.pending s.blockNumber).withdrawList := by
          unfold ShareInfo.processed
          split
          · rfl
          · rename_i hgone
            simp only [not_or, not_not] at hgone
            rw [hgone.1, hgone.2.1]
            rfl
        rw [State.listed, shareUnits_some (shareView_some hinfo), shareView_some hinfo] at hunits
        rw [if_pos rfl, if_pos rfl, hrest, hdeposited, hpaid]
        simp only [ShareInfo.due, ShareInfo.pending, ShareInfo.view, Option.elim_some] at *
        omega
      · rw [if_neg hw, if_neg hw]
        exact hs.units w
    · refine ⟨tokens, basic, hstored, fun w => ?_⟩
      rw [hprincipal]
      by_cases hw : w = who
      · rw [if_pos hw]
        exact hpriced₁
      · rw [if_neg hw]
        exact hpriced w

theorem payShare_principal {n : ℕ} (hs : PrincipalInv p s) (hpool : s.poolInfos p = some pool)
    (hfits : s.shareUnits p who + n ≤ u128Max) (hup : RoundsUp pool.view n)
    (h : payShare s who p pool n = .ok s') : PrincipalInv p s' := by
  obtain ⟨amounts, ledger, hamounts, rfl⟩ := payShare_ok h
  obtain ⟨tokens, basic, hstored, hpriced⟩ := hs.priced
  obtain ⟨rfl, rfl⟩ := hstored _ (poolView_some hpool)
  generalize hpaid : { s with ledger := ledger }.setPrincipal p who
    ((s.principal p who).payIn n amounts) = s₁
  have hprincipal : ∀ w, s₁.principal p w =
      if w = who then (s.principal p who).payIn n amounts else s.principal p w :=
    hpaid ▸ setPrincipal_self _ p who _
  have hview : ∀ w, s₁.shareUnits p w = s.shareUnits p w ∧ s₁.listed p w = s.listed p w :=
    hpaid ▸ fun w => ⟨rfl, rfl⟩
  have hpool₁ : s₁.poolInfos p = some pool := hpaid ▸ hpool
  have hfits₁ : s₁.shareUnits p who + n ≤ u128Max := by
    rw [(hview who).1]
    exact hfits
  constructor
  · intro w
    have hunits := hs.units w
    have hadd := addShare_units pool hfits₁ w
    rw [(hview w).1, (hview w).2] at hadd
    rw [addShare_principal, hprincipal, hadd]
    by_cases hw : w = who
    · subst w
      rw [if_pos rfl, if_pos rfl]
      simp only [Principal.payIn]
      omega
    · rw [if_neg hw, if_neg hw]
      omega
  · refine ⟨pool.view.tokensProportion, pool.view.basicToken.2, ?_, fun w => ?_⟩
    · intro v hv
      obtain ⟨v', hv', htokens, hbasic⟩ := addShare_poolView hpool₁ n v hv
      rw [htokens, hbasic]
      rw [poolView_some hpool₁] at hv'
      cases hv'
      exact ⟨rfl, rfl⟩
    · rw [addShare_principal, hprincipal]
      by_cases hw : w = who
      · rw [if_pos hw]
        exact (hpriced who).payIn (basket_up hamounts hup)
      · rw [if_neg hw]
        exact hpriced w

theorem keeps_principal (p : ℕ) :
    Keeps (Rules.principal p) fun s : State cfg => PrincipalInv p s where
  pids := fun _ hs => ⟨hs.units, hs.priced⟩
  pay := by
    intro s s' who pid pool n hs hpool hok h
    by_cases hpid : pid = p
    · subst pid
      exact payShare_principal hs hpool (hok rfl).1 (hok rfl).2 h
    · exact hs.of_local (payShare_local h) (Ne.symm hpid)
  add := by
    intro s who pid pool n hs hpool hok
    by_cases hpid : pid = p
    · have hn : n = 0 := hok hpid
      have hsame : addShare s who pid pool n = s := by simp [addShare, hn]
      rw [hsame]
      exact hs
    · exact hs.of_local (addShare_local ..) (Ne.symm hpid)
  claim := by
    intro s s' who pid hs h
    obtain ⟨hpool, hview⟩ := claimRewards_view h p
    apply hs.of_seen
    · intro v hv
      exact ⟨v, hpool ▸ hv, rfl, rfl⟩
    · intro w
      unfold State.shareUnits State.listed
      rw [hview]
    · rw [claimRewards_principal h]
  take := by
    intro s s' who pid input limitTime hs hinput hok h
    by_cases hpid : pid = p
    · subst pid
      exact takeShare_principal hs hinput (fun i hi => hok i hi rfl) h
    · exact hs.of_local (takeShare_local h) (Ne.symm hpid)
  process := by
    intro s s' who pid pool ifRemove hs hbasket hok h
    by_cases hpid : pid = p
    · subst pid
      exact processWithdrawList_principal hs hbasket (fun i hi => hok i hi rfl) h
    · exact hs.of_local (processWithdrawList_local h) (Ne.symm hpid)
  drop := by
    intro s who pid hs hok
    by_cases hpid : pid = p
    · subst pid
      apply hs.setShare
      unfold State.shareUnits State.listed
      cases hi : s.shareView p who with
      | none => rfl
      | some i =>
        obtain ⟨hshare, hlist⟩ := hok i hi rfl
        simp only [Option.elim_none, Option.elim_some, hshare, hlist]
        rfl
    · exact hs.of_local (.setShare s pid who none) (Ne.symm hpid)

/-! The life of a pool. -/

theorem PrincipalInv.anew (hs : PrincipalInv p s) (h : Undeposited s p) (pool' : PoolInfo AccountId) :
    PrincipalInv p (s.setPool p (some pool')) := by
  refine ⟨hs.units, pool'.tokensProportion, pool'.basicToken.2, ?_, fun w => ?_⟩
  · intro v hv
    rw [poolView_some (setPool_self _ p _)] at hv
    cases hv
    exact ⟨rfl, rfl⟩
  · obtain ⟨tokens, basic, -, hpriced⟩ := hs.priced
    have hunits := hs.units w
    have hzero := h w
    exact (hpriced w).anew hzero (by omega)

theorem PrincipalInv.setPool_ne (hs : PrincipalInv p s) (hne : pid ≠ p)
    (pool' : Option (PoolInfo AccountId)) : PrincipalInv p (s.setPool pid pool') :=
  hs.of_local (.setPool s pid pool') (Ne.symm hne)

theorem PrincipalInv.alike (hs : PrincipalInv p s) {pool' : PoolInfo AccountId}
    (hpool : s.poolInfos pid = some pool) (htokens : pool'.tokensProportion = pool.tokensProportion)
    (hbasic : pool'.basicToken = pool.basicToken) :
    PrincipalInv p (s.setPool pid (some pool')) := by
  by_cases hpid : pid = p
  · subst pid
    apply hs.of_seen
    · intro v hv
      rw [poolView_some (setPool_self _ p _)] at hv
      cases hv
      exact ⟨pool.view, poolView_some hpool, htokens, hbasic⟩
    · intro w
      rfl
    · rfl
  · exact hs.setPool_ne hpid _

theorem gaugeSet_principal {keep : Prop} (hs : PrincipalInv p s)
    (hok : gaugePid pid = p → (keep → s.poolInfos p = none) → Undeposited s p)
    (h : GaugeSet keep pid pool s s') : PrincipalInv p s' := by
  rcases h with rfl | ⟨gaugePool, rfl, ⟨-, old, hold, hsame⟩ | ⟨hnone, -, -, -⟩⟩
  · exact hs
  · exact hs.alike hold hsame.2.2.1 hsame.2.2.2
  · by_cases hpid : gaugePid pid = p
    · subst p
      exact hs.anew (hok rfl hnone) gaugePool
    · exact hs.setPool_ne hpid _

theorem PrincipalInv.of_same (hs : PrincipalInv p s) (h : SamePools s s') : PrincipalInv p s' := by
  have hview : s'.shareView p = s.shareView p := by
    unfold State.shareView State.shareOf
    rw [h.shares]
  apply hs.of_seen
  · intro v hv
    refine ⟨v, ?_, rfl, rfl⟩
    unfold State.poolView at hv ⊢
    rw [h.poolInfos] at hv
    exact hv
  · intro w
    unfold State.shareUnits State.listed
    rw [hview]
  · rw [h.principal]

theorem startBlock_principal (hs : PrincipalInv p s) : PrincipalInv p (startBlock s) := by
  apply hs.of_seen
  · intro v hv
    unfold State.poolView startBlock at hv
    simp only [Option.map_map, Option.map_eq_some_iff] at hv
    obtain ⟨pool, hpool, rfl⟩ := hv
    refine ⟨pool.view, poolView_some hpool, ?_⟩
    simp only [Function.comp, PoolInfo.onBlock]
    split
    · exact ⟨rfl, rfl⟩
    · split <;> exact ⟨rfl, rfl⟩
    · exact ⟨rfl, rfl⟩
  · intro w
    rfl
  · rfl

omit [DecidableEq AccountId] in
theorem GaugeSet.pool_eq {keep : Prop} {j : ℕ} (h : GaugeSet keep pid pool s s')
    (hj : j ≠ gaugePid pid) : s'.poolInfos j = s.poolInfos j := by
  rcases h with rfl | ⟨gaugePool, rfl, -⟩
  · rfl
  · exact setPool_ne _ _ _ hj

omit [DecidableEq AccountId] in
theorem GaugeSet.undeposited {keep : Prop} (h : GaugeSet keep pid pool s s')
    (hs : Undeposited s p) : Undeposited s' p := by
  rcases h with rfl | ⟨gaugePool, rfl, -⟩
  · exact hs
  · exact hs

theorem killPool_principal (hs : PrincipalInv p s)
    (hok : pid = p → ∀ who i, s.shareView p who = some i → i.share = 0 ∧ i.withdrawList = [])
    (h : killPool s pid = .ok s') : PrincipalInv p s' := by
  rw [killPool_ok h]
  by_cases hpid : pid = p
  · subst pid
    apply hs.of_seen
    · intro v hv
      have hnone : (({ s with shares := Function.update s.shares p ∅ } : State cfg).setPool p
        none).poolView p = none := by simp [State.poolView]
      rw [hnone] at hv
      contradiction
    · intro w
      have hview : (({ s with shares := Function.update s.shares p ∅ } : State cfg).setPool p
        none).shareView p w = none := by simp [State.shareView, State.shareOf, State.setPool]
      unfold State.shareUnits State.listed
      rw [hview]
      cases hi : s.shareView p w with
      | none => rfl
      | some i =>
        obtain ⟨hshare, hlist⟩ := hok rfl w i hi
        simp only [Option.elim_none, Option.elim_some, hshare, hlist]
        rfl
    · rfl
  · apply hs.of_local _ (Ne.symm hpid)
    exact (⟨rfl, rfl, rfl, rfl, rfl, rfl, fun _ _ => rfl,
      fun j hj => Function.update_of_ne hj _ _, fun _ _ => rfl⟩ : Local pid s
        { s with shares := Function.update s.shares pid ∅ }).trans (.setPool _ pid none)

theorem step_principal {call : Call cfg} (hs : PrincipalInv p s) (hok : KeepsPrincipal p s call)
    (h : step s call = .ok s') : PrincipalInv p s' := by
  by_cases hshares : call.MovesShares
  · exact (keeps_principal p).call hshares hs hok.1 h
  · by_cases hidle : call.Idle
    · exact hs.of_same (step_idle hidle h)
    · cases call <;> simp only [Call.MovesShares, Call.Idle, not_true_eq_false] at hshares hidle
      case createFarmingPool =>
        obtain ⟨s₁, pool, hset, hnone, -, rfl⟩ := createFarmingPool_ok h
        have hs₁ : PrincipalInv p s₁ := by
          rename_i gaugeInit _ _ _ _ _
          cases gaugeInit with
          | none => exact hnone rfl ▸ hs
          | some rewards =>
            exact gaugeSet_principal hs (fun hpid hkeep => hok.2.2 (by simp) hpid (hkeep trivial))
              hset
        have hs₂ : PrincipalInv p (s₁.setPool s.poolNextId (some pool)) := by
          by_cases hpid : s.poolNextId = p
          · rw [hpid]
            exact hs₁.anew (hset.undeposited (hok.2.1 hpid)) pool
          · exact hs₁.setPool_ne hpid _
        exact ⟨hs₂.units, hs₂.priced⟩
      case charge pid _ =>
        obtain ⟨pool, pool', ledger, hpool, hsame, rfl⟩ := charge_ok h
        have hledger : PrincipalInv p { s with ledger := ledger } := ⟨hs.units, hs.priced⟩
        exact hledger.alike hpool hsame.2.2.1 hsame.2.2.2
      case forceRetirePool pid =>
        obtain ⟨pool, s₁, hpool, hloop, hdone⟩ := forceRetirePool_ok h
        obtain ⟨hs₁, v, hv, htokens, hbasic⟩ :=
          (keeps_principal p).retireAll hs hpool (hok.1 pool hpool) hloop
        rcases hdone with ⟨-, pool', hsame, rfl⟩ | ⟨-, rfl⟩
        · unfold State.poolView at hv
          rw [Option.map_eq_some_iff] at hv
          obtain ⟨pool₁, hpool₁, rfl⟩ := hv
          exact hs₁.alike hpool₁ (hsame.2.2.1.trans htokens.symm)
            (hsame.2.2.2.trans hbasic.symm)
        · exact hs₁
      case closePool pid =>
        obtain ⟨pool, pool', hpool, hsame, rfl⟩ := closePool_ok h
        exact hs.alike hpool hsame.2.2.1 hsame.2.2.2
      case resetPool pid settings gaugeInit =>
        obtain ⟨pool, pool', s₁, hpool, hset, hnone, -, htokens, hbasic, rfl⟩ := resetPool_ok h
        have hs₁ : PrincipalInv p s₁ := by
          cases gaugeInit with
          | none => exact hnone rfl ▸ hs
          | some rewards =>
            exact gaugeSet_principal hs (fun hpid _ => hok.2 (by simp) hpid) hset
        exact hs₁.alike ((hset.pool_eq (gaugePid_ne pid).symm).trans hpool) htokens hbasic
      case killPool pid => exact killPool_principal hs hok.2 h
      case editPool pid _ gauge =>
        obtain ⟨pool, pool', s₁, hpool, hset, hnone, hsame, rfl⟩ := editPool_ok h
        have hs₁ : PrincipalInv p s₁ := by
          cases gauge with
          | none => exact hnone rfl ▸ hs
          | some rewards =>
            exact gaugeSet_principal hs (fun hpid hkeep => hok.2 (by simp) hpid (hkeep trivial))
              hset
        exact hs₁.alike ((hset.pool_eq (gaugePid_ne pid).symm).trans hpool) hsame.2.2.1
          hsame.2.2.2
      case onInitialize =>
        cases h
        exact (startBlock_principal hs).of_same (nextRound_pools _)

/-! Removed records. Only a deposit adds to what was deposited, and it removes no record. -/

theorem payUnits_deposited {due : List ℕ}
    (h : due.foldlM (fun s units => payUnits s who pid pool units) s = .ok s') (j : ℕ)
    (w : AccountId) : (s'.principal j w).deposited = (s.principal j w).deposited := by
  induction due generalizing s with
  | nil =>
    cases h
    rfl
  | cons units due ih =>
    simp only [List.foldlM_cons, bind_eq_ok] at h
    obtain ⟨s₁, hpay, h⟩ := h
    rw [ih h]
    obtain ⟨tokens, ledger, -, rfl⟩ := payUnits_ok hpay
    by_cases hj : j = pid
    · subst j
      rw [setPrincipal_self]
      split
      · rename_i hw
        subst w
        rfl
      · rfl
    · rw [(Local.setPrincipal _ pid who _).principal j hj]

def Rules.unpaid : Rules := { Rules.free with pay := fun _ _ _ _ => False }

theorem keeps_deposited (p : ℕ) (d : AccountId → ℕ) :
    Keeps Rules.unpaid fun s : State cfg => ∀ w, (s.principal p w).deposited = d w where
  pids := fun _ hs => hs
  pay := fun _ _ hfalse _ => hfalse.elim
  add := by
    intro s who pid pool n hs _ _
    rw [addShare_principal]
    exact hs
  claim := by
    intro s s' who pid hs h
    rw [claimRewards_principal h]
    exact hs
  take := by
    intro s s' who pid input limitTime hs _ _ h
    rcases takeShare_cases h with ⟨rfl, -⟩ | ⟨info, -, -, ⟨-, rfl⟩ | ⟨pool, -, -, rfl⟩⟩
    · exact hs
    · exact hs
    · exact hs
  process := by
    intro s s' who pid pool ifRemove hs _ _ h
    rcases processWithdrawList_cases h with ⟨rfl, -⟩ | ⟨info, s₁, -, hpay, rfl⟩
    · exact hs
    · intro w
      exact (payUnits_deposited hpay p w).trans (hs w)
  drop := fun hs _ => hs

theorem unpaid_admits (s : State cfg) {call : Call cfg}
    (hcall : ∀ who pid n, call ≠ .deposit who pid n) : MovesAdmit Rules.unpaid s call := by
  have hfree := movesAdmit_free s call
  cases call
  case deposit who pid n => exact absurd rfl (hcall who pid n)
  all_goals exact hfree

theorem step_deposited (p : ℕ) {call : Call cfg} (hcall : ∀ who pid n, call ≠ .deposit who pid n)
    (h : step s call = .ok s') (w : AccountId) :
    (s'.principal p w).deposited = (s.principal p w).deposited := by
  have hkeeps : Keeps Rules.unpaid fun s₁ : State cfg => ∀ w,
      (s₁.principal p w).deposited = (s.principal p w).deposited :=
    keeps_deposited p fun w => (s.principal p w).deposited
  by_cases hshares : call.MovesShares
  · exact hkeeps.call hshares (fun _ => rfl) (unpaid_admits s hcall) h w
  · by_cases hidle : call.Idle
    · rw [(step_idle hidle h).principal]
    · cases call <;> simp only [Call.MovesShares, Call.Idle, not_true_eq_false] at hshares hidle
      case createFarmingPool =>
        obtain ⟨s₁, pool, hset, -, -, rfl⟩ := createFarmingPool_ok h
        rcases hset with rfl | ⟨gaugePool, rfl, -⟩ <;> rfl
      case charge =>
        obtain ⟨pool, pool', ledger, -, -, rfl⟩ := charge_ok h
        rfl
      case forceRetirePool pid =>
        obtain ⟨pool, s₁, hpool, hloop, hdone⟩ := forceRetirePool_ok h
        have hs₁ := (hkeeps.retireAll (fun _ => rfl) hpool
          (meets_of_forall _ (fun _ _ _ _ _ => ⟨trivial, fun _ => trivial⟩) _) hloop).1
        rcases hdone with ⟨-, pool', -, rfl⟩ | ⟨-, rfl⟩
        · exact hs₁ w
        · exact hs₁ w
      case closePool =>
        obtain ⟨pool, pool', -, -, rfl⟩ := closePool_ok h
        rfl
      case resetPool =>
        obtain ⟨pool, pool', s₁, -, hset, -, -, -, -, rfl⟩ := resetPool_ok h
        rcases hset with rfl | ⟨gaugePool, rfl, -⟩ <;> rfl
      case killPool =>
        rw [killPool_ok h]
        rfl
      case editPool =>
        obtain ⟨pool, pool', s₁, -, hset, -, -, rfl⟩ := editPool_ok h
        rcases hset with rfl | ⟨gaugePool, rfl, -⟩ <;> rfl
      case onInitialize =>
        cases h
        rw [onInitialize, (nextRound_pools _).principal]
        rfl

/-- Some shares are taken, never all there are. -/
def Rules.recorded : Rules where
  pay := fun _ _ _ _ => True
  add := fun _ _ _ _ => True
  take := fun _ _ input => input ≠ none
  process := fun _ _ _ _ => False
  drop := fun _ _ => False

theorem addShare_recorded {n : ℕ} {j : ℕ} {w : AccountId} (h : (s.shareOf j w).isSome) :
    ((addShare s who pid pool n).shareOf j w).isSome := by
  unfold addShare
  split
  · exact h
  · rw [setPool_shareOf, shareOf_setShare]
    split
    · rfl
    · exact h

theorem keeps_record (p : ℕ) (w : AccountId) :
    Keeps Rules.recorded fun s : State cfg => (s.shareOf p w).isSome where
  pids := fun _ hs => hs
  pay := by
    intro s s' who pid pool n hs _ _ h
    obtain ⟨tokens, ledger, -, rfl⟩ := payShare_ok h
    exact addShare_recorded hs
  add := fun hs _ _ => addShare_recorded hs
  claim := by
    intro s s' who pid hs h
    have hview := (claimRewards_view h p).2 w
    unfold State.shareView at hview
    have hmap := congrArg Option.isSome hview
    rw [Option.isSome_map, Option.isSome_map] at hmap
    exact hmap.trans hs
  take := by
    intro s s' who pid input limitTime hs hinput hok h
    rcases takeShare_cases h with
      ⟨rfl, -⟩ | ⟨info, hinfo, -, ⟨hzero, rfl⟩ | ⟨pool, -, -, rfl⟩⟩
    · exact hs
    · have hsome := hok _ (shareView_some hinfo)
      cases input with
      | none => exact absurd rfl hsome
      | some n => exact absurd (congrArg some hzero) hinput
    · rw [setPool_shareOf, shareOf_setShare]
      split
      · rfl
      · exact hs
  process := by
    intro s s' who pid pool ifRemove hs _ hok h
    rcases processWithdrawList_cases h with ⟨rfl, -⟩ | ⟨info, s₁, hinfo, -, -⟩
    · exact hs
    · exact (hok _ (shareView_some hinfo)).elim
  drop := by
    intro s who pid hs hok
    rw [shareOf_setShare]
    split
    · rename_i hjw
      obtain ⟨rfl, rfl⟩ := hjw
      obtain ⟨info, hinfo⟩ := Option.isSome_iff_exists.mp hs
      exact (hok _ (shareView_some hinfo)).elim
    · exact hs

theorem deposit_recorded {n : ℕ} {w : AccountId} (hs : (s.shareOf p w).isSome)
    (h : deposit s who pid n = .ok s') : (s'.shareOf p w).isSome := by
  refine (keeps_record p w).deposit hs ⟨fun _ _ => trivial, ?_⟩ h
  intro balance v _ _
  refine ⟨fun i _ => ?_, fun _ => trivial⟩
  unfold UpdateAdmits
  split
  · simp [Rules.recorded]
  · trivial

theorem step_removes {call : Call cfg} (hs : PrincipalInv p s) (hs' : PrincipalInv p s')
    (h : step s call = .ok s') : RemovesPaid s s' p := by
  intro who i hi hnone
  by_cases hcall : ∀ w pid n, call ≠ .deposit w pid n
  · have hdeposited := step_deposited p hcall h who
    have hbefore := hs.units who
    have hafter := hs'.units who
    unfold State.listed State.shareUnits at hbefore hafter
    rw [hi] at hbefore
    rw [hnone] at hafter
    simp only [Option.elim_some, Option.elim_none] at hbefore hafter
    omega
  · push Not at hcall
    obtain ⟨w, pid, n, rfl⟩ := hcall
    unfold State.shareView at hi hnone
    rw [Option.map_eq_some_iff] at hi
    obtain ⟨info, hinfo, -⟩ := hi
    have hsome : (s'.shareOf p who).isSome := deposit_recorded (by rw [hinfo]; rfl) h
    rw [Option.map_eq_none_iff] at hnone
    rw [hnone] at hsome
    contradiction

theorem genesis_principal (ledger : cfg.currencies.Ledger) (bbBalance : AccountId → Option ℕ)
    (n p : ℕ) : PrincipalInv p (genesis cfg ledger bbBalance n) := by
  refine ⟨fun _ => rfl, ∅, Perbill.one, ?_, fun _ => ?_⟩
  · intro v hv
    contradiction
  · exact ⟨fun c => by simp [genesis], fun c => by simp [genesis], fun _ _ => rfl⟩

/-- In every state of a run whose calls meet `KeepsPrincipal` for a pool, the units and the
tokens of the pool are kept, and the next such call removes no record with units it does not
pay. -/
theorem principal_kept (ledger : cfg.currencies.Ledger) (bbBalance : AccountId → Option ℕ)
    (n p : ℕ) (calls : List (Call cfg))
    (h : Meets step (KeepsPrincipal p) (genesis cfg ledger bbBalance n) calls) :
    PrincipalKept (run step (genesis cfg ledger bbBalance n) calls) p ∧
    ∀ call s', KeepsPrincipal p (run step (genesis cfg ledger bbBalance n) calls) call →
      step (run step (genesis cfg ledger bbBalance n) calls) call = .ok s' →
      RemovesPaid (run step (genesis cfg ledger bbBalance n) calls) s' p := by
  have hs : PrincipalInv p (run step (genesis cfg ledger bbBalance n) calls) :=
    run_invariant (I := PrincipalInv p) (fun _ _ _ hs hok hstep => step_principal hs hok hstep)
      calls (genesis_principal ledger bbBalance n p) h
  refine ⟨hs.kept, fun call s' hok hstep => ?_⟩
  exact step_removes hs (step_principal hs hok hstep) hstep

/-! A basket of whole tokens has no rounding, and without a gauge pool only the pool counts. -/

def PoolView.Whole (v : PoolView) : Prop :=
  v.basicToken.2 = .one ∧ ∀ e ∈ v.tokensProportion.entries, e.2 = .one

instance (v : PoolView) : Decidable v.Whole :=
  inferInstanceAs (Decidable (v.basicToken.2 = .one ∧ ∀ e ∈ v.tokensProportion.entries, e.2 = .one))

theorem mulNearest_whole {accuracy : ℕ} (h : 0 < accuracy) (n : ℕ) :
    PerThing.mulNearest accuracy accuracy n = n := by
  unfold PerThing.mulNearest
  rw [Nat.mul_div_cancel n h, Nat.mul_mod_left, if_neg (Nat.not_lt_zero _), Nat.add_zero]

theorem reciprocal_whole {accuracy n : ℕ} (h : 0 < accuracy) (hn : n ≤ u128Max) :
    PerThing.saturatingReciprocalMul accuracy accuracy n = some n := by
  unfold PerThing.saturatingReciprocalMul
  rw [if_neg (Nat.ne_of_gt h), Nat.mul_div_cancel n h, Nat.mul_mod_left,
    if_neg (by omega), Nat.add_zero, Nat.min_eq_right hn]

theorem PoolView.Whole.rounds {v : PoolView} {units : ℕ} (h : v.Whole) (hunits : units ≤ u128Max) :
    RoundsUp v units ∧ RoundsDown v units := by
  have hexact : ∀ native, v.basicToken.2.saturatingReciprocalMul units = some native →
      ∀ e ∈ v.tokensProportion.entries,
        e.2.mul native * v.basicToken.2.parts = e.2.parts * units := by
    intro native hnative e he
    rw [h.1] at hnative
    have hn : some units = some native := (reciprocal_whole (by decide) hunits).symm.trans hnative
    cases hn
    have hmul : Perbill.one.mul units = units := mulNearest_whole (by decide) units
    rw [h.1, h.2 e he, hmul]
    exact Nat.mul_comm _ _
  exact ⟨fun native hnative e he => (hexact native hnative e he).ge,
    fun native hnative e he => (hexact native hnative e he).le⟩

theorem gaugeAdmits_none {rules : Rules} (h : s.poolInfos (gaugePid pid) = none) (units : ℕ) :
    GaugeAdmits rules s who pid units := by
  intro balance v _ hv
  rw [State.poolView, h] at hv
  contradiction

theorem deposit_whole {n : ℕ} (hwhole : ∀ v, s.poolView pid = some v → v.Whole)
    (hgauge : s.poolInfos (gaugePid pid) = none) (hn : s.shareUnits pid who + n ≤ u128Max) :
    KeepsPrincipal p s (.deposit who pid n) := by
  refine ⟨⟨?_, gaugeAdmits_none hgauge n⟩, trivial⟩
  intro v hv _
  exact ⟨hn, ((hwhole v hv).rounds ((Nat.le_add_left _ _).trans hn)).1⟩

theorem withdraw_part {n : ℕ} (hgauge : s.poolInfos (gaugePid pid) = none) :
    KeepsPrincipal p s (.withdraw who pid (some n)) := by
  refine ⟨fun i _ => ⟨?_, ?_⟩, trivial⟩
  · intro _ hfalse
    contradiction
  · intro balance v j _ hv
    rw [State.poolView, hgauge] at hv
    contradiction

theorem withdrawClaim_whole (hwhole : ∀ v, s.poolView pid = some v → v.Whole)
    (hgauge : s.poolInfos (gaugePid pid) = none) (hrecord : (s.shareView pid who).isSome)
    (hlist : ∀ i, s.shareView pid who = some i → ∀ e ∈ i.withdrawList, e.2 ≤ u128Max) :
    KeepsPrincipal p s (.withdrawClaim who pid) := by
  refine ⟨⟨?_, fun i _ => gaugeAdmits_none hgauge i.share, ?_⟩, trivial⟩
  · intro v i hv hi _ e he _
    exact ((hwhole v hv).rounds (hlist i hi e he)).2
  · intro hnone
    rw [hnone] at hrecord
    contradiction

namespace Sample

def repaid : List (Call config) :=
  opened none ++ [.deposit 1 0 100, .onInitialize, .withdraw 1 0 (some 30), .withdrawClaim 1 0]

/-- An account withdraws everything twice before it is paid. -/
def forgotten : List (Call config) :=
  opened none ++ [.deposit 1 0 100, .onInitialize, .withdraw 1 0 none, .withdraw 1 0 none]

theorem opened_principal : Meets step (KeepsPrincipal 0) start (opened none) := by
  refine ⟨fun _ _ => ⟨trivial, fun _ _ => rfl, ?_⟩, fun _ _ => ⟨trivial, trivial⟩, trivial⟩
  intro hfalse
  contradiction

theorem whole_of_all {s : State config} (h : (s.poolView 0).all (fun v => v.Whole) = true)
    (v : PoolView) (hv : s.poolView 0 = some v) : v.Whole := by
  rw [hv, Option.all_some] at h
  exact of_decide_eq_true h

theorem deposit_principal :
    KeepsPrincipal 0 (run step start (opened none)) (.deposit 1 0 100) := by
  apply deposit_whole
  · exact whole_of_all (by decide +kernel)
  · exact Option.isNone_iff_eq_none.mp (by decide +kernel)
  · decide +kernel

theorem withdraw_principal :
    KeepsPrincipal 0 (run step start (opened none ++ [.deposit 1 0 100, .onInitialize]))
      (.withdraw 1 0 (some 30)) := by
  apply withdraw_part
  exact Option.isNone_iff_eq_none.mp (by decide +kernel)

theorem withdrawClaim_principal :
    KeepsPrincipal 0 (run step start (opened none ++
      [.deposit 1 0 100, .onInitialize, .withdraw 1 0 (some 30)])) (.withdrawClaim 1 0) := by
  apply withdrawClaim_whole
  · exact whole_of_all (by decide +kernel)
  · exact Option.isNone_iff_eq_none.mp (by decide +kernel)
  · decide +kernel
  · intro i hi
    have hall : ((run step start (opened none ++ [.deposit 1 0 100, .onInitialize,
        .withdraw 1 0 (some 30)])).shareView 0 1).all
        (fun i => ∀ e ∈ i.withdrawList, e.2 ≤ u128Max) = true := by decide +kernel
    rw [hi, Option.all_some] at hall
    exact of_decide_eq_true hall

theorem repaid_meets : Meets step (KeepsPrincipal 0) start repaid := by
  apply meets_append opened_principal
  refine ⟨fun _ _ => deposit_principal, fun _ _ => ⟨trivial, trivial⟩,
    fun _ _ => withdraw_principal, fun _ _ => withdrawClaim_principal, trivial⟩

end Sample

theorem principal_kept_sample : PrincipalKept (run step Sample.start Sample.repaid) 0 :=
  (@principal_kept ℕ _ Sample.config Sample.wealth (fun _ => some 2) 1 0 Sample.repaid
    Sample.repaid_meets).1

/-- The record of an account goes away with units on its withdraw list. -/
theorem forgotten_units : ¬ PrincipalKept (run step Sample.start Sample.forgotten) 0 := by
  intro h
  have hunits := h.units 1
  revert hunits
  decide +kernel

end Bifrost.Farming
