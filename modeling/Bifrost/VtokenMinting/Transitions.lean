import Bifrost.Lib.Shares
import Bifrost.VtokenMinting.Pallet

/-!
# What the helpers and calls of vtoken-minting do

One lemma for each function: the conditions under which it succeeds and the storage it
leaves, written as the storage before with the changed items replaced.
-/

namespace Bifrost.VtokenMinting

open Result Shares
set_option autoImplicit false

variable {AccountId : Type} {cfg : Config AccountId} {s s' : State cfg} {c : CurrencyId}

theorem transfer_ok {a b : AccountId} {n : ℕ} (h : s.transfer c a b n = .ok s') :
    ∃ L, cfg.currency.transfer s.ledger c a b n = .ok L ∧ s' = { s with ledger := L } := by
  simp only [State.transfer, bind_eq_ok, mapErr_eq_ok, pure_eq_ok] at h
  obtain ⟨L, hL, rfl⟩ := h
  exact ⟨L, hL, rfl⟩

theorem updateTotal_add_ok {total n m : ℕ} (h : updateTotal total n .add = .ok m) :
    m = total + n ∧ m ≤ u128Max := by
  simp only [updateTotal, okOr_eq_ok, U128.checkedAdd_eq_some] at h
  exact ⟨h.1.symm, h.2⟩

theorem updateTotal_sub_ok {total n m : ℕ} (h : updateTotal total n .sub = .ok m) :
    n ≤ total ∧ m = total - n := by
  simp only [updateTotal, okOr_eq_ok, U128.checkedSub_eq_some] at h
  exact ⟨h.1, h.2.symm⟩

theorem updateTokenPool_ok {n : ℕ} {op : Operation} (h : s.updateTokenPool c n op = .ok s') :
    ∃ target amount, s.tokenToVToken c = some target ∧
      updateTotal (s.tokenPool target) n op = .ok amount ∧
      s' = { s with tokenPool := Function.update s.tokenPool target amount } := by
  simp only [State.updateTokenPool, State.getVtokenForToken, bind_eq_ok, okOr_eq_ok, mapErr_eq_ok,
    pure_eq_ok] at h
  obtain ⟨target, htarget, amount, hamount, rfl⟩ := h
  exact ⟨target, amount, htarget, hamount, rfl⟩

/-- The storage after the tracked issuance of `v` became `issuance`. -/
def State.issued (s : State cfg) (v : CurrencyId) (issuance : ℕ) : State cfg :=
  { s with
    vtokenIssuance := Function.update s.vtokenIssuance v issuance
    events := s.events ++ [.vtokenIssuanceSet v issuance] }

theorem setVCurrencyIssuanceInner_ok {v : CurrencyId} {adjustment : ℤ}
    (h : s.setVCurrencyIssuanceInner v adjustment = .ok s') :
    v.isVtoken = true ∧ ∃ issuance, updateTotal (s.vtokenIssuance v) adjustment.natAbs
      (if 0 ≤ adjustment then .add else .sub) = .ok issuance ∧ s' = s.issued v issuance := by
  simp only [State.setVCurrencyIssuanceInner, bind_eq_ok, ensure_eq_ok, mapErr_eq_ok,
    pure_eq_ok] at h
  obtain ⟨-, hv, issuance, hissuance, rfl⟩ := h
  exact ⟨hv, issuance, hissuance, rfl⟩

theorem issue_ok {v : CurrencyId} {n : ℕ} {i : ℤ} (hi : toI128 n = .ok i)
    (h : s.setVCurrencyIssuanceInner v i = .ok s') :
    v.isVtoken = true ∧ s' = s.issued v (s.vtokenIssuance v + n) := by
  simp only [toI128, bind_eq_ok, ensure_eq_ok, pure_eq_ok] at hi
  obtain ⟨-, -, rfl⟩ := hi
  obtain ⟨hv, issuance, hissuance, rfl⟩ := setVCurrencyIssuanceInner_ok h
  rw [if_pos (Int.natCast_nonneg n), Int.natAbs_natCast] at hissuance
  rw [(updateTotal_add_ok hissuance).1]
  exact ⟨hv, rfl⟩

theorem burn_ok {v : CurrencyId} {n : ℕ} {i : ℤ} (hi : toI128 n = .ok i)
    (h : s.setVCurrencyIssuanceInner v (-i) = .ok s') :
    v.isVtoken = true ∧ n ≤ s.vtokenIssuance v ∧ s' = s.issued v (s.vtokenIssuance v - n) := by
  simp only [toI128, bind_eq_ok, ensure_eq_ok, pure_eq_ok] at hi
  obtain ⟨-, -, rfl⟩ := hi
  obtain ⟨hv, issuance, hissuance, rfl⟩ := setVCurrencyIssuanceInner_ok h
  rw [Int.natAbs_neg, Int.natAbs_natCast] at hissuance
  refine ⟨hv, ?_⟩
  by_cases hn : n = 0
  · subst n
    simp only [Int.natCast_zero, Int.neg_zero, Int.le_refl, if_true] at hissuance
    rw [(updateTotal_add_ok hissuance).1]
    exact ⟨Nat.zero_le _, rfl⟩
  · rw [if_neg (by omega)] at hissuance
    obtain ⟨hle, rfl⟩ := updateTotal_sub_ok hissuance
    exact ⟨hle, rfl⟩

theorem getTokenPool_of_mapped {s : State cfg} {c target : CurrencyId}
    (h : s.tokenToVToken c = some target) : s.getTokenPool c = s.tokenPool target := by
  simp [State.getTokenPool, State.getVtokenForToken, h]

theorem getVCurrencyAmount_ok {s : State cfg} {c v : CurrencyId} {n m : ℕ}
    (h : s.getVCurrencyAmountByCurrencyAmount c v n = .ok m) :
    m = mintedFor (s.getTokenPool c) (s.vtokenIssuance v) n := by
  simp only [State.getVCurrencyAmountByCurrencyAmount, State.getVCurrencyIssuanceInner,
    bind_eq_ok, ensure_eq_ok, pure_eq_ok] at h
  obtain ⟨_, ⟨-, -, rfl⟩, h⟩ := h
  unfold mintedFor
  split at h
  · rw [if_pos (by assumption)]
    simp only [pure_eq_ok] at h
    exact h.symm
  · rw [if_neg (by assumption)]
    simp only [okOr_eq_ok, U128.mulDiv_eq_some] at h
    exact h.2.1.symm

theorem getCurrencyAmount_ok {s : State cfg} {c v : CurrencyId} {n m : ℕ}
    (h : s.getCurrencyAmountByVCurrencyAmount c v n = .ok m) :
    m = redeemedFor (s.getTokenPool c) (s.vtokenIssuance v) n := by
  simp only [State.getCurrencyAmountByVCurrencyAmount, State.getVCurrencyIssuanceInner,
    bind_eq_ok, ensure_eq_ok, pure_eq_ok] at h
  obtain ⟨_, ⟨-, -, rfl⟩, h⟩ := h
  unfold redeemedFor
  split at h
  · rw [if_pos (by assumption)]
    simp only [pure_eq_ok] at h
    exact h.symm
  · rw [if_neg (by assumption)]
    simp only [okOr_eq_ok, U128.mulDiv_eq_some] at h
    exact h.2.1.symm

section Calls

variable [DecidableEq AccountId] {redeemer : AccountId} {rt : RedeemType AccountId}

theorem updateUnlockLedger_ok {account : AccountId}
    {n id : ℕ} {t : TimeUnit} {rt : Option (RedeemType AccountId)} {op : Operation} {b : Bool}
    (h : s.updateUnlockLedger account c n id t rt op = .ok (b, s')) :
    ∃ L, (s.unlockLedgers c).update cfg.limits account n id t rt op = .ok (b, L) ∧
      s' = { s with unlockLedgers := Function.update s.unlockLedgers c L } := by
  simp only [State.updateUnlockLedger, bind_eq_ok, mapErr_eq_ok, pure_eq_ok] at h
  obtain ⟨⟨b', L⟩, hL, h⟩ := h
  cases h
  exact ⟨L, hL, rfl⟩

/-- The storage after `n` tokens bought `m` vTokens: the pool of the token's vToken and the
issuance of `v` grow. -/
def State.minted (s : State cfg) (target v : CurrencyId) (n m : ℕ) (L : cfg.currency.Ledger)
    (es : List (Event AccountId)) : State cfg :=
  { s with
    tokenPool := Function.update s.tokenPool target (s.tokenPool target + n)
    vtokenIssuance := Function.update s.vtokenIssuance v (s.vtokenIssuance v + m)
    ledger := L
    events := s.events ++ es }

section

omit [DecidableEq AccountId]

theorem mintWithoutTransfer_ok {minter : AccountId} {v c : CurrencyId}
    {amount n m fee : ℕ} (h : mintWithoutTransfer s minter v c amount = .ok (n, m, fee, s')) :
    fee = s.fees.1.mulFloor amount ∧ n + fee = amount ∧ v.isVtoken = true ∧
      ∃ target L, s.tokenToVToken c = some target ∧
        m = mintedFor (s.tokenPool target) (s.vtokenIssuance v) n ∧
        s' = s.minted target v n m L [.vtokenIssuanceSet v (s.vtokenIssuance v + m)] := by
  simp only [mintWithoutTransfer, bind_eq_ok, okOr_eq_ok, mapErr_eq_ok, pure_eq_ok,
    U128.checkedSub_eq_some] at h
  obtain ⟨s₁, h₁, n', ⟨hle, hn⟩, m', hm, L, hL, s₂, h₂, i, hi, s₃, h₃, h⟩ := h
  obtain ⟨L₁, -, rfl⟩ := transfer_ok h₁
  obtain ⟨target, pool, htarget, hpool, rfl⟩ := updateTokenPool_ok h₂
  obtain ⟨hv, rfl⟩ := issue_ok hi h₃
  have hpool' := (updateTotal_add_ok hpool).1
  have hm' := getVCurrencyAmount_ok hm
  have htarget' : s.tokenToVToken c = some target := htarget
  have hget : ({ s with ledger := L₁ } : State cfg).getTokenPool c = s.tokenPool target :=
    getTokenPool_of_mapped htarget'
  rw [hget] at hm'
  cases h
  refine ⟨rfl, by omega, hv, target, L, htarget', hm', ?_⟩
  simp only [State.issued, State.minted, hpool']

theorem doMint_ok {minter : AccountId} {c v : CurrencyId} {amount m : ℕ}
    {channel : Option ℕ} (h : doMint s minter c amount channel = .ok (v, m, s')) :
    ∃ n fee L es, fee = s.fees.1.mulFloor amount ∧ n + fee = amount ∧ v.isVtoken = true ∧
      s.tokenToVToken c = some v ∧ m = mintedFor (s.tokenPool v) (s.vtokenIssuance v) n ∧
      s' = s.minted v v n m L es := by
  simp only [doMint, bind_eq_ok, ensure_eq_ok, okOr_eq_ok, mapErr_eq_ok, pure_eq_ok,
    State.getVtokenForToken] at h
  obtain ⟨-, -, v', hv', ⟨n, m', fee, s₁⟩, h₁, s₂, h₂, L, -, h⟩ := h
  obtain ⟨hfee, hn, hvt, target, L₁, htarget, hm, rfl⟩ := mintWithoutTransfer_ok h₁
  obtain ⟨L₂, -, rfl⟩ := transfer_ok h₂
  have heq : target = v' := Option.some_inj.mp (htarget.symm.trans hv')
  subst target
  cases h
  refine ⟨n, fee, L, [.vtokenIssuanceSet v (s.vtokenIssuance v + m'),
    .minted minter c amount m' fee channel], hfee, hn, hvt, hv', hm, ?_⟩
  simp [State.minted, State.depositEvent]

theorem mintWithoutTransfer_tokens {minter : AccountId} {v c : CurrencyId}
    {amount n m fee : ℕ} (h : mintWithoutTransfer s minter v c amount = .ok (n, m, fee, s')) :
    n + fee = amount ∧ ∃ L, cfg.currency.transfer s.ledger c minter cfg.feeAccount fee = .ok L ∧
      cfg.currency.deposit L v minter m = .ok s'.ledger := by
  refine ⟨(mintWithoutTransfer_ok h).2.1, ?_⟩
  simp only [mintWithoutTransfer, bind_eq_ok, okOr_eq_ok, mapErr_eq_ok, pure_eq_ok] at h
  obtain ⟨s₁, h₁, n', -, m', -, L, hL, s₂, h₂, i, hi, s₃, h₃, h⟩ := h
  obtain ⟨L₁, hL₁, rfl⟩ := transfer_ok h₁
  obtain ⟨target, pool, -, -, rfl⟩ := updateTokenPool_ok h₂
  obtain ⟨-, rfl⟩ := issue_ok hi h₃
  cases h
  exact ⟨L₁, hL₁, hL⟩

theorem doMint_tokens {minter : AccountId} {c v : CurrencyId} {amount m : ℕ}
    {channel : Option ℕ} (h : doMint s minter c amount channel = .ok (v, m, s')) :
    ∃ n fee L L₁ L₂, n + fee = amount ∧
      cfg.currency.transfer s.ledger c minter cfg.feeAccount fee = .ok L ∧
      cfg.currency.deposit L v minter m = .ok L₁ ∧
      cfg.currency.transfer L₁ c minter cfg.entranceAccount n = .ok L₂ ∧
      cfg.recordMintAmount L₂ channel v m = .ok s'.ledger := by
  simp only [doMint, bind_eq_ok, mapErr_eq_ok, pure_eq_ok] at h
  obtain ⟨-, -, v', -, ⟨n, m', fee, s₁⟩, h₁, s₂, h₂, L, hL, h⟩ := h
  obtain ⟨hsum, L₁, hfee, hdeposit⟩ := mintWithoutTransfer_tokens h₁
  obtain ⟨L₂, hL₂, rfl⟩ := transfer_ok h₂
  cases h
  exact ⟨n, fee, L₁, s₁.ledger, L₂, hsum, hfee, hdeposit, hL₂, hL⟩

end

def State.redeemed (s : State cfg) (c v target : CurrencyId) (n m : ℕ)
    (ledgers : UnlockLedgers AccountId) (L : cfg.currency.Ledger)
    (es : List (Event AccountId)) : State cfg :=
  { s with
    tokenPool := Function.update s.tokenPool target (s.tokenPool target - n)
    vtokenIssuance := Function.update s.vtokenIssuance v (s.vtokenIssuance v - m)
    unlockLedgers := Function.update s.unlockLedgers c ledgers
    tokenUnlockNextId := Function.update s.tokenUnlockNextId v (s.tokenUnlockNextId v + 1)
    ledger := L
    events := s.events ++ es }

def State.afterRedeemFee (s : State cfg) (amount : ℕ) : ℕ := amount - s.fees.2.mulFloor amount

omit [DecidableEq AccountId] in
theorem redeemCurrency_some {s : State cfg} {c d v : CurrencyId}
    (h : redeemCurrency s (some c) v = .ok d) : d = c := by
  simp only [redeemCurrency] at h
  split at h
  · simp only [bind_eq_ok, pure_eq_ok] at h
    obtain ⟨-, -, -, -, h⟩ := h
    exact h.symm
  · simp only [bind_eq_ok, pure_eq_ok] at h
    obtain ⟨-, -, -, -, h⟩ := h
    exact h.symm

def State.redemption (s : State cfg) (c v : CurrencyId) (amount : ℕ) : ℕ :=
  redeemedFor (s.getTokenPool c) (s.vtokenIssuance v) (s.afterRedeemFee amount)

theorem doRedeem_ok {oc : Option CurrencyId} {v : CurrencyId} {amount : ℕ}
    (h : doRedeem s redeemer oc v amount rt = .ok s') :
    ∃ c target n t ledgers L es, redeemCurrency s oc v = .ok c ∧ v.isVtoken = true ∧
      s.tokenToVToken c = some target ∧
      n = redeemedFor (s.tokenPool target) (s.vtokenIssuance v) (s.afterRedeemFee amount) ∧
      s.afterRedeemFee amount ≤ s.vtokenIssuance v ∧ n ≤ s.tokenPool target ∧
      lockToTimeUnit s c = .ok t ∧ s.tokenUnlockNextId v + 1 ≤ u32Max ∧
      (s.unlockLedgers c).update cfg.limits redeemer n (s.tokenUnlockNextId v) t (some rt) .add =
        .ok (false, ledgers) ∧
      s' = s.redeemed c v target n (s.afterRedeemFee amount) ledgers L es := by
  simp only [doRedeem, bind_eq_ok, ensure_eq_ok, okOr_eq_ok, mapErr_eq_ok, pure_eq_ok,
    U128.checkedSub_eq_some] at h
  obtain ⟨c, hc, -, -, s₁, h₁, m, ⟨hle, hm⟩, n, hn, L, -, i, hi, s₂, h₂, t, ht, s₃, h₃,
    ⟨b, s₄⟩, h₄, -, hnext, L', -, h⟩ := h
  obtain ⟨L₁, -, rfl⟩ := transfer_ok h₁
  obtain ⟨hv, hburn, rfl⟩ := burn_ok hi h₂
  obtain ⟨target, pool, htarget, hpool, rfl⟩ := updateTokenPool_ok h₃
  obtain ⟨hpoolle, rfl⟩ := updateTotal_sub_ok hpool
  obtain ⟨ledgers, hledgers, rfl⟩ := updateUnlockLedger_ok h₄
  obtain ⟨rt', -, rfl, -, -⟩ := update_add_ok hledgers
  have htarget' : s.tokenToVToken c = some target := htarget
  have hget : ({ s with ledger := L₁ } : State cfg).getTokenPool c = s.tokenPool target :=
    getTokenPool_of_mapped htarget'
  have hn' := getCurrencyAmount_ok hn
  rw [hget] at hn'
  have hm' : s.afterRedeemFee amount = m := hm
  subst m
  subst s'
  refine ⟨c, target, n, t, ledgers, cfg.onRedeemed L' redeemer c n (s.afterRedeemFee amount)
    (s.fees.2.mulFloor amount), [.vtokenIssuanceSet v (s.vtokenIssuance v -
    s.afterRedeemFee amount), .redeemed redeemer c n (s.afterRedeemFee amount)
    (s.fees.2.mulFloor amount) (s.tokenUnlockNextId v)], hc, hv, htarget', hn', hburn, hpoolle, ht,
    hnext, hledgers, ?_⟩
  simp only [State.redeemed, State.depositEvent, State.issued, List.append_assoc]
  rfl

theorem doRedeem_tokens {oc : Option CurrencyId} {v : CurrencyId} {amount : ℕ}
    (h : doRedeem s redeemer oc v amount rt = .ok s') :
    ∃ c L L₁ L₂, redeemCurrency s oc v = .ok c ∧
      cfg.currency.transfer s.ledger v redeemer cfg.redeemFeeAccount
        (s.fees.2.mulFloor amount) = .ok L ∧
      cfg.currency.withdraw L v redeemer (s.afterRedeemFee amount) = .ok L₁ ∧
      cfg.recordRedeemAmount L₁ v (s.afterRedeemFee amount) = .ok L₂ ∧
      s'.ledger = cfg.onRedeemed L₂ redeemer c (s.redemption c v amount) (s.afterRedeemFee amount)
        (s.fees.2.mulFloor amount) := by
  simp only [doRedeem, bind_eq_ok, okOr_eq_ok, mapErr_eq_ok, pure_eq_ok,
    U128.checkedSub_eq_some] at h
  obtain ⟨c, hc, -, -, s₁, h₁, m, ⟨-, hm⟩, n, hn, L, hL, i, hi, s₂, h₂, t, -, s₃, h₃,
    ⟨b, s₄⟩, h₄, -, -, L', hL', h⟩ := h
  obtain ⟨L₁, hfee, rfl⟩ := transfer_ok h₁
  obtain ⟨-, -, rfl⟩ := burn_ok hi h₂
  obtain ⟨target, pool, -, -, rfl⟩ := updateTokenPool_ok h₃
  obtain ⟨ledgers, -, rfl⟩ := updateUnlockLedger_ok h₄
  have hm' : s.afterRedeemFee amount = m := hm
  subst m
  have hn' : n = s.redemption c v amount := getCurrencyAmount_ok hn
  subst n
  subst s'
  exact ⟨c, L₁, L, L', hc, hfee, hL, hL', rfl⟩

omit [DecidableEq AccountId] in
theorem addToRebond_ok {n : ℕ} (h : s.addToRebond c n = .ok s') :
    ∃ m, s.tokenToRebond c = some m ∧
      s' = { s with tokenToRebond := Function.update s.tokenToRebond c (some (m + n)) } := by
  simp only [State.addToRebond, bind_eq_ok, okOr_eq_ok, U128.checkedAdd_eq_some,
    pure_eq_ok] at h
  obtain ⟨m, hm, _, ⟨rfl, -⟩, rfl⟩ := h
  exact ⟨m, hm, rfl⟩

/-- The storage a rebond leaves: `ledgers` without what was rebonded, the rest as after a
mint. -/
def State.rebonded (s : State cfg) (c target v : CurrencyId) (n m rebonded : ℕ)
    (ledgers : UnlockLedgers AccountId) (L : cfg.currency.Ledger)
    (es : List (Event AccountId)) : State cfg :=
  { s with
    unlockLedgers := Function.update s.unlockLedgers c ledgers
    tokenPool := Function.update s.tokenPool target (s.tokenPool target + n)
    vtokenIssuance := Function.update s.vtokenIssuance v (s.vtokenIssuance v + m)
    tokenToRebond := Function.update s.tokenToRebond c (some rebonded)
    ledger := L
    events := s.events ++ es }

omit [DecidableEq AccountId] in
theorem convertToVtoken_of_mapped {s : State cfg} {c v target : CurrencyId}
    (h : s.convertToVtoken c = .ok v) (htarget : s.tokenToVToken c = some target) :
    v = target := by
  simp only [State.convertToVtoken, State.getVtokenForToken, htarget, pure_eq_ok] at h
  exact h.symm

def rebondLedgers (limits : Limits) (rebonder : AccountId) :
    List ℕ → ℕ → UnlockLedgers AccountId → Except Error (UnlockLedgers AccountId)
  | [], _, L => pure L
  | unlockId :: ids, temp, L => do
    let r ← okOr (L.token.get unlockId) .tokenUnlockLedgerNotFound
    let (isRemoveRecord, L) ← L.update limits rebonder (if temp ≤ r.amount then temp else r.amount)
      unlockId r.timeUnit none .sub
    if isRemoveRecord then
      rebondLedgers limits rebonder ids (if temp ≤ r.amount then temp else temp - r.amount) L
    else pure L

theorem rebondLoop_ok {rebonder : AccountId} {ids : List ℕ} {temp : ℕ}
    (h : rebondLoop rebonder c ids temp s = .ok s') :
    ∃ L, rebondLedgers cfg.limits rebonder ids temp (s.unlockLedgers c) = .ok L ∧
      s' = { s with unlockLedgers := Function.update s.unlockLedgers c L } := by
  induction ids generalizing temp s with
  | nil =>
    simp only [rebondLoop, pure_eq_ok] at h
    subst s'
    exact ⟨s.unlockLedgers c, rfl, by simp⟩
  | cons id ids ih =>
    simp only [rebondLoop, bind_eq_ok, okOr_eq_ok] at h
    obtain ⟨r, hr, ⟨b, s₁⟩, h₁, h⟩ := h
    obtain ⟨L₁, hL₁, rfl⟩ := updateUnlockLedger_ok h₁
    simp only [rebondLedgers, bind_eq_ok, okOr_eq_ok]
    cases b with
    | false =>
      simp only [Bool.false_eq_true, if_false, pure_eq_ok] at h
      subst s'
      exact ⟨L₁, ⟨r, hr, (false, L₁), hL₁, by simp⟩, rfl⟩
    | true =>
      simp only [if_true] at h
      obtain ⟨L, hL, rfl⟩ := ih h
      simp only [Function.update_self] at hL
      refine ⟨L, ⟨r, hr, (true, L₁), hL₁, by simpa using hL⟩, ?_⟩
      simp only [Function.update_idem]

theorem rebond_ok {who : AccountId} {amount : ℕ} (h : rebond s who c amount = .ok s') :
    ∃ g ledgers target n m fee rebonded L es, (s.unlockLedgers c).user.get who = some g ∧
      amount ≤ g.total ∧
      rebondLedgers cfg.limits who g.ids.reverse amount (s.unlockLedgers c) = .ok ledgers ∧
      fee = s.fees.1.mulFloor amount ∧ n + fee = amount ∧ s.tokenToVToken c = some target ∧
      m = mintedFor (s.tokenPool target) (s.vtokenIssuance target) n ∧
      s' = s.rebonded c target target n m rebonded ledgers L es := by
  simp only [rebond, bind_eq_ok, ensure_eq_ok, okOr_eq_ok, pure_eq_ok] at h
  obtain ⟨v, hv, g, hg, -, hle, s₁, h₁, ⟨n, m, fee, s₂⟩, h₂, s₃, h₃, rfl⟩ := h
  obtain ⟨ledgers, hledgers, rfl⟩ := rebondLoop_ok h₁
  obtain ⟨hfee, hn, -, target, L, htarget, hm, rfl⟩ := mintWithoutTransfer_ok h₂
  obtain ⟨k, -, rfl⟩ := addToRebond_ok h₃
  have hvt := convertToVtoken_of_mapped hv htarget
  subst v
  refine ⟨g, ledgers, target, n, m, fee, k + amount, L,
    [.vtokenIssuanceSet target (s.vtokenIssuance target + m), .rebonded who c amount m fee], hg,
    hle, hledgers, hfee, hn, htarget, hm, ?_⟩
  simp only [State.rebonded, State.minted, State.depositEvent, List.append_assoc]
  rfl

theorem rebondByUnlockId_ok {who : AccountId} {id : ℕ} (h : rebondByUnlockId s who c id = .ok s') :
    ∃ r b ledgers target n m fee rebonded L es, (s.unlockLedgers c).token.get id = some r ∧
      r.redeemer = who ∧
      (s.unlockLedgers c).update cfg.limits who r.amount id r.timeUnit none .sub =
        .ok (b, ledgers) ∧
      fee = s.fees.1.mulFloor r.amount ∧ n + fee = r.amount ∧ s.tokenToVToken c = some target ∧
      m = mintedFor (s.tokenPool target) (s.vtokenIssuance target) n ∧
      s' = s.rebonded c target target n m rebonded ledgers L es := by
  simp only [rebondByUnlockId, bind_eq_ok, ensure_eq_ok, okOr_eq_ok, pure_eq_ok] at h
  obtain ⟨v, hv, r, hr, -, hwho, ⟨b, s₁⟩, h₁, ⟨n, m, fee, s₂⟩, h₂, s₃, h₃, rfl⟩ := h
  obtain ⟨ledgers, hledgers, rfl⟩ := updateUnlockLedger_ok h₁
  obtain ⟨hfee, hn, -, target, L, htarget, hm, rfl⟩ := mintWithoutTransfer_ok h₂
  obtain ⟨k, -, rfl⟩ := addToRebond_ok h₃
  have hvt := convertToVtoken_of_mapped hv htarget
  subst v
  refine ⟨r, b, ledgers, target, n, m, fee, k + n, L,
    [.vtokenIssuanceSet target (s.vtokenIssuance target + m),
      .rebondedByUnlockId who c r.amount m fee id], hr, hwho, hledgers, hfee, hn, htarget, hm, ?_⟩
  simp only [State.rebonded, State.minted, State.depositEvent, List.append_assoc]
  rfl

/-! The redeem queue. -/

def SentByXcm (cfg : Config AccountId) (c : CurrencyId) (amount : ℕ) (dest : Location AccountId)
    (L L' : cfg.currency.Ledger) : Prop :=
  if c = fil then
    cfg.xcmTransferMulticurrencies L cfg.entranceAccount
      [(c, amount), (bnc, cfg.getMoonbeamTransferToFee L)] 1 dest = .ok L'
  else cfg.xcmTransfer L cfg.entranceAccount c amount dest = .ok L'

omit [DecidableEq AccountId] in
theorem sendByXcm_ok {amount : ℕ} {dest : Location AccountId}
    (h : sendByXcm s c amount dest = .ok s') :
    ∃ L, s' = { s with ledger := L } ∧ SentByXcm cfg c amount dest s.ledger L := by
  unfold sendByXcm at h
  unfold SentByXcm
  split at h
  · simp only [bind_eq_ok, mapErr_eq_ok, pure_eq_ok] at h
    obtain ⟨L, hL, rfl⟩ := h
    exact ⟨L, rfl, by rwa [if_pos (by assumption)]⟩
  · simp only [bind_eq_ok, mapErr_eq_ok, pure_eq_ok] at h
    obtain ⟨L, hL, rfl⟩ := h
    exact ⟨L, rfl, by rwa [if_neg (by assumption)]⟩

def Sent (cfg : Config AccountId) (c : CurrencyId) (redeemer : AccountId) (amount : ℕ)
    (redeemType : RedeemType AccountId) (L L' : cfg.currency.Ledger) : Prop :=
  match redeemType with
  | .native => cfg.currency.transfer L c cfg.entranceAccount redeemer amount = .ok L'
  | .hyperBridge dest receiver =>
    ∃ payer fee, cfg.getHyperbridgePayerAndFee L dest = .ok (payer, fee) ∧
      cfg.sendAndCall L c cfg.entranceAccount receiver dest amount payer fee = .ok L'
  | redeemType =>
    ∃ dest redeemTo, parachainDest cfg redeemType = some (dest, redeemTo) ∧
      SentByXcm cfg c amount dest L L'

/-- A local redemption below the existential deposit is passed over. -/
def Dust (cfg : Config AccountId) (c : CurrencyId) (amount : ℕ)
    (redeemType : RedeemType AccountId) : Prop :=
  redeemType = .native ∧ amount < cfg.currency.minimumBalance c

omit [DecidableEq AccountId] in
theorem payWhole_ok {amount n : ℕ} {redeemTo' : RedeemTo AccountId}
    (h : payWhole s redeemer c amount rt = .ok (n, redeemTo', s')) :
    n = amount ∧ ∃ L, s' = { s with ledger := L } ∧
      (Sent cfg c redeemer amount rt s.ledger L ∨ L = s.ledger ∧ Dust cfg c amount rt) := by
  have hxcm : ∀ dest redeemTo, (do
      let s ← sendByXcm s c amount dest
      pure (amount, redeemTo, s)) = Except.ok (n, redeemTo', s') →
      n = amount ∧ ∃ L, s' = { s with ledger := L } ∧ SentByXcm cfg c amount dest s.ledger L := by
    intro dest redeemTo h
    simp only [bind_eq_ok, pure_eq_ok] at h
    obtain ⟨s₁, h₁, h⟩ := h
    obtain ⟨L, rfl, hL⟩ := sendByXcm_ok h₁
    cases h
    exact ⟨rfl, L, rfl, hL⟩
  cases rt with
  | native =>
    simp only [payWhole] at h
    split at h
    · simp only [bind_eq_ok, pure_eq_ok] at h
      obtain ⟨s₁, h₁, h⟩ := h
      obtain ⟨L, hL, rfl⟩ := transfer_ok h₁
      cases h
      exact ⟨rfl, L, rfl, Or.inl hL⟩
    · simp only [pure_eq_ok] at h
      cases h
      exact ⟨rfl, s.ledger, rfl, Or.inr ⟨rfl, rfl, Nat.lt_of_not_le (by assumption)⟩⟩
  | hyperBridge dest receiver =>
    simp only [payWhole, bind_eq_ok, mapErr_eq_ok, pure_eq_ok] at h
    obtain ⟨⟨payer, fee⟩, hfee, L, hL, h⟩ := h
    cases h
    exact ⟨rfl, L, rfl, Or.inl ⟨payer, fee, hfee, hL⟩⟩
  | astar receiver =>
    obtain ⟨hn, L, hs', hL⟩ := hxcm _ _ h
    exact ⟨hn, L, hs', Or.inl ⟨_, _, rfl, hL⟩⟩
  | moonbeam receiver =>
    obtain ⟨hn, L, hs', hL⟩ := hxcm _ _ h
    exact ⟨hn, L, hs', Or.inl ⟨_, _, rfl, hL⟩⟩
  | hydradx receiver =>
    obtain ⟨hn, L, hs', hL⟩ := hxcm _ _ h
    exact ⟨hn, L, hs', Or.inl ⟨_, _, rfl, hL⟩⟩
  | interlay receiver =>
    obtain ⟨hn, L, hs', hL⟩ := hxcm _ _ h
    exact ⟨hn, L, hs', Or.inl ⟨_, _, rfl, hL⟩⟩
  | manta receiver =>
    obtain ⟨hn, L, hs', hL⟩ := hxcm _ _ h
    exact ⟨hn, L, hs', Or.inl ⟨_, _, rfl, hL⟩⟩

omit [DecidableEq AccountId] in
theorem payPart_ok {balance n : ℕ} {redeemTo : RedeemTo AccountId}
    (h : payPart s redeemer c balance rt = .ok (n, redeemTo, s')) :
    ∃ L, s' = { s with ledger := L } ∧
      (n = balance ∧ Sent cfg c redeemer balance rt s.ledger L ∨ n = 0 ∧ L = s.ledger) := by
  unfold payPart at h
  split at h
  · split at h
    · simp only [bind_eq_ok, pure_eq_ok] at h
      obtain ⟨s₁, h₁, h⟩ := h
      obtain ⟨L, hL, rfl⟩ := transfer_ok h₁
      cases h
      exact ⟨L, rfl, Or.inl ⟨rfl, hL⟩⟩
    · simp only [pure_eq_ok] at h
      cases h
      exact ⟨s.ledger, rfl, Or.inr ⟨rfl, rfl⟩⟩
  · simp only [pure_eq_ok] at h
    cases h
    exact ⟨s.ledger, rfl, Or.inr ⟨rfl, rfl⟩⟩

omit [DecidableEq AccountId] in
theorem transferToByRedeemType_ok {amount balance n : ℕ} {redeemTo : RedeemTo AccountId}
    (h : transferToByRedeemType s redeemer c amount balance rt = .ok (n, redeemTo, s')) :
    n ≤ amount ∧ (amount ≤ balance → n = amount) ∧ ∃ L, s' = { s with ledger := L } ∧
      (Sent cfg c redeemer n rt s.ledger L ∨
        L = s.ledger ∧ (n = 0 ∨ n = amount ∧ Dust cfg c amount rt)) := by
  unfold transferToByRedeemType at h
  split at h
  · obtain ⟨rfl, L, hs', hL⟩ := payWhole_ok h
    refine ⟨Nat.le_refl _, fun _ => rfl, L, hs', ?_⟩
    rcases hL with hsent | ⟨hL, hdust⟩
    · exact Or.inl hsent
    · exact Or.inr ⟨hL, Or.inr ⟨rfl, hdust⟩⟩
  · rename_i hlow
    obtain ⟨L, hs', hL⟩ := payPart_ok h
    rcases hL with ⟨rfl, hsent⟩ | ⟨rfl, hL⟩
    · exact ⟨by omega, fun hle => absurd hle hlow, L, hs', Or.inl hsent⟩
    · exact ⟨Nat.zero_le _, fun hle => absurd hle hlow, L, hs', Or.inr ⟨hL, Or.inl rfl⟩⟩

def State.served (s : State cfg) (c : CurrencyId) (ledgers : UnlockLedgers AccountId)
    (L : cfg.currency.Ledger) (es : List (Event AccountId)) : State cfg :=
  { s with
    unlockLedgers := Function.update s.unlockLedgers c ledgers
    ledger := L
    events := s.events ++ es }

theorem processRedeem_ok {id amount balance : ℕ} {t : TimeUnit}
    (h : processRedeem s c redeemer id amount balance t rt = .ok s') :
    ∃ n L, n ≤ amount ∧ (amount ≤ balance → n = amount) ∧
      (Sent cfg c redeemer n rt s.ledger L ∨
        L = s.ledger ∧ (n = 0 ∨ n = amount ∧ Dust cfg c amount rt)) ∧
      (n = 0 ∧ s' = s.served c (s.unlockLedgers c) L [] ∨
        0 < n ∧ ∃ b ledgers redeemTo,
          (s.unlockLedgers c).update cfg.limits redeemer n id t none .sub = .ok (b, ledgers) ∧
          s' = s.served c ledgers (cfg.onRedeemSuccess L c redeemer n)
            [.redeemSuccess redeemer id c redeemTo n]) := by
  simp only [processRedeem, bind_eq_ok] at h
  obtain ⟨⟨n, redeemTo, s₁⟩, h₁, h⟩ := h
  obtain ⟨hle, hwhole, L, rfl, hL⟩ := transferToByRedeemType_ok h₁
  refine ⟨n, L, hle, hwhole, hL, ?_⟩
  split at h
  · simp only [pure_eq_ok] at h
    subst s'
    refine Or.inl ⟨by assumption, ?_⟩
    simp [State.served]
  · simp only [bind_eq_ok, pure_eq_ok] at h
    obtain ⟨⟨b, s₂⟩, h₂, rfl⟩ := h
    obtain ⟨ledgers, hledgers, rfl⟩ := updateUnlockLedger_ok h₂
    exact Or.inr ⟨Nat.pos_of_ne_zero (by assumption), b, ledgers, redeemTo, hledgers, rfl⟩

end Calls

end Bifrost.VtokenMinting
