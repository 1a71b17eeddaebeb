import Bifrost.StableAsset.Pallet

/-!
# What the functions of the stable-asset pallet do

One lemma for each function: the conditions under which it succeeds and what it leaves. An
operation writes nothing but the ledger, and the supply and the balances of its pool.
-/

namespace Bifrost.StableAsset

open Result
set_option autoImplicit false

variable {AccountId : Type} {cfg : Config AccountId} {s s' : State cfg}
  {info info' : PoolInfo AccountId} {asset : CurrencyId} {who : AccountId}

theorem transfer_ok {dest : AccountId} {n : ℕ} (h : s.transfer asset who dest n = .ok s') :
    ∃ L, cfg.currencies.transfer s.ledger asset who dest n = .ok L ∧
      s' = { s with ledger := L } := by
  simp only [State.transfer, bind_eq_ok, mapErr_eq_ok, pure_eq_ok] at h
  obtain ⟨L, hL, rfl⟩ := h
  exact ⟨L, hL, rfl⟩

theorem deposit_ok {n : ℕ} (h : s.deposit asset who n = .ok s') :
    ∃ L, cfg.currencies.deposit s.ledger asset who n = .ok L ∧ s' = { s with ledger := L } := by
  simp only [State.deposit, bind_eq_ok, mapErr_eq_ok, pure_eq_ok] at h
  obtain ⟨L, hL, rfl⟩ := h
  exact ⟨L, hL, rfl⟩

theorem withdraw_ok {n : ℕ} (h : s.withdraw asset who n = .ok s') :
    ∃ L, cfg.currencies.withdraw s.ledger asset who n = .ok L ∧ s' = { s with ledger := L } := by
  simp only [State.withdraw, bind_eq_ok, mapErr_eq_ok, pure_eq_ok] at h
  obtain ⟨L, hL, rfl⟩ := h
  exact ⟨L, hL, rfl⟩

theorem transferNonzero_ok {dest : AccountId} {n : ℕ}
    (h : s.transferNonzero asset who dest n = .ok s') :
    (n = 0 ∧ s' = s) ∨ s.transfer asset who dest n = .ok s' := by
  unfold State.transferNonzero at h
  split at h
  · exact Or.inr h
  · exact Or.inl ⟨by omega, (pure_eq_ok.mp h).symm⟩

theorem depositNonzero_ok {n : ℕ} (h : s.depositNonzero asset who n = .ok s') :
    (n = 0 ∧ s' = s) ∨ s.deposit asset who n = .ok s' := by
  unfold State.depositNonzero at h
  split at h
  · exact Or.inr h
  · exact Or.inl ⟨by omega, (pure_eq_ok.mp h).symm⟩

/-! What is read of a pool does not depend on its saved supply and balances. -/

/-- The balances of the pool account, and `D` of them. -/
def State.Valued (s : State cfg) (info : PoolInfo AccountId) (balances : List ℕ) (d : ℕ) : Prop :=
  s.currentBalances info = some balances ∧ s.invariantOf info balances = .ok d

theorem refresh_ok : s.refresh info = .ok info' ↔
    ∃ balances d, s.Valued info balances d ∧
      info' = { info with balances := balances, totalSupply := d } := by
  simp only [State.refresh, State.getBalanceUpdateAmount, State.getCollectYieldAmount, bind_eq_ok,
    okOr_eq_ok, pure_eq_ok, State.Valued]
  constructor
  · rintro ⟨_, ⟨balances, hbalances, rfl⟩, d, hd, rfl⟩
    exact ⟨balances, d, ⟨hbalances, hd⟩, rfl⟩
  · rintro ⟨balances, d, ⟨hbalances, hd⟩, rfl⟩
    exact ⟨_, ⟨balances, hbalances, rfl⟩, d, hd, rfl⟩

theorem collectYield_ok (h : collectYield s info = .ok (s', info')) :
    ∃ balances d, s.Valued info balances d ∧ info.totalSupply ≤ d ∧
      info' = { info with balances := balances, totalSupply := d } ∧
      ((d = info.totalSupply ∧ s' = s) ∨
        s.deposit info.poolAsset info.yieldRecipient (d - info.totalSupply) = .ok s') := by
  simp only [collectYield, State.getBalanceUpdateAmount, State.getCollectYieldAmount, bind_eq_ok,
    okOr_eq_ok, ensure_eq_ok, pure_eq_ok] at h
  obtain ⟨_, ⟨balances, hbalances, rfl⟩, _, ⟨d, hd, rfl⟩, _, hle, h⟩ := h
  refine ⟨balances, d, ⟨hbalances, hd⟩, hle, ?_⟩
  split at h
  · simp only [bind_eq_ok, pure_eq_ok, Prod.mk.injEq] at h
    obtain ⟨_, hdeposit, rfl, rfl⟩ := h
    exact ⟨rfl, Or.inr hdeposit⟩
  · rename_i hnot
    simp only [pure_eq_ok, Prod.mk.injEq] at h
    obtain ⟨rfl, rfl⟩ := h
    have heq : d = info.totalSupply := by
      simp only at hnot hle
      omega
    subst heq
    exact ⟨rfl, Or.inl ⟨rfl, rfl⟩⟩

theorem getPendingFeeAmount_ok {r : PendingFeeResult} (h : getPendingFeeAmount s info = .ok r) :
    s.Valued info r.balances r.totalSupply ∧
      info.totalSupply - info.totalSupply / 100 ≤ r.totalSupply ∧
      r.feeAmount = r.totalSupply - info.totalSupply := by
  simp only [getPendingFeeAmount, bind_eq_ok, okOr_eq_ok] at h
  obtain ⟨balances, hbalances, d, hd, h⟩ := h
  split at h
  · simp only [pure_eq_ok] at h
    subst h
    exact ⟨⟨hbalances, hd⟩, by simp only; omega, rfl⟩
  · split at h
    · simp only [pure_eq_ok] at h
      subst h
      exact ⟨⟨hbalances, hd⟩, by assumption, by simp only; omega⟩
    · simp at h

theorem mutatePool_ok {poolId : ℕ}
    {f : PoolInfo AccountId → Except Fault (State cfg × PoolInfo AccountId)}
    (h : s.mutatePool poolId f = .ok s') :
    ∃ info s₁ info₁, s.pools poolId = some info ∧ f info = .ok (s₁, info₁) ∧
      s' = { s₁ with pools := Function.update s₁.pools poolId (some info₁) } := by
  simp only [State.mutatePool, bind_eq_ok, okOr_eq_ok, pure_eq_ok] at h
  obtain ⟨info, hinfo, ⟨s₁, info₁⟩, hf, rfl⟩ := h
  exact ⟨info, s₁, info₁, hinfo, hf, rfl⟩

theorem operate_ok {poolId : ℕ} {op : Operation} (h : operate s who poolId op = .ok s') :
    ∃ info s₁ info₁ s₂ info₂, s.pools poolId = some info ∧
      op.on s info who = .ok (s₁, info₁) ∧ collectFee s₁ info₁ = .ok (s₂, info₂) ∧
      s' = { s₂ with pools := Function.update s₂.pools poolId (some info₂) } := by
  obtain ⟨info, s₂, info₂, hinfo, hf, rfl⟩ := mutatePool_ok h
  simp only [bind_eq_ok] at hf
  obtain ⟨⟨s₁, info₁⟩, hon, hfee⟩ := hf
  exact ⟨info, s₁, info₁, s₂, info₂, hinfo, hon, hfee, rfl⟩

/-! Quotes. -/

theorem getMintAmount_ok {amounts : List ℕ} {r : MintResult}
    (h : getMintAmount s info amounts = .ok r) :
    ∃ balances d, s.Valued info balances d ∧ balances.length = amounts.length ∧
      ((balances.zip (amounts.zip info.precisions)).mapM fun (balance, amount, precision) =>
        addAmount d balance amount precision) = .ok r.balances ∧
      s.invariantOf info r.balances = .ok r.totalSupply ∧
      r.totalSupply = d + (r.feeAmount + r.mintAmount) ∧
      feeOn cfg info.mintFee (r.totalSupply - d) = .ok r.feeAmount := by
  simp only [getMintAmount, bind_eq_ok, ensure_eq_ok, okOr_eq_ok, pure_eq_ok,
    U128.checkedSub_eq_some] at h
  obtain ⟨_, hrefresh, _, hlength, bs, hbs, newD, hnew, _, ⟨hle, rfl⟩, fee, hfee, _, ⟨hsub, rfl⟩,
    rfl⟩ := h
  obtain ⟨balances, d, hvalued, rfl⟩ := refresh_ok.mp hrefresh
  refine ⟨balances, d, hvalued, hlength, hbs, hnew, ?_, hfee⟩
  simp only at hle hsub ⊢
  omega

theorem getRedeemProportionAmount_ok {amount : ℕ} {r : RedeemProportionResult}
    (h : getRedeemProportionAmount s info amount = .ok r) :
    ∃ balances d, s.Valued info balances d ∧ 0 < amount ∧
      amount = r.redeemAmount + r.feeAmount ∧ feeOn cfg info.redeemFee amount = .ok r.feeAmount ∧
      ((balances.zip info.precisions).mapM fun (balance, precision) =>
        shareOf r.redeemAmount d balance precision) = some (r.balances.zip r.amounts) ∧
      r.balances.length = r.amounts.length ∧ d = r.totalSupply + r.redeemAmount := by
  simp only [getRedeemProportionAmount, bind_eq_ok, ensure_eq_ok, okOr_eq_ok, pure_eq_ok,
    U128.checkedSub_eq_some] at h
  obtain ⟨_, hrefresh, _, hpos, fee, hfee, _, ⟨hle, rfl⟩, shares, hshares, _, ⟨hsub, rfl⟩, rfl⟩ := h
  obtain ⟨balances, d, hvalued, rfl⟩ := refresh_ok.mp hrefresh
  refine ⟨balances, d, hvalued, hpos, ?_, hfee, ?_, ?_, ?_⟩
  · exact (Nat.sub_add_cancel hle).symm
  · rw [hshares, ← List.unzip_fst, ← List.unzip_snd, List.zip_unzip]
  · simp
  · exact (Nat.sub_add_cancel hsub).symm

theorem getRedeemSingleAmount_ok {amount i : ℕ} {r : RedeemSingleResult}
    (h : getRedeemSingleAmount s info amount i = .ok r) :
    ∃ balances d a balance precision, s.Valued info balances d ∧ s.currentA info = .ok a ∧
      0 < amount ∧ amount = r.redeemAmount + r.feeAmount ∧
      feeOn cfg info.redeemFee amount = .ok r.feeAmount ∧ d = r.totalSupply + r.redeemAmount ∧
      balances[i]? = some balance ∧ info.precisions[i]? = some precision ∧
      (∃ y, getY cfg.aPrecision balances i r.totalSupply a = some y ∧
        paidOut balance y precision = .ok r.dy ∧ r.balances = balances.set i y) := by
  simp only [getRedeemSingleAmount, bind_eq_ok, ensure_eq_ok, okOr_eq_ok, pure_eq_ok,
    U128.checkedSub_eq_some] at h
  obtain ⟨_, hrefresh, _, hpos, b, hb, p, hp, a, ha, fee, hfee, _, ⟨hle, rfl⟩, _, ⟨hsub, rfl⟩, y,
    hy, dy, hdy, rfl⟩ := h
  obtain ⟨balances, d, hvalued, rfl⟩ := refresh_ok.mp hrefresh
  exact ⟨balances, d, a, b, p, hvalued, ha, hpos, (Nat.sub_add_cancel hle).symm, hfee,
    (Nat.sub_add_cancel hsub).symm, hb, hp, y, hy, hdy, rfl⟩

theorem withRedeemFee_ok {fee change redeemAmount feeAmount : ℕ}
    (h : withRedeemFee cfg fee change = .ok (redeemAmount, feeAmount)) :
    redeemAmount = change + feeAmount := by
  unfold withRedeemFee at h
  split at h
  · simp only [bind_eq_ok, okOr_eq_ok, pure_eq_ok, Prod.mk.injEq, U128.checkedSub_eq_some] at h
    obtain ⟨_, -, _, -, _, ⟨hle, rfl⟩, rfl, rfl⟩ := h
    exact (Nat.add_sub_cancel' hle).symm
  · simp only [pure_eq_ok, Prod.mk.injEq] at h
    omega

theorem getRedeemMultiAmount_ok {amounts : List ℕ} {r : RedeemMultiResult}
    (h : getRedeemMultiAmount s info amounts = .ok r) :
    ∃ balances d, s.Valued info balances d ∧ amounts.length = balances.length ∧
      ((balances.zip (amounts.zip info.precisions)).mapM fun (balance, amount, precision) =>
        subAmount balance amount precision) = some r.balances ∧
      s.invariantOf info r.balances = .ok r.totalSupply ∧
      d = r.totalSupply + r.burnAmount ∧ r.redeemAmount = r.burnAmount + r.feeAmount := by
  simp only [getRedeemMultiAmount, bind_eq_ok, ensure_eq_ok, okOr_eq_ok, pure_eq_ok,
    U128.checkedSub_eq_some] at h
  obtain ⟨_, hrefresh, _, hlength, bs, hbs, newD, hnew, _, ⟨hle, rfl⟩, ⟨redeemAmount, fee⟩, hfee,
    _, ⟨hsub, rfl⟩, _, ⟨hburn, rfl⟩, rfl⟩ := h
  obtain ⟨balances, d, hvalued, rfl⟩ := refresh_ok.mp hrefresh
  have hchange : redeemAmount = d - newD + fee := withRedeemFee_ok hfee
  simp only at hle hsub hburn ⊢
  have hback : d - (redeemAmount - fee) = newD := by omega
  rw [hback]
  exact ⟨balances, d, hvalued, hlength, hbs, hnew, by omega, by omega⟩

/-! Operations. -/

/-- What stands between two states of an operation: the ledger moves, `minted` of the pool asset
is issued and `burned` of it is taken back. -/
structure Issues (s s' : State cfg) (poolAsset : CurrencyId) (minted burned : ℕ) : Prop where
  storage : s' = { s with ledger := s'.ledger }
  issuance : ∀ d, cfg.currencies.totalIssuance s'.ledger d +
      (if d = poolAsset then burned else 0) =
    cfg.currencies.totalIssuance s.ledger d + if d = poolAsset then minted else 0

namespace Issues

variable {s₁ s₂ s₃ : State cfg} {poolAsset : CurrencyId} {m b m' b' : ℕ}

theorem refl (s : State cfg) (poolAsset : CurrencyId) : Issues s s poolAsset 0 0 :=
  ⟨rfl, fun _ => rfl⟩

theorem trans (h : Issues s₁ s₂ poolAsset m b) (h' : Issues s₂ s₃ poolAsset m' b') :
    Issues s₁ s₃ poolAsset (m + m') (b + b') := by
  constructor
  · rw [h'.storage, h.storage]
  · intro d
    have h₁ := h.issuance d
    have h₂ := h'.issuance d
    split at h₁
    · rw [if_pos (by assumption)] at h₂ ⊢
      rw [if_pos (by assumption)] at h₂ ⊢
      omega
    · rw [if_neg (by assumption)] at h₂ ⊢
      rw [if_neg (by assumption)] at h₂ ⊢
      omega

theorem of_transfer {source dest : AccountId} {n : ℕ}
    (h : s₁.transfer asset source dest n = .ok s₂) (poolAsset : CurrencyId) :
    Issues s₁ s₂ poolAsset 0 0 := by
  obtain ⟨L, hL, rfl⟩ := transfer_ok h
  refine ⟨rfl, ?_⟩
  intro d
  rw [cfg.currencies.transfer_issuance hL]

theorem of_deposit {n : ℕ} (h : s₁.deposit poolAsset who n = .ok s₂) :
    Issues s₁ s₂ poolAsset n 0 := by
  obtain ⟨L, hL, rfl⟩ := deposit_ok h
  refine ⟨rfl, ?_⟩
  intro d
  rw [cfg.currencies.deposit_issuance hL d]
  simp

theorem of_withdraw {n : ℕ} (h : s₁.withdraw poolAsset who n = .ok s₂) :
    Issues s₁ s₂ poolAsset 0 n := by
  obtain ⟨L, hL, rfl⟩ := withdraw_ok h
  refine ⟨rfl, ?_⟩
  intro d
  rw [cfg.currencies.withdraw_issuance hL d]
  simp

theorem of_transferNonzero {source dest : AccountId} {n : ℕ}
    (h : s₁.transferNonzero asset source dest n = .ok s₂) (poolAsset : CurrencyId) :
    Issues s₁ s₂ poolAsset 0 0 := by
  rcases transferNonzero_ok h with ⟨-, rfl⟩ | htransfer
  · exact refl s₂ poolAsset
  · exact of_transfer htransfer poolAsset

theorem of_depositNonzero {n : ℕ} (h : s₁.depositNonzero poolAsset who n = .ok s₂) :
    Issues s₁ s₂ poolAsset n 0 := by
  rcases depositNonzero_ok h with ⟨rfl, rfl⟩ | hdeposit
  · exact refl s₂ poolAsset
  · exact of_deposit hdeposit

theorem of_foldlM {α : Type} {f : State cfg → α → Except Fault (State cfg)} {l : List α}
    (hf : ∀ s a s', f s a = .ok s' → Issues s s' poolAsset 0 0)
    (h : l.foldlM f s₁ = .ok s₂) : Issues s₁ s₂ poolAsset 0 0 :=
  foldlM_rel (fun s => refl s poolAsset) (fun h h' => h.trans h') (fun s a s' => hf s a s') h

end Issues

theorem mintOn_ok {amounts : List ℕ} {minMintAmount : ℕ}
    (h : mintOn s info who amounts minMintAmount = .ok (s', info')) :
    ∃ s₁ info₁ r, collectYield s info = .ok (s₁, info₁) ∧
      getMintAmount s₁ info₁ amounts = .ok r ∧ minMintAmount ≤ r.mintAmount ∧
      info' = { info₁ with balances := r.balances, totalSupply := r.totalSupply } ∧
      Issues s₁ s' info₁.poolAsset (r.feeAmount + r.mintAmount) 0 := by
  simp only [mintOn, bind_eq_ok, ensure_eq_ok, pure_eq_ok, Prod.mk.injEq] at h
  obtain ⟨⟨s₁, info₁⟩, hyield, r, hr, _, hmin, s₂, hpaid, s₃, hfee, _, hmint, rfl, rfl⟩ := h
  refine ⟨s₁, info₁, r, hyield, hr, hmin, rfl, ?_⟩
  have hin : Issues s₁ s₂ info₁.poolAsset 0 0 :=
    Issues.of_foldlM (fun s a s' hs => Issues.of_transferNonzero hs _) hpaid
  have hissued := (hin.trans (Issues.of_depositNonzero hfee)).trans (Issues.of_deposit hmint)
  simpa using hissued

theorem swapOn_ok {i j dx minDy assetLength : ℕ}
    (h : swapOn s info who i j dx minDy assetLength = .ok (s', info')) :
    ∃ r assetI assetJ s₁ s₂, collectYield s info = .ok (s₁, info') ∧
      getSwapAmount s₁ info' i j dx = .ok r ∧ minDy ≤ r.dy ∧
      info'.assets[i]? = some assetI ∧ info'.assets[j]? = some assetJ ∧
      s₁.transfer assetI who info'.accountId dx = .ok s₂ ∧
      s₂.transfer assetJ info'.accountId who r.dy = .ok s' := by
  simp only [swapOn, bind_eq_ok, ensure_eq_ok, okOr_eq_ok, pure_eq_ok, Prod.mk.injEq] at h
  obtain ⟨_, -, ⟨s₁, info₁⟩, hyield, r, hr, _, hmin, assetI, hi, assetJ, hj, s₂, hin, _, hout, rfl,
    rfl⟩ := h
  exact ⟨r, assetI, assetJ, s₁, s₂, hyield, hr, hmin, hi, hj, hin, hout⟩

theorem redeemProportionOn_ok {amount : ℕ} {mins : List ℕ}
    (h : redeemProportionOn s info who amount mins = .ok (s', info')) :
    ∃ s₁ info₁ r, collectYield s info = .ok (s₁, info₁) ∧
      getRedeemProportionAmount s₁ info₁ amount = .ok r ∧
      info' = { info₁ with balances := r.balances, totalSupply := r.totalSupply } ∧
      Issues s₁ s' info₁.poolAsset 0 r.redeemAmount := by
  simp only [redeemProportionOn, bind_eq_ok, ensure_eq_ok, pure_eq_ok, Prod.mk.injEq] at h
  obtain ⟨⟨s₁, info₁⟩, hyield, _, -, r, hr, s₂, hpaid, s₃, hfee, _, hburn, rfl, rfl⟩ := h
  refine ⟨s₁, info₁, r, hyield, hr, rfl, ?_⟩
  have hout : Issues s₁ s₂ info₁.poolAsset 0 0 := by
    apply Issues.of_foldlM _ hpaid
    rintro s ⟨asset, paid, least⟩ s' hs
    simp only [bind_eq_ok] at hs
    obtain ⟨_, -, hs⟩ := hs
    exact Issues.of_transfer hs _
  have hissued := (hout.trans (Issues.of_transferNonzero hfee _)).trans (Issues.of_withdraw hburn)
  simpa using hissued

theorem redeemSingleOn_ok {amount i minAmount assetLength : ℕ}
    (h : redeemSingleOn s info who amount i minAmount assetLength = .ok (s', info')) :
    ∃ s₁ info₁ r, collectYield s info = .ok (s₁, info₁) ∧
      getRedeemSingleAmount s₁ info₁ amount i = .ok r ∧
      info' = { info₁ with balances := r.balances, totalSupply := r.totalSupply } ∧
      Issues s₁ s' info₁.poolAsset 0 r.redeemAmount := by
  simp only [redeemSingleOn, bind_eq_ok, ensure_eq_ok, okOr_eq_ok, pure_eq_ok,
    Prod.mk.injEq] at h
  obtain ⟨⟨s₁, info₁⟩, hyield, r, hr, _, -, _, -, asset, -, s₂, hfee, s₃, hpaid, _, hburn, rfl,
    rfl⟩ := h
  refine ⟨s₁, info₁, r, hyield, hr, rfl, ?_⟩
  have hissued := ((Issues.of_transferNonzero hfee info₁.poolAsset).trans
    (Issues.of_transfer hpaid _)).trans (Issues.of_withdraw hburn)
  simpa using hissued

theorem redeemMultiOn_ok {amounts : List ℕ} {maxRedeemAmount : ℕ}
    (h : redeemMultiOn s info who amounts maxRedeemAmount = .ok (s', info')) :
    ∃ s₁ info₁ r, collectYield s info = .ok (s₁, info₁) ∧
      getRedeemMultiAmount s₁ info₁ amounts = .ok r ∧ r.redeemAmount ≤ maxRedeemAmount ∧
      info' = { info₁ with balances := r.balances, totalSupply := r.totalSupply } ∧
      Issues s₁ s' info₁.poolAsset 0 r.burnAmount := by
  simp only [redeemMultiOn, bind_eq_ok, ensure_eq_ok, pure_eq_ok, Prod.mk.injEq] at h
  obtain ⟨⟨s₁, info₁⟩, hyield, r, hr, _, hmax, s₂, hfee, s₃, hpaid, _, hburn, rfl, rfl⟩ := h
  refine ⟨s₁, info₁, r, hyield, hr, hmax, rfl, ?_⟩
  have hout : Issues s₂ s₃ info₁.poolAsset 0 0 :=
    Issues.of_foldlM (fun s a s' hs => Issues.of_transferNonzero hs _) hpaid
  have hissued := ((Issues.of_transferNonzero hfee info₁.poolAsset).trans hout).trans
    (Issues.of_withdraw hburn)
  simpa using hissued

end Bifrost.StableAsset
