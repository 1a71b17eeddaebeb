import Bifrost.ChannelCommission.Pallet
import Bifrost.VtokenMinting.Transitions

/-!
# What the calls and the clearing do

One lemma for each function: the storage it leaves, written as the storage before with the changed
items replaced. The three kinds of clearing block each change a part of the storage of their own.
-/

namespace Bifrost.ChannelCommission

open Result Clearing
set_option autoImplicit false

variable {AccountId : Type} {cfg : Config AccountId} {s s' : State cfg} {vtoken : CurrencyId}

/-! The calls. -/

def State.registered (s : State cfg) (channel : Channel cfg) (rates : ℕ → CurrencyId → Percent) :
    State cfg :=
  { s with
    channels := s.channels.write s.channelNextId (some channel)
    channelNextId := U32.wrappingAdd s.channelNextId 1
    channelCommissionTokenRates := rates
    channelVtokenShares := Function.update s.channelVtokenShares s.channelNextId
      ((s.channelVtokenShares s.channelNextId).update s.commissionTokens
        fun _ _ _ => some Permill.zero) }

theorem registerChannel_ok {channelName : List UInt8} {receiveAccount : AccountId}
    (h : s.registerChannel channelName receiveAccount = .ok s') :
    ∃ channel rates, s' = s.registered channel rates := by
  unfold State.registerChannel at h
  split at h
  · rw [pure_eq_ok] at h
    exact ⟨_, _, h.symm⟩
  · contradiction

theorem payClaims_issuance {receiver : AccountId} {l : List (CurrencyId × ℕ)}
    {minting minting' : VtokenMinting.State cfg.minting}
    (h : l.foldlM (State.payClaim receiver) minting = .ok minting') :
    minting'.vtokenIssuance = minting.vtokenIssuance := by
  have hpay : ∀ (m : VtokenMinting.State cfg.minting) (e : CurrencyId × ℕ) m',
      State.payClaim receiver m e = .ok m' → m'.vtokenIssuance = m.vtokenIssuance := by
    intro m e m' hm
    rw [State.payClaim, mapErr_eq_ok] at hm
    obtain ⟨L, -, rfl⟩ := VtokenMinting.transfer_ok hm
    rfl
  exact foldlM_rel (R := fun m m' : VtokenMinting.State cfg.minting =>
    m'.vtokenIssuance = m.vtokenIssuance) (fun _ => rfl) (fun hab hbc => hbc.trans hab) hpay h

theorem settleChannelCommission_ok {channelId : ℕ}
    (h : s.settleChannelCommission channelId = .ok s') :
    ∃ minting claimable, minting.vtokenIssuance = s.minting.vtokenIssuance ∧
      s' = { s with minting := minting, channelClaimableCommissions := claimable } := by
  simp only [State.settleChannelCommission, bind_eq_ok, okOr_eq_ok, pure_eq_ok] at h
  obtain ⟨channel, -, minting, hminting, rfl⟩ := h
  exact ⟨minting, _, payClaims_issuance hminting, rfl⟩

def State.removed (s : State cfg) (channelId : ℕ) (minting : VtokenMinting.State cfg.minting)
    (claimable : ℕ → Table CurrencyId ℕ) (rates : ℕ → CurrencyId → Percent) : State cfg :=
  { s with
    minting := minting
    channelClaimableCommissions := claimable
    channels := s.channels.write channelId none
    channelCommissionTokenRates := rates
    channelVtokenShares := Function.update s.channelVtokenShares channelId ∅
    periodChannelVtokenMint := Function.update s.periodChannelVtokenMint channelId
      fun _ => (0, 0) }

theorem removeChannel_ok {channelId : ℕ} {complete : Bool}
    (h : s.removeChannel channelId complete = .ok s') :
    ∃ minting claimable rates, minting.vtokenIssuance = s.minting.vtokenIssuance ∧
      s' = s.removed channelId minting claimable rates := by
  simp only [State.removeChannel, bind_eq_ok, ensure_eq_ok, pure_eq_ok, exists_const] at h
  obtain ⟨-, t, ht, -, rfl⟩ := h
  obtain ⟨minting, claimable, hissuance, rfl⟩ := settleChannelCommission_ok ht
  exact ⟨minting, claimable, _, hissuance, rfl⟩

theorem updateChannelReceiveAccount_ok [DecidableEq AccountId] {channelId : ℕ}
    {receiveAccount : AccountId}
    (h : s.updateChannelReceiveAccount channelId receiveAccount = .ok s') :
    ∃ old channel, s.channels.get channelId = some old ∧
      s' = { s with channels := s.channels.write channelId (some channel) } := by
  simp only [State.updateChannelReceiveAccount, bind_eq_ok, okOr_eq_ok, ensure_eq_ok, pure_eq_ok,
    exists_const] at h
  obtain ⟨old, hold, -, rfl⟩ := h
  exact ⟨old, _, hold, rfl⟩

theorem setChannelCommissionToken_ok {channelId : ℕ} {rate : Percent}
    (h : s.setChannelCommissionToken channelId vtoken rate = .ok s') :
    ∃ rates, s' = { s with channelCommissionTokenRates := rates } := by
  simp only [State.setChannelCommissionToken, bind_eq_ok, ensure_eq_ok, pure_eq_ok,
    exists_const] at h
  obtain ⟨-, -, -, rfl⟩ := h
  exact ⟨_, rfl⟩

theorem getVCurrencyIssuanceInner_ok {minting : VtokenMinting.State cfg.minting} {v : CurrencyId}
    {issuance : ℕ} (h : minting.getVCurrencyIssuanceInner v = .ok issuance) :
    v.isVtoken = true ∧ issuance = minting.vtokenIssuance v := by
  simp only [VtokenMinting.State.getVCurrencyIssuanceInner, bind_eq_ok, ensure_eq_ok, pure_eq_ok,
    exists_const] at h
  exact ⟨h.1, h.2.symm⟩

def State.configured (s : State cfg) (vtoken token : CurrencyId) : State cfg :=
  { s with
    commissionTokens := s.commissionTokens.write vtoken (some token)
    periodClearedCommissions := Function.update s.periodClearedCommissions vtoken 0
    vtokenIssuanceSnapshots :=
      s.vtokenIssuanceSnapshots.write vtoken (some (0, s.minting.vtokenIssuance vtoken)) }

theorem setCommissionTokens_ok {commissionToken : Option CurrencyId}
    (h : s.setCommissionTokens vtoken commissionToken = .ok s') :
    vtoken.isVtoken = true ∧
      s' = commissionToken.elim (s.removeVtoken vtoken) (s.configured vtoken) := by
  simp only [State.setCommissionTokens, bind_eq_ok, ensure_eq_ok, exists_const] at h
  obtain ⟨hv, -, h⟩ := h
  refine ⟨hv, ?_⟩
  cases commissionToken with
  | none => exact (pure_eq_ok.mp h).symm
  | some token =>
    simp only [State.configureVtoken, bind_eq_ok, mapErr_eq_ok, pure_eq_ok] at h
    obtain ⟨issuance, hissuance, rfl⟩ := h
    rw [(getVCurrencyIssuanceInner_ok hissuance).2]
    rfl

theorem setChannelVtokenShares_ok {channelId : ℕ} {shares : Permill}
    (h : s.setChannelVtokenShares channelId vtoken shares = .ok s') :
    (s.channels.get channelId).isSome = true ∧ (s.commissionTokens.get vtoken).isSome = true ∧
      (∃ total, ((cfg.iter s.channels).map Prod.fst).foldlM
        (fun (total : Permill) id =>
          okOr (total.checkedAdd (if id = channelId then shares else s.share id vtoken))
            (Fault.pallet .invalidCommissionRate)) Permill.zero = .ok total) ∧
      s' = { s with
        channelVtokenShares := Function.update s.channelVtokenShares channelId
          ((s.channelVtokenShares channelId).write vtoken (some shares)) } := by
  simp only [State.setChannelVtokenShares, bind_eq_ok, ensure_eq_ok, pure_eq_ok,
    exists_const] at h
  obtain ⟨hchannel, hvtoken, total, htotal, rfl⟩ := h
  exact ⟨hchannel, hvtoken, ⟨total, htotal⟩, rfl⟩

/-! What is recorded. -/

/-- A mint of nothing is recorded like any other. -/
def State.minted (s : State cfg) (channelId : Option ℕ) (vtoken : CurrencyId) (amount : ℕ) :
    State cfg :=
  { s with
    periodVtokenTotalMint := Function.update s.periodVtokenTotalMint vtoken
      ((s.periodVtokenTotalMint vtoken).1, (s.periodVtokenTotalMint vtoken).2 + amount)
    periodChannelVtokenMint := fun id => if channelId = some id then
        Function.update (s.periodChannelVtokenMint id) vtoken
          ((s.periodChannelVtokenMint id vtoken).1, (s.periodChannelVtokenMint id vtoken).2 + amount)
      else s.periodChannelVtokenMint id }

theorem recordMintAmount_ok {channelId : Option ℕ} {amount : ℕ}
    (h : s.recordMintAmount channelId vtoken amount = .ok s') :
    s' = s.minted channelId vtoken amount := by
  unfold State.recordMintAmount at h
  split at h
  · rename_i hzero
    rw [pure_eq_ok] at h
    subst h hzero
    simp only [State.minted, Nat.add_zero, Prod.mk.eta, Function.update_eq_self, ite_self]
  · simp only [bind_eq_ok, okOr_eq_ok, U128.checkedAdd_eq_some] at h
    obtain ⟨_, ⟨rfl, -⟩, h⟩ := h
    cases channelId with
    | none =>
      rw [pure_eq_ok] at h
      subst h
      simp only [State.minted, reduceCtorEq, if_false]
    | some id =>
      simp only [bind_eq_ok, okOr_eq_ok, U128.checkedAdd_eq_some, pure_eq_ok] at h
      obtain ⟨_, ⟨rfl, -⟩, rfl⟩ := h
      simp only [State.minted, Option.some.injEq]
      congr 1
      funext id'
      rw [Function.update_apply]
      by_cases hid : id' = id
      · subst hid
        rw [if_pos rfl]
      · rw [if_neg hid, if_neg (Ne.symm hid)]

def State.redeemed (s : State cfg) (vtoken : CurrencyId) (amount : ℕ) : State cfg :=
  { s with
    periodVtokenTotalRedeem := Function.update s.periodVtokenTotalRedeem vtoken
      ((s.periodVtokenTotalRedeem vtoken).1, (s.periodVtokenTotalRedeem vtoken).2 + amount) }

theorem recordRedeemAmount_ok {amount : ℕ}
    (h : s.recordRedeemAmount vtoken amount = .ok s') : s' = s.redeemed vtoken amount := by
  unfold State.recordRedeemAmount at h
  split at h
  · rename_i hzero
    rw [pure_eq_ok] at h
    subst h hzero
    simp only [State.redeemed, Nat.add_zero, Prod.mk.eta, Function.update_eq_self]
  · simp only [bind_eq_ok, okOr_eq_ok, U128.checkedAdd_eq_some, pure_eq_ok] at h
    obtain ⟨_, ⟨rfl, -⟩, rfl⟩ := h
    rfl

theorem mint_ok {channelId : Option ℕ} {amount : ℕ} (h : s.mint channelId vtoken amount = .ok s') :
    s.minting.vtokenIssuance vtoken + amount ≤ u128Max ∧ s' =
      { s with minting := s.minting.issued vtoken (s.minting.vtokenIssuance vtoken + amount) }.minted
        channelId vtoken amount := by
  simp only [State.mint, bind_eq_ok, mapErr_eq_ok] at h
  obtain ⟨adjustment, hadjustment, minting, hminting, h⟩ := h
  obtain ⟨-, issuance, hissuance, hissued⟩ := VtokenMinting.setVCurrencyIssuanceInner_ok hminting
  have hsum := (VtokenMinting.issue_ok hadjustment hminting).2
  refine ⟨?_, ?_⟩
  · have hvalue : issuance = s.minting.vtokenIssuance vtoken + amount := by
      have hread := congrArg (fun m : VtokenMinting.State cfg.minting => m.vtokenIssuance vtoken)
        (hissued.symm.trans hsum)
      simpa [VtokenMinting.State.issued] using hread
    rw [← hvalue]
    simp only [VtokenMinting.toI128, bind_eq_ok, ensure_eq_ok, pure_eq_ok] at hadjustment
    obtain ⟨-, -, rfl⟩ := hadjustment
    rw [if_pos (Int.natCast_nonneg amount)] at hissuance
    exact (VtokenMinting.updateTotal_add_ok hissuance).2
  · rw [← hsum]
    exact recordMintAmount_ok h

theorem redeem_ok {amount : ℕ} (h : s.redeem vtoken amount = .ok s') :
    amount ≤ s.minting.vtokenIssuance vtoken ∧ s' =
      { s with minting := s.minting.issued vtoken (s.minting.vtokenIssuance vtoken - amount) }.redeemed
        vtoken amount := by
  simp only [State.redeem, bind_eq_ok, mapErr_eq_ok] at h
  obtain ⟨adjustment, hadjustment, minting, hminting, h⟩ := h
  obtain ⟨-, hle, rfl⟩ := VtokenMinting.burn_ok hadjustment hminting
  exact ⟨hle, recordRedeemAmount_ok h⟩

def State.feeRecorded (s : State cfg) (token : CurrencyId) (amount : ℕ) : State cfg :=
  { s with
    periodTotalCommissions := Function.update s.periodTotalCommissions token
      ((s.periodTotalCommissions token).1, (s.periodTotalCommissions token).2 + amount)
    history := Function.update s.history token
      { s.history token with
        recorded := (s.history token).recorded + amount
        pending := (s.history token).pending + amount } }

theorem recordHostingFee_ok {stakingToken : CurrencyId} {amount : ℕ}
    (h : s.recordHostingFee stakingToken amount = .ok s') :
    s' = s ∨ ∃ token vtokenAmount,
      (s.periodTotalCommissions token).2 + vtokenAmount ≤ u128Max ∧
        s' = s.feeRecorded token vtokenAmount := by
  unfold State.recordHostingFee at h
  split at h
  · rw [pure_eq_ok] at h
    exact Or.inl h.symm
  · simp only [bind_eq_ok, mapErr_eq_ok] at h
    obtain ⟨vtoken, -, vtokenAmount, -, h⟩ := h
    cases htoken : s.commissionTokens.get vtoken with
    | none =>
      simp only [htoken, pure_eq_ok] at h
      exact Or.inl h.symm
    | some token =>
      simp only [htoken, State.addCommission, bind_eq_ok, okOr_eq_ok, U128.checkedAdd_eq_some,
        pure_eq_ok] at h
      obtain ⟨_, ⟨rfl, hle⟩, rfl⟩ := h
      exact Or.inr ⟨token, vtokenAmount, hle, rfl⟩

/-! The clearing. -/

/-- Only vTokens have a snapshot. -/
def State.Keyed (s : State cfg) : Prop :=
  ∀ v, (s.vtokenIssuanceSnapshots.get v).isSome = true → v.isVtoken = true

def State.refreshed (s : State cfg) (v : CurrencyId) : State cfg :=
  { s with
    vtokenIssuanceSnapshots := s.vtokenIssuanceSnapshots.write v
      (some ((s.snapshot v).2, s.minting.vtokenIssuance v)) }

theorem refreshSnapshot_eq {v : CurrencyId} (hv : v.isVtoken = true) :
    s.refreshSnapshot v = (s.refreshed v, none) := by
  have hget : s.minting.getVCurrencyIssuanceInner v = .ok (s.minting.vtokenIssuance v) := by
    simp only [VtokenMinting.State.getVCurrencyIssuanceInner, bind_eq_ok, ensure_eq_ok, pure_eq_ok,
      exists_const, and_true]
    exact hv
  simp only [State.refreshSnapshot, hget, State.refreshed]

theorem refreshSnapshots_eq {l : List CurrencyId} (hl : l.Nodup)
    (hkeys : ∀ v ∈ l, v.isVtoken = true) (s : State cfg) :
    ∃ snapshots : Table CurrencyId (ℕ × ℕ),
      Attempt.tryForEach State.refreshSnapshot s l =
        ({ s with vtokenIssuanceSnapshots := snapshots }, none) ∧
      ∀ v, snapshots.get v = if v ∈ l then some ((s.snapshot v).2, s.minting.vtokenIssuance v)
        else s.vtokenIssuanceSnapshots.get v := by
  induction l generalizing s with
  | nil => exact ⟨s.vtokenIssuanceSnapshots, rfl, fun v => by simp⟩
  | cons w l ih =>
    obtain ⟨hw, hl⟩ := List.nodup_cons.mp hl
    obtain ⟨hkey, hkeys⟩ := List.forall_mem_cons.mp hkeys
    obtain ⟨snapshots, hrun, hget⟩ := ih hl hkeys (s.refreshed w)
    refine ⟨snapshots, ?_, ?_⟩
    · rw [Attempt.tryForEach, refreshSnapshot_eq hkey]
      exact hrun
    · intro v
      rw [hget v]
      by_cases hv : v = w
      · subst hv
        rw [if_neg hw, if_pos List.mem_cons_self]
        exact Table.get_write_self _ _ _
      · have hmem : v ∈ w :: l ↔ v ∈ l := by
          rw [List.mem_cons]
          exact or_iff_right hv
        simp only [hmem, State.snapshot, State.refreshed, Table.get_write_ne _ _ hv]

theorem iter_keys_nodup {κ β : Type} (t : Table κ β) : ((cfg.iter t).map Prod.fst).Nodup :=
  (((cfg.iter_perm t).map Prod.fst).nodup_iff).mpr t.keys_nodup

theorem mem_iter {κ β : Type} [DecidableEq κ] {t : Table κ β} {k : κ} {v : β} :
    (k, v) ∈ cfg.iter t ↔ t.get k = some v := by
  rw [(cfg.iter_perm t).mem_iff]
  exact Table.mem_entries

theorem mem_iter_keys {κ β : Type} [DecidableEq κ] {t : Table κ β} {k : κ} :
    k ∈ (cfg.iter t).map Prod.fst ↔ (t.get k).isSome = true := by
  rw [List.mem_map, Option.isSome_iff_exists]
  constructor
  · rintro ⟨⟨k', v⟩, hmem, rfl⟩
    exact ⟨v, mem_iter.mp hmem⟩
  · rintro ⟨v, hv⟩
    exact ⟨(k, v), mem_iter.mpr hv, rfl⟩

theorem setClearingEnvironment_eq (hs : s.Keyed) :
    ∃ snapshots : Table CurrencyId (ℕ × ℕ),
      s.setClearingEnvironment =
        ({ s with vtokenIssuanceSnapshots := snapshots }.shiftPeriod, none) ∧
      ∀ v, snapshots.get v = (s.vtokenIssuanceSnapshots.get v).map
        fun issuance => (issuance.2, s.minting.vtokenIssuance v) := by
  have hkeys : ∀ v ∈ (cfg.iter s.vtokenIssuanceSnapshots).map Prod.fst, v.isVtoken = true :=
    fun v hv => hs v (mem_iter_keys.mp hv)
  obtain ⟨snapshots, hrun, hget⟩ := refreshSnapshots_eq (iter_keys_nodup _) hkeys s
  refine ⟨snapshots, ?_, ?_⟩
  · simp only [State.setClearingEnvironment, hrun]
  · intro v
    rw [hget v]
    simp only [mem_iter_keys, State.snapshot]
    cases s.vtokenIssuanceSnapshots.get v with
    | none => simp
    | some issuance => simp

theorem clearChannelCommissions_eq (channelId : ℕ) (s : State cfg) :
    ∃ claimable cleared history, s.clearChannelCommissions channelId = { s with
      channelClaimableCommissions := claimable
      periodClearedCommissions := cleared
      history := history } := by
  have hfold (l : List (CurrencyId × Permill)) (s : State cfg) : ∃ claimable cleared history,
      l.foldl (State.clearChannelVtoken channelId) s = { s with
        channelClaimableCommissions := claimable
        periodClearedCommissions := cleared
        history := history } := by
    induction l generalizing s with
    | nil => exact ⟨_, _, _, rfl⟩
    | cons e l ih =>
      obtain ⟨claimable, cleared, history, h⟩ := ih (State.clearChannelVtoken channelId s e)
      refine ⟨claimable, cleared, history, ?_⟩
      rw [List.foldl_cons, h]
      unfold State.clearChannelVtoken
      split
      · rfl
      · rfl
  unfold State.clearChannelCommissions
  split
  · exact ⟨_, _, _, rfl⟩
  · exact hfold _ s

theorem updateChannelVtokenShares_eq (channelId : ℕ) (s : State cfg) :
    ∃ shares failures, s.updateChannelVtokenShares channelId = { s with
      channelVtokenShares := Function.update s.channelVtokenShares channelId shares
      failures := failures } := by
  have hfold (l : List (CurrencyId × Permill)) (s : State cfg) : ∃ shares failures,
      l.foldl (State.updateChannelVtoken channelId) s = { s with
        channelVtokenShares := Function.update s.channelVtokenShares channelId shares
        failures := failures } := by
    induction l generalizing s with
    | nil => exact ⟨s.channelVtokenShares channelId, s.failures, by
        rw [List.foldl_nil, Function.update_eq_self]⟩
    | cons e l ih =>
      obtain ⟨shares, failures, h⟩ := ih (State.updateChannelVtoken channelId s e)
      refine ⟨shares, failures, ?_⟩
      rw [List.foldl_cons, h]
      unfold State.updateChannelVtoken
      split
      · simp only [Function.update_idem]
      · rfl
  exact hfold _ s

theorem clearBifrostCommissions_eq (s : State cfg) :
    ∃ cleared history ledger, s.clearBifrostCommissions = { s with
      periodClearedCommissions := cleared
      history := history
      minting := { s.minting with ledger := ledger } } := by
  have hfold (l : List CurrencyId) (s : State cfg) : ∃ cleared history ledger,
      l.foldl State.clearBifrostCommission s = { s with
        periodClearedCommissions := cleared
        history := history
        minting := { s.minting with ledger := ledger } } := by
    induction l generalizing s with
    | nil => exact ⟨_, _, _, rfl⟩
    | cons token l ih =>
      obtain ⟨cleared, history, ledger, h⟩ := ih (State.clearBifrostCommission s token)
      refine ⟨cleared, history, ledger, ?_⟩
      rw [List.foldl_cons, h]
      unfold State.clearBifrostCommission
      split
      · rfl
      · split
        · rename_i minting hminting
          obtain ⟨L, -, rfl⟩ := VtokenMinting.transfer_ok hminting
          rfl
        · rfl
  exact hfold _ s

end Bifrost.ChannelCommission
