import Bifrost.SystemStaking.Accounts

/-!
# Processing of the tokens

`process_token_info` keeps the accounts where a deposit is followed by a mint, an excess is
redeemed in the token itself, and a redemption that is refused has written no record. In a
transaction the first and the last need not be asked for; in a block hook they do.
-/

namespace Bifrost.SystemStaking

open Result Machine VtokenMinting Shares
set_option autoImplicit false

variable {AccountId : Type} [DecidableEq AccountId] {cfg : Config AccountId} {s s' : State cfg}
  {c : CurrencyId} {info : TokenInfo} {n : ℕ}

/-! The calls of vtoken-minting. -/

/-- The account of the pallet has no key. -/
def SignedBy (a : AccountId) : VtokenMinting.Call cfg.minting → Prop
  | .mint who _ _ _ | .redeem who _ _ _ _ | .rebond who _ _ | .rebondByUnlockId who _ _ => who = a
  | _ => False

theorem minting_backed {call : VtokenMinting.Call cfg.minting} (hs : Backed s)
    (hsigned : ¬SignedBy cfg.palletAccount call)
    (h : VtokenMinting.step s (within s call) = .ok s') : Backed s' := by
  cases call with
  | mint who d n channel =>
    simp only [within, VtokenMinting.step, bind_eq_ok, pure_eq_ok] at h
    obtain ⟨⟨v, m, s₁⟩, h₁, rfl⟩ := h
    exact (mint_quiet h₁).backed hs
  | redeem who oc v n rt => exact (redeem_other_quiet hsigned h).backed hs
  | rebond who d n => exact (rebond_quiet h).backed hs
  | rebondByUnlockId who d id => exact (rebondByUnlockId_quiet h).backed hs
  | onIdle order => exact onIdle_backed hs h
  | setUnlockingTotal d n =>
    simp only [within, VtokenMinting.step, updateTotal, bind_eq_ok, mapErr_eq_ok, pure_eq_ok] at h
    obtain ⟨_, rfl, hs'⟩ := h
    have hquiet : Quiet s s' := by
      rw [← hs']
      exact Quiet.of_update rfl rfl (Nat.le_refl _)
    exact hquiet.backed hs
  | addSupportRebondToken d =>
    simp only [within, VtokenMinting.step, bind_eq_ok, pure_eq_ok] at h
    obtain ⟨-, -, rfl⟩ := h
    exact (Quiet.of_eq rfl rfl).backed hs
  | removeSupportRebondToken d =>
    simp only [within, VtokenMinting.step, bind_eq_ok, pure_eq_ok] at h
    obtain ⟨-, -, rfl⟩ := h
    exact (Quiet.of_eq rfl rfl).backed hs
  | setVtokenMultimap v configs =>
    simp only [within, VtokenMinting.step, setVtokenMultimap, bind_eq_ok, pure_eq_ok] at h
    obtain ⟨-, -, -, -, rfl⟩ := h
    split
    · exact (Quiet.of_eq rfl rfl).backed hs
    · exact (Quiet.of_eq rfl rfl).backed hs
  | setVCurrencyIssuance v adjustment =>
    obtain ⟨-, issuance, -, rfl⟩ := setVCurrencyIssuanceInner_ok h
    exact (Quiet.of_eq rfl rfl).backed hs
  | increaseTokenPool d n =>
    obtain ⟨target, amount, -, -, rfl⟩ := updateTokenPool_ok h
    exact (Quiet.of_eq rfl rfl).backed hs
  | decreaseTokenPool d n =>
    obtain ⟨target, amount, -, -, rfl⟩ := updateTokenPool_ok h
    exact (Quiet.of_eq rfl rfl).backed hs
  | setUnlockDuration | setMinimumMint | setMinimumRedeem | setFees | setHookIterationLimit
  | setMinTimeUnit | setOngoingTimeUnit | world =>
    simp only [within, VtokenMinting.step, pure_eq_ok] at h
    subst s'
    exact (Quiet.of_eq rfl rfl).backed hs

/-! One token. -/

/-- The status to be written has the amounts that are stored. -/
structure Current (st : Storage) (c : CurrencyId) (info : TokenInfo) : Prop where
  pending : info.pendingRedeemAmount = (st.info c).pendingRedeemAmount
  shadow : info.systemShadowAmount = (st.info c).systemShadowAmount

theorem backed_withStorage {st : Storage} :
    Backed (s.withStorage st) ↔ ∀ d, Accounted st d (s.owed d) := Iff.rfl

theorem setStatus_backed (hs : Backed s) (hinfo : Current s.storage c info) :
    Backed (s.setStatus c info) := by
  rw [State.setStatus, backed_withStorage]
  intro d
  by_cases hd : d = c
  · subst d
    have hc := hs c
    constructor
    · rw [info_setStatus, hinfo.pending]
      exact hc.owed
    · rw [info_setStatus, hinfo.pending, hinfo.shadow]
      exact hc.pending
    · rw [info_setStatus, hinfo.shadow]
      exact hc.shadow
    · rw [info_setStatus, hinfo.shadow]
      exact hc.created
  · exact (hs d).other hd info

theorem topUp_backed (hs : Backed s) (hinfo : Current s.storage c info)
    (hroom : info.systemShadowAmount + n ≤ u128Max)
    (h : topUp s info c n = (s', none)) : Backed s' := by
  unfold topUp at h
  split at h
  · cases h
  · rename_i L hdeposit
    simp only at h
    split at h
    · cases h
    · rename_i v m s₁ hmint
      cases h
      have hquiet := mint_quiet hmint
      have hshadow : U128.saturatingAdd info.systemShadowAmount n = info.systemShadowAmount + n :=
        Nat.min_eq_left hroom
      rw [State.setStatus, backed_withStorage, hquiet.storage, hshadow]
      intro d
      have hd := (hs d).anti (hquiet.owed d)
      by_cases hdc : d = c
      · subst d
        have hcreated := hd.created
        constructor
        · rw [info_setStatus]
          simp only [hinfo.pending]
          exact hd.owed
        · rw [info_setStatus]
          simp only [hinfo.pending, hinfo.shadow]
          exact hd.pending.trans (Nat.le_add_right _ _)
        · rw [info_setStatus]
          exact hroom
        · rw [info_setStatus]
          simp only [State.storage, State.world, State.withWorld, Storage.setStatus,
            Storage.create, Function.update_self, hinfo.shadow] at hcreated ⊢
          omega
      · have hother : Accounted (s.storage.create c n) d (State.owed s₁ d) := by
          refine ⟨hd.owed, hd.pending, hd.shadow, ?_⟩
          simp only [Storage.create, Function.update_of_ne hdc]
          exact hd.created
        exact hother.other hdc _

theorem redeemExcess_backed (hs : Backed s) (hinfo : Current s.storage c info)
    (hn : n ≤ info.active)
    (hitself : ∀ v d, VtokenMinting.State.convertToVtoken s c = .ok v →
      redeemCurrency s none v = .ok d → d = c)
    (h : redeemExcess s info c n = (s', none)) : Backed s' := by
  unfold redeemExcess at h
  split at h
  · cases h
    exact setStatus_backed hs hinfo
  · rename_i v hv
    split at h
    · cases h
    · rename_i m hm
      split at h
      · cases h
        exact setStatus_backed hs hinfo
      · split at h
        · cases h
        · rename_i s₁ hredeem
          obtain ⟨d, w, hd, hw, hworld, howed⟩ := redeem_ok hredeem
          have hdc := hitself v d hv hd
          subst d
          have hpending := (hs c).pending
          have hback : VtokenMinting.State.redemption s c v m ≤ n := by
            apply redeemedFor_le_of_le_mintedFor
            rw [← getVCurrencyAmount_ok hm]
            exact Nat.sub_le _ _
          have hbacked : Backed s₁ := by
            intro e
            rw [State.storage, hworld]
            have hfits : (w.2.info c).pendingRedeemAmount +
                VtokenMinting.State.redemption s c v m ≤ (w.2.info c).systemShadowAmount := by
              rw [hw, ← hinfo.pending, ← hinfo.shadow]
              rw [← hinfo.pending, ← hinfo.shadow] at hpending
              unfold TokenInfo.active at hn
              omega
            have hbefore (e : CurrencyId) : Accounted w.2 e (s.owed e) := by
              rw [hw]
              exact hs e
            apply (redeemed_accounted hbefore hfits e).anti
            have hle := howed e
            simpa only [and_true] using hle
          cases h
          apply setStatus_backed hbacked
          refine ⟨rfl, ?_⟩
          have hshadow : (State.storage s₁).info c =
              { s.storage.info c with
                pendingRedeemAmount := ((State.storage s₁).info c).pendingRedeemAmount } := by
            rw [State.storage, hworld]
            simp only [onRedeemed, ne_eq, not_true_eq_false, if_false, info_setStatus, hw]
          rw [hshadow]
          exact hinfo.shadow

/-- What processing a token must meet in any case: the shadow amount is not cut off, and an excess
is redeemed in the token. -/
structure Fits (s : State cfg) (info : TokenInfo) (c : CurrencyId) : Prop where
  room : info.active < info.currentConfig.systemStakableBase →
    info.pendingRedeemAmount + info.currentConfig.systemStakableBase ≤ u128Max
  itself : info.currentConfig.systemStakableBase < info.active → ∀ v d,
    VtokenMinting.State.convertToVtoken s c = .ok v → redeemCurrency s none v = .ok d → d = c

theorem processTokenInfo_backed (hs : Backed s) (hinfo : Current s.storage c info)
    (hfits : Fits s info c) (h : processTokenInfo s info c = (s', none)) : Backed s' := by
  simp only [processTokenInfo] at h
  generalize hstakable : info.currentConfig.systemStakableBase = stakable at h
  have hcurrent : Current s.storage c { info with systemStakableAmount := stakable } :=
    ⟨hinfo.pending, hinfo.shadow⟩
  have hset := setStatus_backed hs hcurrent
  have hstored : Current (s.setStatus c { info with systemStakableAmount := stakable }).storage c
      { info with systemStakableAmount := stakable } := by
    constructor
    · simp [State.setStatus, State.withStorage, State.withWorld, State.storage, State.world]
    · simp [State.setStatus, State.withStorage, State.withWorld, State.storage, State.world]
  split at h
  · rename_i hlow
    have hlow' : info.active < stakable := hlow
    have hpending := (hs c).pending
    rw [← hinfo.pending, ← hinfo.shadow] at hpending
    have hroom := hfits.room (by rw [hstakable]; exact hlow')
    rw [hstakable] at hroom
    refine topUp_backed hset hstored ?_ h
    unfold TokenInfo.active at hlow' ⊢
    simp only
    omega
  · split at h
    · rename_i hhigh
      have hitself := hfits.itself (by rw [hstakable]; exact hhigh)
      exact redeemExcess_backed hset hstored (Nat.sub_le _ _) hitself h
    · cases h
      exact setStatus_backed hset hstored

/-! A block hook. -/

/-- The state a top-up starts from, and an excess is redeemed from. -/
def prepared (s : State cfg) (info : TokenInfo) (c : CurrencyId) : State cfg :=
  s.setStatus c { info with systemStakableAmount := info.currentConfig.systemStakableBase }

/-- The vTokens for a deposit are minted. -/
def MintAccepted (s : State cfg) (c : CurrencyId) (n : ℕ) : Prop :=
  ∀ L, cfg.outside.currency.deposit s.tokens c cfg.palletAccount n = .ok L →
    ∃ r, doMint (s.withWorld (L, s.storage.create c n)) cfg.palletAccount c n none = .ok r

/-- A redemption that is refused has left the unlock records as they were. -/
def RefusalLeavesNoRecord (s : State cfg) (c : CurrencyId) (n : ℕ) : Prop :=
  ∀ v m e, VtokenMinting.State.convertToVtoken s c = .ok v →
    VtokenMinting.State.getVCurrencyAmountByCurrencyAmount s c v n = .ok m →
    doRedeem s cfg.palletAccount none v m .native = .error e →
    (cfg.refusedRedeem s v m).unlockLedgers = s.unlockLedgers

/-- What processing a token must meet where nothing is rolled back. -/
structure Finishes (s : State cfg) (info : TokenInfo) (c : CurrencyId) : Prop where
  minted : info.active < info.currentConfig.systemStakableBase →
    MintAccepted (prepared s info c) c (info.currentConfig.systemStakableBase - info.active)
  redeemed : info.currentConfig.systemStakableBase < info.active →
    RefusalLeavesNoRecord (prepared s info c) c
      (info.active - info.currentConfig.systemStakableBase)

theorem topUp_stopped {e : Fault} (hs : Backed s) (haccepted : MintAccepted s c n)
    (h : topUp s info c n = (s', some e)) : Backed s' := by
  unfold topUp at h
  split at h
  · cases h
    exact hs
  · rename_i L hdeposit
    obtain ⟨⟨v, m, s₁⟩, hr⟩ := haccepted L hdeposit
    simp only [hr] at h
    cases h

theorem redeemExcess_stopped {e : Fault} (hs : Backed s)
    (hleaves : RefusalLeavesNoRecord s c n)
    (h : redeemExcess s info c n = (s', some e)) : Backed s' := by
  unfold redeemExcess at h
  split at h
  · cases h
  · rename_i v hv
    split at h
    · cases h
      exact hs
    · rename_i m hm
      split at h
      · cases h
      · split at h
        · rename_i e' hredeem
          cases h
          have hrecords := hleaves v m e' hv hm hredeem
          have hquiet : Quiet s (afterRefusedRedeem s v m) := Quiet.of_eq rfl hrecords
          exact hquiet.backed hs
        · cases h

theorem processed_backed (hs : Backed s) (hinfo : Current s.storage c info)
    (hfits : Fits s info c) (hfinishes : Finishes s info c) :
    Backed (processTokenInfo s info c).1 := by
  cases hprocessed : processTokenInfo s info c with
  | mk s' e =>
    cases e with
    | none => exact processTokenInfo_backed hs hinfo hfits hprocessed
    | some e =>
      have hset : Backed (prepared s info c) :=
        setStatus_backed hs ⟨hinfo.pending, hinfo.shadow⟩
      simp only [processTokenInfo] at hprocessed
      split at hprocessed
      · rename_i hlow
        exact topUp_stopped hset (hfinishes.minted hlow) hprocessed
      · split at hprocessed
        · rename_i hhigh
          exact redeemExcess_stopped hset (hfinishes.redeemed hhigh) hprocessed
        · cases hprocessed

theorem doPayout_ok (h : doPayout s c = .ok s') :
    ∃ info v free amount L, s.storage.tokenStatus c = some info ∧
      VtokenMinting.State.convertToVtoken s c = .ok v ∧
      VtokenMinting.State.getCurrencyAmountByVCurrencyAmount s c v
        (cfg.outside.currency.freeBalance s.tokens v cfg.palletAccount) = .ok free ∧
      VtokenMinting.State.getVCurrencyAmountByCurrencyAmount s c v
        (free - info.systemShadowAmount) = .ok amount ∧
      cfg.outside.currency.transfer s.tokens v cfg.palletAccount cfg.benefitReceivingAccount
        amount = .ok L ∧
      s' = s.withWorld (L, s.storage) := by
  simp only [doPayout, bind_eq_ok, okOr_eq_ok, mapErr_eq_ok, pure_eq_ok] at h
  obtain ⟨info, hinfo, v, hv, free, hfree, amount, hamount, L, hL, rfl⟩ := h
  exact ⟨info, v, free, amount, L, hinfo, hv, hfree, hamount, hL, rfl⟩

theorem doPayout_quiet (h : doPayout s c = .ok s') : Quiet s s' := by
  obtain ⟨info, v, free, amount, L, -, -, -, -, -, rfl⟩ := doPayout_ok h
  exact Quiet.of_eq rfl rfl

theorem payoutOrFail_backed (hs : Backed s) : Backed (payoutOrFail s c) := by
  unfold payoutOrFail
  split
  · rename_i s₁ h
    exact (doPayout_quiet h).backed hs
  · exact hs

theorem current_of_status (h : s.storage.tokenStatus c = some info) :
    Current s.storage c info := by
  constructor
  · simp [Storage.info, h]
  · simp [Storage.info, h]

/-- A token that is due can be processed. -/
def DueSound (round : RoundInfo) (s : State cfg) (c : CurrencyId) : Prop :=
  ∀ info, s.storage.tokenStatus c = some info →
    round.checkDelay s.storage.blockNumber info.currentConfig.execDelay = true →
    Fits s info c ∧ Finishes s info c

theorem processDue_backed {round : RoundInfo} (hs : Backed s) (hdue : DueSound round s c) :
    Backed (processDue s round c) := by
  unfold processDue
  split
  · exact hs
  · rename_i info hinfo
    split
    · rename_i hdelay
      obtain ⟨hfits, hfinishes⟩ := hdue info hinfo hdelay
      exact payoutOrFail_backed (processed_backed hs (current_of_status hinfo) hfits hfinishes)
    · exact hs

/-- The tokens that are due can be processed, one after another. -/
def AllDueSound (round : RoundInfo) : List CurrencyId → State cfg → Prop
  | [], _ => True
  | c :: cs, s => DueSound round s c ∧ AllDueSound round cs (processDue s round c)

theorem processAll_backed {round : RoundInfo} {tokens : List CurrencyId} (hs : Backed s)
    (hdue : AllDueSound round tokens s) :
    Backed (tokens.foldl (fun s c => processDue s round c) s) := by
  induction tokens generalizing s with
  | nil => exact hs
  | cons c tokens ih =>
    obtain ⟨hfirst, hrest⟩ := hdue
    exact ih (processDue_backed hs hfirst) hrest

theorem updateConfig_backed (hs : Backed s) : Backed (updateConfig s c) := by
  unfold updateConfig
  split
  · exact hs
  · rename_i info hinfo
    have hcurrent := current_of_status hinfo
    split
    · exact setStatus_backed hs ⟨hcurrent.pending, hcurrent.shadow⟩
    · exact hs

theorem updateConfigs_backed {tokens : List CurrencyId} (hs : Backed s) :
    Backed (tokens.foldl updateConfig s) := by
  induction tokens generalizing s with
  | nil => exact hs
  | cons c tokens ih => exact ih (updateConfig_backed hs)

theorem roundStarted_backed (hs : Backed s) : Backed (roundStarted s) := by
  unfold roundStarted
  split
  · apply updateConfigs_backed
    rw [backed_withStorage]
    intro d
    have hd := hs d
    exact ⟨hd.owed, hd.pending, hd.shadow, hd.created⟩
  · exact hs

/-! The calls. -/

/-- The condition on a call. -/
def Clean (s : State cfg) : Call cfg → Prop
  | .deleteToken _ => False
  | .refreshTokenInfo c => ∀ info, s.storage.tokenStatus c = some info →
      Fits s (if info.checkConfigChange then info.updateConfig else info) c
  | .minting call => ¬SignedBy cfg.palletAccount call
  | .nextBlock => AllDueSound (currentRound (advance s)) (advance s).storage.tokenList
      (roundStarted (advance s))
  | _ => True

theorem tokenConfig_backed {execDelay systemStakableBase : Option ℕ} (hs : Backed s)
    (h : tokenConfig s c execDelay systemStakableBase = .ok s') : Backed s' := by
  simp only [tokenConfig, bind_eq_ok, ensure_eq_ok, exists_const] at h
  obtain ⟨-, h⟩ := h
  have hset (newConfig : TokenConfig) :
      Backed (s.setStatus c { s.storage.info c with newConfig }) :=
    setStatus_backed hs ⟨rfl, rfl⟩
  split at h
  · simp only [pure_eq_ok] at h
    subst s'
    exact hset _
  · simp only [bind_eq_ok, pure_eq_ok] at h
    obtain ⟨-, -, rfl⟩ := h
    intro d
    have hd := hset ⟨execDelay.getD (s.storage.info c).currentConfig.execDelay,
      systemStakableBase.getD (s.storage.info c).currentConfig.systemStakableBase⟩ d
    exact ⟨hd.owed, hd.pending, hd.shadow, hd.created⟩

theorem refreshTokenInfo_backed (hs : Backed s) (hclean : Clean s (.refreshTokenInfo c))
    (h : refreshTokenInfo s c = .ok s') : Backed s' := by
  simp only [refreshTokenInfo, bind_eq_ok, okOr_eq_ok, Attempt.commit_eq_ok] at h
  obtain ⟨info, hinfo, h⟩ := h
  have hcurrent := current_of_status hinfo
  refine processTokenInfo_backed hs ?_ (hclean info hinfo) h
  split
  · exact ⟨hcurrent.pending, hcurrent.shadow⟩
  · exact hcurrent

theorem step_backed {origin : Origin} {call : Call cfg} (hs : Backed s) (hclean : Clean s call)
    (h : step s (origin, call) = .ok s') : Backed s' := by
  cases call with
  | tokenConfig token execDelay systemStakableBase =>
    simp only [step, bind_eq_ok] at h
    obtain ⟨-, -, h⟩ := h
    exact tokenConfig_backed hs h
  | deleteToken token => exact hclean.elim
  | refreshTokenInfo token =>
    simp only [step, bind_eq_ok] at h
    obtain ⟨-, -, h⟩ := h
    exact refreshTokenInfo_backed hs hclean h
  | payout token =>
    simp only [step, bind_eq_ok] at h
    obtain ⟨-, -, h⟩ := h
    exact (doPayout_quiet h).backed hs
  | minting call =>
    simp only [step, mapErr_eq_ok] at h
    exact minting_backed hs hclean h
  | nextBlock =>
    simp only [step, pure_eq_ok] at h
    subst s'
    have hadvanced : Backed (advance s) := by
      intro d
      have hd := hs d
      exact ⟨hd.owed, hd.pending, hd.shadow, hd.created⟩
    exact processAll_backed (roundStarted_backed hadvanced) hclean

end Bifrost.SystemStaking
