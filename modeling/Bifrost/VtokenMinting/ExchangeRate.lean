import Bifrost.VtokenMinting.Agreement

/-!
# The exchange rate of a vToken

The rate of a vToken is its token pool over its tracked issuance. Minting, redeeming and
rebonding keep it from falling, whatever the fees and the rounding, except for a redemption
in a currency that is mapped to another vToken: `do_redeem` takes such a currency when it
is not named in the call and the vToken has no enabled token.
-/

namespace Bifrost.VtokenMinting

open Result Machine Shares
set_option autoImplicit false

variable {AccountId : Type} [DecidableEq AccountId] {cfg : Config AccountId} {s s' : State cfg}

/-- The rates of all vTokens that stay in issuance. -/
def RateKept (s s' : State cfg) : Prop :=
  ∀ v, 0 < s.tokenPool v → 0 < s.vtokenIssuance v → 0 < s'.vtokenIssuance v →
    RateLe (s.tokenPool v) (s.vtokenIssuance v) (s'.tokenPool v) (s'.vtokenIssuance v)

def Call.exchanges : Call cfg → Bool
  | .mint .. | .redeem .. | .rebond .. | .rebondByUnlockId .. => true
  | _ => false

/-- A redemption of `v` is paid from the pool of `v`, or pays nothing, or there is no other
vToken on the pool it is paid from. -/
def PaidFromOwnPool (s : State cfg) : Call cfg → Prop
  | .redeem _ oc v n _ => ∀ c target, redeemCurrency s oc v = .ok c →
      s.tokenToVToken c = some target →
        target = v ∨ s.redemption c v n = 0 ∨ s.vtokenIssuance target = 0
  | _ => True

omit [DecidableEq AccountId] in
theorem rateKept_mint {v : CurrencyId} {n : ℕ}
    (hpool : s'.tokenPool = Function.update s.tokenPool v (s.tokenPool v + n))
    (hissuance : s'.vtokenIssuance = Function.update s.vtokenIssuance v
      (s.vtokenIssuance v + mintedFor (s.tokenPool v) (s.vtokenIssuance v) n)) :
    RateKept s s' := by
  intro w hw _ _
  rw [hpool, hissuance]
  by_cases hwv : w = v
  · subst w
    rw [Function.update_self, Function.update_self]
    exact mint_rate hw n
  · rw [Function.update_of_ne hwv, Function.update_of_ne hwv]
    exact Nat.le_refl _

omit [DecidableEq AccountId] in
theorem rateKept_redeem_iff {c v target : CurrencyId} {amount : ℕ}
    {ledgers : UnlockLedgers AccountId} {L : cfg.currency.Ledger} {es : List (Event AccountId)}
    (hle : s.redemption c v amount ≤ s.tokenPool target)
    (htarget : s.tokenToVToken c = some target) :
    RateKept s (s.redeemed c v target (s.redemption c v amount) (s.afterRedeemFee amount) ledgers L
      es) ↔
      target = v ∨ s.redemption c v amount = 0 ∨ s.vtokenIssuance target = 0 := by
  have hredemption : s.redemption c v amount =
      redeemedFor (s.tokenPool target) (s.vtokenIssuance v) (s.afterRedeemFee amount) := by
    rw [State.redemption, getTokenPool_of_mapped htarget]
  by_cases hv : target = v
  · subst target
    simp only [true_or, iff_true]
    intro w _ hw _
    simp only [State.redeemed]
    by_cases hwv : w = v
    · subst w
      rw [Function.update_self, Function.update_self, hredemption]
      exact redeem_rate hw _
    · rw [Function.update_of_ne hwv, Function.update_of_ne hwv]
      exact Nat.le_refl _
  · rw [or_iff_right hv]
    constructor
    · intro hkept
      by_contra hnot
      rw [not_or] at hnot
      have hrate := hkept target (by omega) (by omega)
      simp only [State.redeemed, Function.update_self, Function.update_of_ne hv] at hrate
      exact absurd ((withdraw_rate_iff hle).mp (hrate (by omega))) (by omega)
    · intro hcase w hpool hissuance _
      simp only [State.redeemed]
      by_cases hw : w = target
      · subst w
        rw [Function.update_self, Function.update_of_ne hv]
        exact (withdraw_rate_iff hle).mpr hcase
      · rw [Function.update_of_ne hw]
        by_cases hwv : w = v
        · subst w
          rw [Function.update_self]
          exact Nat.mul_le_mul_left _ (Nat.sub_le _ _)
        · rw [Function.update_of_ne hwv]
          exact Nat.le_refl _

theorem rateKept_iff {a : Call cfg} (ha : a.exchanges = true) (h : step s a = .ok s') :
    RateKept s s' ↔ PaidFromOwnPool s a := by
  cases a with
  | mint who c n channel =>
    simp only [step, bind_eq_ok, pure_eq_ok] at h
    obtain ⟨⟨v, m, s₁⟩, h₁, rfl⟩ := h
    obtain ⟨k, fee, L, es, -, -, -, -, rfl, rfl⟩ := doMint_ok h₁
    exact iff_of_true (rateKept_mint rfl rfl) trivial
  | redeem who oc v n redeemType =>
    obtain ⟨c, target, k, t, ledgers, L, es, hc, -, htarget, hk, -, hle, -, -, -, rfl⟩ :=
      doRedeem_ok h
    have hk' : k = s.redemption c v n := by
      rw [hk, State.redemption, getTokenPool_of_mapped htarget]
    subst hk'
    rw [rateKept_redeem_iff hle htarget]
    constructor
    · intro hcase c' target' hc' htarget'
      rw [hc] at hc'
      cases hc'
      rw [htarget] at htarget'
      cases htarget'
      exact hcase
    · intro hall
      exact hall c target hc htarget
  | rebond who c n =>
    obtain ⟨g, ledgers, target, k, m, fee, rebonded, L, es, -, -, -, -, -, -, rfl, rfl⟩ :=
      rebond_ok h
    exact iff_of_true (rateKept_mint rfl rfl) trivial
  | rebondByUnlockId who c id =>
    obtain ⟨r, b, ledgers, target, k, m, fee, rebonded, L, es, -, -, -, -, -, -, rfl, rfl⟩ :=
      rebondByUnlockId_ok h
    exact iff_of_true (rateKept_mint rfl rfl) trivial
  | _ => contradiction

theorem mint_redeem_le {who : AccountId} {c v c' : CurrencyId} {x m : ℕ} {channel : Option ℕ}
    {oc : Option CurrencyId} {rt : RedeemType AccountId} {s₂ : State cfg}
    (hmint : doMint s who c x channel = .ok (v, m, s'))
    (hredeem : doRedeem s' who oc v m rt = .ok s₂) (hc' : redeemCurrency s' oc v = .ok c')
    (hpaid : s'.tokenToVToken c' = some v ∨ s'.redemption c' v m = 0) :
    ∃ r, (s₂.unlockLedgers c').token.get (s'.tokenUnlockNextId v) = some r ∧
      r.redeemer = who ∧ r.amount ≤ x := by
  obtain ⟨n, fee, L, es, -, hn, -, -, rfl, hs'⟩ := doMint_ok hmint
  obtain ⟨d, target, k, t, ledgers, L', es', hd, -, htarget, hk, -, -, -, -, hadd, rfl⟩ :=
    doRedeem_ok hredeem
  rw [hc'] at hd
  cases hd
  obtain ⟨redeemType, -, -, -, hledgers⟩ := update_add_ok hadd
  refine ⟨⟨who, k, t, redeemType⟩, ?_, rfl, ?_⟩
  · simp only [State.redeemed, Function.update_self, hledgers]
    exact Table.get_write_self _ _ _
  · simp only
    have hredemption : k = s'.redemption c' v (mintedFor (s.tokenPool v) (s.vtokenIssuance v) n) := by
      rw [hk, State.redemption, getTokenPool_of_mapped htarget]
    rcases hpaid with hown | hzero
    · rw [htarget] at hown
      cases hown
      have hpool : s'.tokenPool v = s.tokenPool v + n := by
        rw [hs']
        exact Function.update_self _ _ _
      have hissuance : s'.vtokenIssuance v =
          s.vtokenIssuance v + mintedFor (s.tokenPool v) (s.vtokenIssuance v) n := by
        rw [hs']
        exact Function.update_self _ _ _
      rw [hk, hpool, hissuance]
      exact (round_trip_le (Nat.sub_le _ _)).trans (by omega)
    · omega

/-- The rates of all vTokens are kept if and only if a redemption is paid from the pool of
its vToken, or pays nothing; and minting for `x` and redeeming at once from the pool of the
same vToken pays at most `x`. -/
theorem exchange_rate_kept_iff {a : Call cfg} (ha : a.exchanges = true) (h : step s a = .ok s') :
    (RateKept s s' ↔ PaidFromOwnPool s a) ∧
      ∀ who c x channel v m, doMint s who c x channel = .ok (v, m, s') →
        ∀ oc rt s₂ c', doRedeem s' who oc v m rt = .ok s₂ → redeemCurrency s' oc v = .ok c' →
          s'.tokenToVToken c' = some v ∨ s'.redemption c' v m = 0 →
            ∃ r, (s₂.unlockLedgers c').token.get (s'.tokenUnlockNextId v) = some r ∧
              r.redeemer = who ∧ r.amount ≤ x := by
  refine ⟨rateKept_iff ha h, ?_⟩
  intro who c x channel v m hmint oc rt s₂ c' hredeem hc' hpaid
  exact mint_redeem_le hmint hredeem hc' hpaid

namespace Sample

/-- As `setup`, with a second vToken whose only token is not enabled for redemption. -/
def twoPools : List (Call config) :=
  [.setVtokenMultimap vEth [⟨hpEth, true⟩], .setVtokenMultimap (.vToken2 16) [⟨.token2 99, false⟩],
    .setOngoingTimeUnit hpEth (.era 1), .setUnlockDuration hpEth (.era 2),
    .mint 1 hpEth 1000 none]

def twoHolders : Tokens.Accounts ℕ := fun c x =>
  if c = hpEth ∧ x = 1 then 2000 else if c = .token2 99 ∧ x = 2 then 500 else 0

end Sample

theorem exchange_rate_kept_sample :
    let s := run step (genesis Sample.config Sample.twoHolders) Sample.twoPools
    ∃ s', step s (.mint 1 hpEth 700 none) = .ok s' ∧ RateKept s s' := by
  intro s
  have hok : (step s (.mint 1 hpEth 700 none)).toBool = true := by decide
  obtain ⟨s', h⟩ := exists_of_toBool hok
  exact ⟨s', h, (exchange_rate_kept_iff rfl h).1.mpr trivial⟩

/-- 500 of Token2 99 buy 500 vToken2 16, which fall back to HP_ETH and take the whole pool of
vETH. -/
theorem exchange_rate_falls :
    let s := run step (genesis Sample.config Sample.twoHolders)
      (Sample.twoPools ++ [.mint 2 (.token2 99) 500 none])
    let s' := exec step s (.redeem 2 none (.vToken2 16) 500 .native)
    (s.tokenPool vEth, s.vtokenIssuance vEth) = (1000, 1000) ∧
      (s'.tokenPool vEth, s'.vtokenIssuance vEth) = (0, 1000) ∧ ¬ RateKept s s' ∧
      (s'.unlockLedgers hpEth).token.get 0 = some ⟨2, 1000, .era 3, .native⟩ := by
  refine ⟨by decide, by decide, fun h => ?_, by decide⟩
  have hrate := h vEth (by decide) (by decide) (by decide)
  exact absurd hrate (by unfold RateLe; decide)

end Bifrost.VtokenMinting
