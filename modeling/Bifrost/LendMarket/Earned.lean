import Bifrost.Lib.RewardIndex
import Bifrost.LendMarket.Conservation

/-!
# What the records of earnings promise

`AccountEarned` keeps the exchange rate of an account's last deposit or withdrawal and what it
had earned by then. A record at or below the current rate can always be brought up to date, and
what was recorded, with what the vouchers gained since, is no more than what they gained while
they were held. Deposits and withdrawals bring the record up to date; transfers of lend tokens
and liquidations hand over vouchers without it, and a market that empties starts again at the
minimum rate.
-/

namespace Bifrost.LendMarket

open Result Machine Shares RewardIndex
set_option autoImplicit false

variable {AccountId : Type} {cfg : Config AccountId} {s s' s₁ s₂ : State cfg}
  {asset : CurrencyId} {who : AccountId} {n : ℕ} {rate : FixedU128}

def State.currentRate (s : State cfg) (asset : CurrencyId) : ℕ :=
  max minExchangeRate.inner (s.poolOf asset).rate

def State.accruedRate (s : State cfg) (asset : CurrencyId) : Except Fault FixedU128 := do
  let s ← s.accrueInterest asset
  s.exchangeRateStored asset

def State.ratePrior (s : State cfg) (asset : CurrencyId) (who : AccountId) : ℕ :=
  (s.accountEarned asset who).exchangeRatePrior.inner

def State.earnedPrior (s : State cfg) (asset : CurrencyId) (who : AccountId) : ℕ :=
  (s.accountEarned asset who).totalEarnedPrior

theorem currentRate_empty (h : s.totalSupply asset = 0) :
    s.currentRate asset = minExchangeRate.inner := by
  have hrate : (s.poolOf asset).rate = 0 := by
    simp only [Pool.rate, roundedRate, State.poolOf, h, Nat.div_zero]
  rw [State.currentRate, hrate, Nat.max_eq_left (Nat.zero_le _)]

theorem exchangeRateStored_current (h : s.exchangeRateStored asset = .ok rate) :
    rate.inner = s.currentRate asset := by
  rcases Nat.eq_zero_or_pos (s.totalSupply asset) with hempty | hsupply
  · rw [State.exchangeRateStored, calculateExchangeRate, if_pos hempty, pure_eq_ok] at h
    rw [currentRate_empty hempty, ← h]
  · obtain ⟨-, -, hmin, -⟩ := calculateExchangeRate_ok h hsupply
    rw [(exchangeRateStored_ok h hsupply).1] at hmin ⊢
    exact (Nat.max_eq_right hmin).symm

theorem exchangeRateStored_lt (h : s.exchangeRateStored asset = .ok rate) :
    rate.inner < FixedU128.accuracy := by
  rcases Nat.eq_zero_or_pos (s.totalSupply asset) with hempty | hsupply
  · rw [State.exchangeRateStored, calculateExchangeRate, if_pos hempty, pure_eq_ok] at h
    subst h
    decide
  · exact (calculateExchangeRate_ok h hsupply).2.2.2

/-! The rate over one operation. -/

theorem currentRate_of_poolOf (h : s'.poolOf asset = s.poolOf asset) :
    s'.currentRate asset = s.currentRate asset := by
  unfold State.currentRate
  rw [h]

theorem Pool.Grows.currentRate (h : (s.poolOf asset).Grows (s'.poolOf asset)) :
    s.currentRate asset ≤ s'.currentRate asset :=
  max_le_max (Nat.le_refl _) h.rate

theorem minExchangeRate_le (s : State cfg) (asset : CurrencyId) :
    minExchangeRate.inner ≤ s.currentRate asset := Nat.le_max_left _ _

theorem RateKept.currentRate (h : RateKept s s')
    (hkeeps : s'.totalSupply asset = 0 → s.currentRate asset = minExchangeRate.inner) :
    s.currentRate asset ≤ s'.currentRate asset := by
  rcases Nat.eq_zero_or_pos (s'.totalSupply asset) with hempty | hsupply'
  · rw [hkeeps hempty]
    exact minExchangeRate_le s' asset
  · rcases Nat.eq_zero_or_pos (s.totalSupply asset) with hempty | hsupply
    · rw [currentRate_empty hempty]
      exact minExchangeRate_le s' asset
    · exact max_le_max (Nat.le_refl _) (h asset hsupply hsupply').1

theorem RateKept.currentRate_of_supply (h : RateKept s s')
    (hsupply : s'.totalSupply asset = 0 → s.totalSupply asset = 0) :
    s.currentRate asset ≤ s'.currentRate asset :=
  h.currentRate fun hempty => currentRate_empty (hsupply hempty)

theorem transfer_grows {source dest : AccountId} {p : Preservation}
    (h : s.transfer asset source dest n p = .ok s') (hsource : source ≠ cfg.accountId)
    (c : CurrencyId) : (s.poolOf c).Grows (s'.poolOf c) := by
  rw [transfer_poolOf h]
  by_cases hc : c = asset
  · subst c
    rw [Function.update_self]
    refine ⟨rfl, ?_⟩
    have hcash : s.getTotalCash asset ≤ s'.getTotalCash asset := by
      by_cases hdest : dest = cfg.accountId
      · subst dest
        rw [(cash_received h).2.1 hsource]
        exact Nat.le_add_right _ _
      · obtain ⟨L, hL, rfl⟩ := transfer_ok h
        have hsame : cfg.assets.balance L asset cfg.accountId =
            cfg.assets.balance s.ledger asset cfg.accountId :=
          cfg.assets.transfer_frame hL (Or.inr (Or.inr ⟨hsource.symm, Ne.symm hdest, cfg.not_dust⟩))
        simp only [State.getTotalCash, cfg.no_holds, hsame, Nat.le_refl]
    simp only [Pool.value, State.poolOf]
    omega
  · rw [Function.update_of_ne hc]
    exact .refl _

section Records

variable [DecidableEq AccountId] {x : AccountId} {c : CurrencyId}

/-- A record of earnings that can be brought up to date, by an account that gained `gain` on
its vouchers so far, in units of `1 / accuracy`. -/
structure Recorded (s : State cfg) (asset : CurrencyId) (who : AccountId) (gain : ℕ) : Prop where
  vouchers : s.vouchersOf asset who ≤ u128Max
  rate : s.ratePrior asset who ≤ s.currentRate asset
  total : FixedU128.accuracy * s.earnedPrior asset who ≤ u128Max * s.ratePrior asset who
  gain : FixedU128.accuracy * s.earnedPrior asset who +
    owed (s.vouchersOf asset who) (s.currentRate asset) (s.ratePrior asset who) ≤ gain

/-- The record stays: vouchers are added only where it is at the rate, and the rate does not
fall below it. -/
structure RecordStays (s s' : State cfg) (asset : CurrencyId) (who : AccountId) : Prop where
  record : s'.accountEarned asset who = s.accountEarned asset who
  rate : s.ratePrior asset who ≤ s.currentRate asset → s.ratePrior asset who ≤ s'.currentRate asset
  vouchers : s'.vouchersOf asset who ≤ s.vouchersOf asset who ∨
    (s'.vouchersOf asset who ≤ u128Max ∧ s.ratePrior asset who = s.currentRate asset)

namespace RecordStays

theorem ratePrior (h : RecordStays s s' asset who) :
    s'.ratePrior asset who = s.ratePrior asset who := by
  unfold State.ratePrior
  rw [h.record]

theorem earnedPrior (h : RecordStays s s' asset who) :
    s'.earnedPrior asset who = s.earnedPrior asset who := by
  unfold State.earnedPrior
  rw [h.record]

end RecordStays

theorem Recorded.stays {gain : ℕ} (hs : Recorded s asset who gain)
    (h : RecordStays s s' asset who) :
    Recorded s' asset who
      (gain + s'.vouchersOf asset who * (s'.currentRate asset - s.currentRate asset)) := by
  refine ⟨?_, ?_, ?_, ?_⟩
  · rcases h.vouchers with hle | ⟨hmax, -⟩
    · exact hle.trans hs.vouchers
    · exact hmax
  · rw [h.ratePrior]
    exact h.rate hs.rate
  · rw [h.ratePrior, h.earnedPrior]
    exact hs.total
  · rw [h.ratePrior, h.earnedPrior]
    have hgain := hs.gain
    have hrose := owed_advance_le (s'.vouchersOf asset who) (s.currentRate asset)
      (s'.currentRate asset) (s.ratePrior asset who)
    rcases h.vouchers with hle | ⟨-, hprior⟩
    · have hfewer := owed_mono hle (s.currentRate asset) (s.ratePrior asset who)
      omega
    · rw [hprior, owed_paid] at hrose
      rw [hprior]
      omega

theorem Recorded.updated {gain total : ℕ} (hs : Recorded s asset who gain)
    (hrate : s.exchangeRateStored asset = .ok rate)
    (htotal : total = (rate.inner - s.ratePrior asset who) * s.vouchersOf asset who /
      FixedU128.accuracy + s.earnedPrior asset who) :
    Recorded (s.setEarned asset who ⟨total, rate⟩) asset who gain := by
  have hcurrent := exchangeRateStored_current hrate
  have hprior : (s.setEarned asset who ⟨total, rate⟩).ratePrior asset who = s.currentRate asset := by
    simp [State.ratePrior, State.setEarned, hcurrent]
  have hearned : (s.setEarned asset who ⟨total, rate⟩).earnedPrior asset who = total := by
    simp [State.earnedPrior, State.setEarned]
  have hsame : (s.setEarned asset who ⟨total, rate⟩).currentRate asset = s.currentRate asset := rfl
  have hadded : FixedU128.accuracy * total ≤ FixedU128.accuracy * s.earnedPrior asset who +
      owed (s.vouchersOf asset who) (s.currentRate asset) (s.ratePrior asset who) := by
    have hdiv := Nat.mul_div_le ((rate.inner - s.ratePrior asset who) * s.vouchersOf asset who)
      FixedU128.accuracy
    rw [htotal, Nat.mul_add, owed, ← hcurrent, Nat.mul_comm (s.vouchersOf asset who)]
    omega
  refine ⟨hs.vouchers, ?_, ?_, ?_⟩
  · rw [hprior, hsame]
  · rw [hprior, hearned]
    have hvouchers := Nat.mul_le_mul_right (s.currentRate asset - s.ratePrior asset who) hs.vouchers
    have hsplit : u128Max * s.ratePrior asset who +
        u128Max * (s.currentRate asset - s.ratePrior asset who) =
          u128Max * s.currentRate asset := by
      rw [← Nat.mul_add, Nat.add_sub_cancel' hs.rate]
    have htotal := hs.total
    rw [owed] at hadded
    omega
  · rw [hprior, hearned, hsame, owed_paid]
    exact hadded.trans hs.gain

theorem updateEarnedStored_total (h : s.updateEarnedStored who asset rate = .ok s') :
    s' = s.setEarned asset who ⟨(rate.inner - s.ratePrior asset who) * s.vouchersOf asset who /
      FixedU128.accuracy + s.earnedPrior asset who, rate⟩ := by
  simp only [State.updateEarnedStored, FixedU128.checkedSub, FixedU128.checkedMulInt, bind_eq_ok,
    okOr_eq_ok, pure_eq_ok, Option.bind_eq_some_iff, Option.map_eq_some_iff,
    U128.checkedSub_eq_some, U128.mulDiv_eq_some, U128.checkedAdd_eq_some] at h
  obtain ⟨_, ⟨_, ⟨_, ⟨_, ⟨-, rfl⟩, rfl⟩, -, rfl, -⟩, rfl, -⟩, rfl⟩ := h
  rfl

/-- Where there is a rate, the record can be brought up to date: what is added to it is at most
what the rate rose by on all the vouchers there can be. -/
theorem Recorded.update_succeeds {gain : ℕ} (hs : Recorded s asset who gain)
    (hrate : s.exchangeRateStored asset = .ok rate) :
    ∃ s', s.updateEarnedStored who asset rate = .ok s' := by
  have hprior : s.ratePrior asset who ≤ rate.inner := by
    rw [exchangeRateStored_current hrate]
    exact hs.rate
  have hsum : (rate.inner - s.ratePrior asset who) * s.vouchersOf asset who / FixedU128.accuracy +
      s.earnedPrior asset who ≤ u128Max := by
    apply Nat.le_of_mul_le_mul_left _ (by decide : 0 < FixedU128.accuracy)
    have hdiv := Nat.mul_div_le ((rate.inner - s.ratePrior asset who) * s.vouchersOf asset who)
      FixedU128.accuracy
    calc FixedU128.accuracy * ((rate.inner - s.ratePrior asset who) * s.vouchersOf asset who /
          FixedU128.accuracy + s.earnedPrior asset who)
        ≤ (rate.inner - s.ratePrior asset who) * s.vouchersOf asset who +
            u128Max * s.ratePrior asset who := by
          rw [Nat.mul_add]
          exact Nat.add_le_add hdiv hs.total
      _ ≤ (rate.inner - s.ratePrior asset who) * u128Max + u128Max * s.ratePrior asset who :=
          Nat.add_le_add_right (Nat.mul_le_mul_left _ hs.vouchers) _
      _ = u128Max * rate.inner := by
          rw [Nat.mul_comm, ← Nat.mul_add, Nat.sub_add_cancel hprior]
      _ ≤ FixedU128.accuracy * u128Max := by
          rw [Nat.mul_comm]
          exact Nat.mul_le_mul_right _ (exchangeRateStored_lt hrate).le
  refine ⟨s.setEarned asset who ⟨(rate.inner - s.ratePrior asset who) * s.vouchersOf asset who /
    FixedU128.accuracy + s.earnedPrior asset who, rate⟩, ?_⟩
  simp only [State.updateEarnedStored, FixedU128.checkedSub, FixedU128.checkedMulInt, bind_eq_ok,
    okOr_eq_ok, pure_eq_ok, Option.bind_eq_some_iff, Option.map_eq_some_iff,
    U128.checkedSub_eq_some, U128.mulDiv_eq_some, U128.checkedAdd_eq_some]
  exact ⟨_, ⟨_, ⟨_, ⟨_, ⟨hprior, rfl⟩, rfl⟩, by decide, rfl, (Nat.le_add_right _ _).trans hsum⟩, rfl,
    hsum⟩, rfl⟩

/-! Vouchers of one account. -/

theorem addVouchers_vouchersOf (h : s.addVouchers asset who n = .ok s') (c : CurrencyId)
    (x : AccountId) : s'.vouchersOf c x =
      s.vouchersOf c x + if c = asset ∧ x = who then n else 0 := by
  obtain rfl := addVouchers_ok h
  unfold State.vouchersOf
  split
  · rename_i heq
    obtain ⟨rfl, rfl⟩ := heq
    rw [depositsOf_setDeposits_self]
    rfl
  · rename_i hne
    rw [depositsOf_setDeposits_ne _ (Classical.not_and_iff_not_or_not.mp hne), Nat.add_zero]

theorem addVouchers_max (h : s.addVouchers asset who n = .ok s') :
    s'.vouchersOf asset who ≤ u128Max := by
  simp only [State.addVouchers, bind_eq_ok, okOr_eq_ok, pure_eq_ok, U128.checkedAdd_eq_some] at h
  obtain ⟨balance, ⟨-, hmax⟩, rfl⟩ := h
  rw [State.vouchersOf, depositsOf_setDeposits_self]
  exact hmax

theorem removeVouchers_vouchersOf (h : s.removeVouchers asset who n = .ok s')
    (c : CurrencyId) (x : AccountId) :
    s'.vouchersOf c x + (if c = asset ∧ x = who then n else 0) = s.vouchersOf c x := by
  obtain ⟨hle, o, rfl, ho⟩ := removeVouchers_ok h
  unfold State.vouchersOf
  split
  · rename_i heq
    obtain ⟨rfl, rfl⟩ := heq
    have hleft : (o.getD default).voucherBalance = (s.depositsOf c x).voucherBalance - n := by
      rw [ho]
      split
      · exact (by assumption : _ = 0).symm
      · rfl
    rw [depositsOf_setDeposits_self, hleft]
    omega
  · rename_i hne
    rw [depositsOf_setDeposits_ne _ (Classical.not_and_iff_not_or_not.mp hne), Nat.add_zero]

theorem seizeVouchers_vouchersOf (h : s.seizeVouchers asset who n = .ok s')
    (c : CurrencyId) (x : AccountId) :
    s'.vouchersOf c x + (if c = asset ∧ x = who then n else 0) = s.vouchersOf c x := by
  obtain ⟨hle, rfl⟩ := seizeVouchers_ok h
  unfold State.vouchersOf
  split
  · rename_i heq
    obtain ⟨rfl, rfl⟩ := heq
    rw [depositsOf_setDeposits_self]
    exact Nat.sub_add_cancel hle
  · rename_i hne
    rw [depositsOf_setDeposits_ne _ (Classical.not_and_iff_not_or_not.mp hne), Nat.add_zero]

/-! Deposits and withdrawals. -/

/-- What an account gains where its vouchers change at the rate of `s₁`. -/
def voucherGain (s s₁ s' : State cfg) (asset : CurrencyId) (who : AccountId) : ℕ :=
  s.vouchersOf asset who * (s₁.currentRate asset - s.currentRate asset) +
    s'.vouchersOf asset who * (s'.currentRate asset - s₁.currentRate asset)

theorem stays_of_same (hrecord : s'.accountEarned = s.accountEarned)
    (hdeposits : s'.accountDeposits = s.accountDeposits)
    (hrate : s.currentRate asset ≤ s'.currentRate asset) : RecordStays s s' asset who := by
  refine ⟨?_, fun hle => hle.trans hrate, Or.inl ?_⟩
  · rw [hrecord]
  · unfold State.vouchersOf State.depositsOf
    rw [hdeposits]

theorem accrueInterest_stays (h : s.accrueInterest c = .ok s') : RecordStays s s' asset who :=
  stays_of_same (accrueInterest_frame h).accountEarned (accrueInterest_frame h).accountDeposits
    (accrueInterest_grows h asset).currentRate

theorem updateEarnedStored_recorded {gain : ℕ} (hrate : s.exchangeRateStored c = .ok rate)
    (h : s.updateEarnedStored x c rate = .ok s') (hs : Recorded s asset who gain) :
    Recorded s' asset who gain := by
  have hs' := updateEarnedStored_total h
  by_cases heq : asset = c ∧ who = x
  · obtain ⟨rfl, rfl⟩ := heq
    rw [hs']
    exact hs.updated hrate rfl
  · have hrecord : s'.accountEarned asset who = s.accountEarned asset who := by
      rw [hs']
      rcases Classical.not_and_iff_not_or_not.mp heq with hc | hx
      · simp only [State.setEarned, Function.update_of_ne hc]
      · by_cases hc : asset = c
        · subst c
          simp only [State.setEarned, Function.update_self, Function.update_of_ne hx]
        · simp only [State.setEarned, Function.update_of_ne hc]
    have hsame : s'.currentRate asset = s.currentRate asset := by
      rw [hs']
      rfl
    have hheld : s'.vouchersOf asset who = s.vouchersOf asset who := by
      rw [hs']
      rfl
    have hstays := hs.stays ⟨hrecord, fun hle => hsame.symm ▸ hle, Or.inl hheld.le⟩
    rwa [hsame, Nat.sub_self, Nat.mul_zero, Nat.add_zero] at hstays

theorem Recorded.converts {gain : ℕ}
    (hs : Recorded s asset who gain) (hfirst : RecordStays s s₁ asset who)
    (hheld : s₁.vouchersOf asset who = s.vouchersOf asset who)
    (hrate : s₁.exchangeRateStored c = .ok rate) (hupdate : s₁.updateEarnedStored x c rate = .ok s₂)
    (hlast : RecordStays s₂ s' asset who) :
    Recorded s' asset who (gain + voucherGain s s₁ s' asset who) := by
  have hupdated := updateEarnedStored_recorded hrate hupdate (hs.stays hfirst)
  have hsame : s₂.currentRate asset = s₁.currentRate asset := by
    rw [updateEarnedStored_total hupdate]
    rfl
  have hend := hupdated.stays hlast
  rwa [hsame, hheld, Nat.add_assoc] at hend

theorem mint_stays {n v : ℕ} {s₃ s₄ : State cfg}
    (h₁ : s.transfer asset x cfg.accountId n .expendable = .ok s₃)
    (h₂ : s₃.addVouchers asset x v = .ok s₄) (hs' : s' = s₄.setSupply asset (s₄.totalSupply asset + v))
    (hkept : RateKept s s') (hprior : s.ratePrior asset x = s.currentRate asset) (c : CurrencyId) :
    RecordStays s s' c who := by
  have hadded := addVouchers_vouchersOf h₂ c who
  have hmax := addVouchers_max h₂
  obtain ⟨L, -, rfl⟩ := transfer_ok h₁
  obtain rfl := addVouchers_ok h₂
  subst hs'
  have hsupply : ∀ m, ((State.setDeposits { s with ledger := L } asset x m).setSupply asset
      (s.totalSupply asset + v)).totalSupply c = 0 → s.totalSupply c = 0 := by
    intro m hempty
    by_cases hc : c = asset
    · subst c
      have hsum : s.totalSupply asset + v = 0 := (Function.update_self _ _ _).symm.trans hempty
      omega
    · exact (Function.update_of_ne hc _ _).symm.trans hempty
  refine ⟨rfl, fun hle => hle.trans (hkept.currentRate_of_supply (hsupply _)), ?_⟩
  split at hadded
  · rename_i heq
    obtain ⟨rfl, rfl⟩ := heq
    exact Or.inr ⟨hmax, hprior⟩
  · exact Or.inl hadded.le

theorem mint_recorded {n gain : ℕ} (hx : x ≠ cfg.accountId)
    (h₁ : s.accrueInterest asset = .ok s₁) (h : doMint s x asset n = .ok s')
    (hs : Recorded s c who gain) : Recorded s' c who (gain + voucherGain s s₁ s' c who) := by
  have hkept : RateKept s₁ s' := mint_rate_accrued hx h₁ h
  obtain ⟨-, t, _, s₃, s₄, rate, v, ht, ⟨rewards, rfl, -⟩, hrate, h₃, -, -, h₄, s₅, h₅, hs'⟩ :=
    doMint_ok h
  rw [h₁] at ht
  cases ht
  have haccrued : RecordStays s s₁ c who := accrueInterest_stays h₁
  have hfirst : RecordStays s (s₁.withRewards rewards) c who :=
    ⟨haccrued.record, haccrued.rate, haccrued.vouchers⟩
  have hheld : (s₁.withRewards rewards).vouchersOf c who = s.vouchersOf c who := by
    show ((((s₁.accountDeposits c).get who).getD default).voucherBalance) = _
    rw [(accrueInterest_frame h₁).accountDeposits]
    rfl
  have hlast : RecordStays s₃ s' c who := by
    have hs₃ := updateEarnedStored_total h₃
    apply mint_stays h₄ h₅ hs'
    · rw [hs₃]
      exact hkept
    · have hcurrent := exchangeRateStored_current hrate
      rw [hs₃]
      simp only [State.ratePrior, State.setEarned, Function.update_self]
      exact hcurrent
  have hconverted := hs.converts hfirst hheld hrate h₃ hlast
  exact hconverted

theorem redeemVoucher_stays {v paid : ℕ} (h : doRedeemVoucher s x asset v = .ok (paid, s'))
    (hdust : cfg.assets.NoDust s.ledger asset cfg.accountId paid)
    (hempty : v = s.totalSupply asset → s.ratePrior asset who ≤ s.currentRate asset →
      s.ratePrior asset who ≤ minExchangeRate.inner) : RecordStays s s' c who := by
  have hkept : RateKept s s' := redeemVoucher_rate (fun c => .refl _) h hdust
  obtain ⟨-, _, s₂, rate, ⟨rewards, rfl, -⟩, -, -, h₂, -, h₃⟩ := doRedeemVoucher_ok h
  have hremoved := removeVouchers_vouchersOf h₂ c who
  obtain ⟨-, o, rfl, -⟩ := removeVouchers_ok h₂
  obtain ⟨L, -, rfl⟩ := transfer_ok h₃
  refine ⟨rfl, ?_, Or.inl ?_⟩
  · intro hle
    by_cases hlast : c = asset ∧ v = s.totalSupply asset
    · obtain ⟨rfl, hv⟩ := hlast
      exact (hempty hv hle).trans (minExchangeRate_le _ c)
    · apply hle.trans
      apply hkept.currentRate_of_supply
      intro hzero
      by_cases hc : c = asset
      · subst c
        have hleft : s.totalSupply asset - v = 0 := (Function.update_self _ _ _).symm.trans hzero
        have hv : v ≠ s.totalSupply asset := fun hv => hlast ⟨rfl, hv⟩
        obtain ⟨-, -, -, -, hcovered, -⟩ := redeemVoucher_poolOf h
        omega
      · exact (Function.update_of_ne hc _ _).symm.trans hzero
  · have hfewer := Nat.le_add_right ((State.setDeposits (s.withRewards rewards) asset x o).vouchersOf
      c who) (if c = asset ∧ who = x then v else 0)
    rw [hremoved] at hfewer
    exact hfewer

theorem redemption_recorded {v paid gain : ℕ}
    {vouchers : FixedU128 → Except Fault ℕ} (h₁ : s.accrueInterest asset = .ok s₁)
    (hrate : s₁.exchangeRateStored asset = .ok rate)
    (h₂ : s₁.updateEarnedStored x asset rate = .ok s₂) (hv : vouchers rate = .ok v)
    (h₃ : doRedeemVoucher s₂ x asset v = .ok (paid, s'))
    (hdust : ∀ n, s.payout asset vouchers = .ok n →
      cfg.assets.NoDust s.ledger asset cfg.accountId n)
    (hempty : v = s.totalSupply asset → rate = minExchangeRate) (hs : Recorded s c who gain) :
    Recorded s' c who (gain + voucherGain s s₁ s' c who) := by
  have hs₂ := updateEarnedStored_total h₂
  have hpays : cfg.assets.NoDust s₂.ledger asset cfg.accountId paid := by
    have hrate₂ : s₂.exchangeRateStored asset = .ok rate := by
      rw [hs₂]
      exact hrate
    have hpaid : calcUnderlyingAmount v rate = .ok paid := redeemVoucher_paid h₃ hrate₂
    have hpayout : s.payout asset vouchers = .ok paid := by
      simp only [State.payout, bind_eq_ok]
      exact ⟨s₁, h₁, rate, hrate, v, hv, hpaid⟩
    have hledger := hdust paid hpayout
    rw [hs₂]
    rw [← (accrueInterest_frame h₁).ledger] at hledger
    exact hledger
  have hsupply : s₂.totalSupply = s.totalSupply := by
    rw [hs₂]
    exact (accrueInterest_frame h₁).totalSupply
  have hlast : RecordStays s₂ s' c who := by
    apply redeemVoucher_stays h₃ hpays
    intro hv hle
    rw [hsupply] at hv
    have hcurrent : s₂.currentRate asset = rate.inner := by
      rw [hs₂]
      exact (exchangeRateStored_current hrate).symm
    rw [hcurrent, hempty hv] at hle
    exact hle
  have hheld : s₁.vouchersOf c who = s.vouchersOf c who := by
    show ((((s₁.accountDeposits c).get who).getD default).voucherBalance) = _
    rw [(accrueInterest_frame h₁).accountDeposits]
    rfl
  exact hs.converts (accrueInterest_stays h₁) hheld hrate h₂ hlast

/-! The calls that leave vouchers and records alone. -/

/-- The payments of the pallet account follow the books: in the calls of users and under
`add_reserves` as in `LedgerFollows`, and nobody else spends from that account. -/
def PaymentsFollow (s : State cfg) : Call AccountId → Prop
  | .addReward who _ => who ≠ cfg.accountId
  | .moveAssets _ source _ _ => source ≠ cfg.accountId
  | .withdrawMissingReward .. | .claimReward _ | .claimRewardForMarket .. =>
    cfg.rewardAccountId ≠ cfg.accountId
  | .reduceReserves receiver asset n =>
    receiver = cfg.accountId ∨ cfg.assets.NoDust s.ledger asset cfg.accountId n
  | .reduceIncentiveReserves _ asset n => cfg.incentiveRewardAccountId ≠ cfg.accountId ∧
    ∀ rate v paid, s.exchangeRateStored asset = .ok rate → calcCollateralAmount n rate = .ok v →
      calcUnderlyingAmount v rate = .ok paid → cfg.assets.NoDust s.ledger asset cfg.accountId paid
  | a => LedgerFollows s a

omit [DecidableEq AccountId] in
theorem Administers.currentRate (h : Administers s s') :
    s'.currentRate asset = s.currentRate asset := by
  apply currentRate_of_poolOf
  unfold State.poolOf State.getTotalCash
  rw [h.ledger, h.totalSupply, h.totalBorrows, h.totalReserves]

omit [DecidableEq AccountId] in
theorem reduceReserves_grows {receiver : AccountId} (h : reduceReserves s receiver asset n = .ok s')
    (hpays : receiver = cfg.accountId ∨ cfg.assets.NoDust s.ledger asset cfg.accountId n)
    (c : CurrencyId) : (s.poolOf c).Grows (s'.poolOf c) := by
  obtain ⟨hle, h₁⟩ := reduceReserves_ok h
  have hcash : s.getTotalCash asset ≤ s'.getTotalCash asset + n := by
    rcases hpays with rfl | hdust
    · have hsame := (cash_received h₁).2.2 rfl
      have hcash : s'.getTotalCash asset = s.getTotalCash asset := hsame
      omega
    · have hpaid := cash_paid h₁ hdust
      exact hpaid
  rw [transfer_poolOf h₁]
  by_cases hc : c = asset
  · subst c
    rw [Function.update_self]
    refine ⟨rfl, ?_⟩
    simp only [Pool.value, State.poolOf, Function.update_self]
    omega
  · rw [Function.update_of_ne hc]
    refine ⟨rfl, ?_⟩
    simp only [Pool.value, State.poolOf, Function.update_of_ne hc]
    exact Nat.le_refl _

theorem payReward_grows {user : AccountId} (h : s.payReward user = .ok s')
    (hreward : cfg.rewardAccountId ≠ cfg.accountId) (c : CurrencyId) :
    (s.poolOf c).Grows (s'.poolOf c) := by
  obtain ⟨s₁, rewards, rfl | h₁, rfl⟩ := payReward_ok h
  · exact .refl _
  · exact transfer_grows h₁ hreward c

omit [DecidableEq AccountId] in
theorem transfer_earned {source dest : AccountId} {p : Preservation}
    (h : s.transfer asset source dest n p = .ok s') : s'.accountEarned = s.accountEarned := by
  obtain ⟨L, -, rfl⟩ := transfer_ok h
  rfl

theorem payReward_earned {user : AccountId} (h : s.payReward user = .ok s') :
    s'.accountEarned = s.accountEarned := by
  obtain ⟨s₁, rewards, rfl | h₁, rfl⟩ := payReward_ok h
  · rfl
  · have hpaid := transfer_earned h₁
    exact hpaid

theorem borrow_earned (h : doBorrow s x asset n = .ok s') : s'.accountEarned = s.accountEarned := by
  obtain ⟨s₁, _, borrows, h₁, -, -, ⟨rewards, rfl, -⟩, -, h₂⟩ := doBorrow_ok h
  have hlent := transfer_earned h₂
  exact hlent.trans (accrueInterest_frame h₁).accountEarned

theorem repay_earned (h : doRepayBorrow s x asset n = .ok s') :
    s'.accountEarned = s.accountEarned := by
  obtain ⟨s₁, borrows, h₁, -, h₂⟩ := doRepayBorrow_ok h
  obtain ⟨-, _, s₂, ⟨rewards, rfl, -⟩, h₃, rfl⟩ := doRepayBorrowWithAmount_ok h₂
  have hpaid := transfer_earned h₃
  exact hpaid.trans (accrueInterest_frame h₁).accountEarned

theorem step_leaves {a : Call AccountId} (ha : a.movesVouchers = false)
    (hpays : PaymentsFollow s a) (h : step s a = .ok s') :
    s'.accountEarned = s.accountEarned ∧ s.currentRate asset ≤ s'.currentRate asset := by
  by_cases hadmin : a.administers = true
  · have hframe := step_administers hadmin h
    exact ⟨hframe.accountEarned, hframe.currentRate.symm.le⟩
  · have hsupply := (step_sameVouchers ha h).supply
    have hrate : a.exchanges = true → LedgerFollows s a →
        s.currentRate asset ≤ s'.currentRate asset := by
      intro hexchanges hledger
      apply (rateKept_step hexchanges hledger h).currentRate_of_supply
      exact fun hempty => hsupply ▸ hempty
    cases a with
    | addReward who n =>
      simp only [step, addReward, bind_eq_ok] at h
      obtain ⟨_, -, h⟩ := h
      exact ⟨transfer_earned h, (transfer_grows h hpays asset).currentRate⟩
    | withdrawMissingReward target n =>
      simp only [step, withdrawMissingReward, bind_eq_ok] at h
      obtain ⟨_, -, h⟩ := h
      exact ⟨transfer_earned h, (transfer_grows h hpays asset).currentRate⟩
    | updateMarketRewardSpeed asset supply borrow =>
      obtain ⟨rewards, rfl⟩ := updateMarketRewardSpeed_ok h
      exact ⟨rfl, Nat.le_refl _⟩
    | claimReward who =>
      simp only [step, claimReward, bind_eq_ok] at h
      obtain ⟨s₁, h₁, h₂⟩ := h
      obtain ⟨rewards, rfl⟩ := collectMarketRewards_ok h₁
      have hsame := payReward_earned h₂
      exact ⟨hsame, (payReward_grows h₂ hpays asset).currentRate⟩
    | claimRewardForMarket who asset =>
      simp only [step, claimRewardForMarket, bind_eq_ok] at h
      obtain ⟨s₁, h₁, h₂⟩ := h
      obtain ⟨rewards, rfl⟩ := collectMarketReward_ok h₁
      have hsame := payReward_earned h₂
      exact ⟨hsame, (payReward_grows h₂ hpays _).currentRate⟩
    | borrow who c n => exact ⟨borrow_earned h, hrate rfl hpays⟩
    | repayBorrow who c n => exact ⟨repay_earned h, hrate rfl hpays⟩
    | repayBorrowAll who c =>
      have hrepaid := hrate rfl hpays
      obtain ⟨s₁, borrows, h₁, -, h₂⟩ := repayBorrowAll_ok h
      exact ⟨(repay_earned h₂).trans (accrueInterest_frame h₁).accountEarned, hrepaid⟩
    | addReserves payer c n =>
      have hadded := hrate rfl hpays
      obtain ⟨s₁, h₁, rfl⟩ := addReserves_ok h
      have hsame := transfer_earned h₁
      exact ⟨hsame, hadded⟩
    | reduceReserves receiver c n =>
      obtain ⟨-, h₁⟩ := reduceReserves_ok h
      have hsame := transfer_earned h₁
      exact ⟨hsame, (reduceReserves_grows h hpays asset).currentRate⟩
    | accrueInterest c =>
      exact ⟨(accrueInterest_frame h).accountEarned, hrate rfl hpays⟩
    | moveAssets c source dest n =>
      exact ⟨transfer_earned h, (transfer_grows h hpays asset).currentRate⟩
    | _ => simp_all [Call.movesVouchers, Call.administers]

/-! The calls that hand vouchers over. -/

/-- The rate at which a liquidation converts what it seizes. -/
def State.seizureRate (s : State cfg) (who borrower : AccountId) (asset : CurrencyId) (n : ℕ)
    (collateral : CurrencyId) : Except Fault FixedU128 := do
  let s ← s.accrueInterest asset
  let s ← s.accrueInterest collateral
  let s ← repayForBorrower s who borrower asset n
  s.exchangeRateStored collateral

/-- Vouchers that are handed over go to accounts whose record is at the rate. -/
def ReceivedAtRate (s : State cfg) : Call AccountId → Prop
  | .transferLendToken token source dest n => ∀ asset, s.underlyingAssetId token = some asset →
    source = dest ∨ n = 0 ∨ s.ratePrior asset dest = s.currentRate asset
  | .liquidateBorrow who borrower asset n collateral => ∀ rate seized reserved,
    s.seizureRate who borrower asset n collateral = .ok rate →
    s.seizedVouchers who borrower asset n collateral = .ok (seized, reserved) →
      (U128.wrappingSub seized reserved = 0 ∨ s.ratePrior collateral who = rate.inner) ∧
      (reserved = 0 ∨ (borrower = cfg.incentiveRewardAccountId ∧ reserved ≤ seized) ∨
        s.ratePrior collateral cfg.incentiveRewardAccountId = rate.inner)
  | _ => True

theorem transferLendToken_stays {token : CurrencyId} {source dest : AccountId}
    (hreceived : ReceivedAtRate s (.transferLendToken token source dest n))
    (h : transferLendToken s token source dest n = .ok s') : RecordStays s s' asset who := by
  have hrate : s'.currentRate asset = s.currentRate asset :=
    currentRate_of_poolOf (congrFun (transferLendToken_poolOf h) asset)
  obtain ⟨-, _, s₂, underlying, ⟨rewards, rfl, -⟩, hunderlying, h₂, h₃⟩ := transferLendToken_ok h
  have hremoved := removeVouchers_vouchersOf h₂ asset who
  have hadded := addVouchers_vouchersOf h₃ asset who
  have hmax := addVouchers_max h₃
  have hheld : (s.withRewards rewards).vouchersOf asset who = s.vouchersOf asset who := rfl
  have hrecord : s'.accountEarned asset who = s.accountEarned asset who := by
    obtain ⟨-, o, rfl, -⟩ := removeVouchers_ok h₂
    obtain rfl := addVouchers_ok h₃
    rfl
  refine ⟨hrecord, fun hle => hrate.symm ▸ hle, ?_⟩
  by_cases hdest : asset = underlying ∧ who = dest
  · obtain ⟨rfl, rfl⟩ := hdest
    rcases hreceived asset hunderlying with rfl | rfl | hprior
    · left
      rw [hadded, hremoved, hheld]
    · left
      simp only [ite_self, Nat.add_zero] at hadded hremoved
      rw [hadded, hremoved, hheld]
    · exact Or.inr ⟨hmax, hprior⟩
  · rw [if_neg hdest] at hadded
    left
    omega

theorem seizeCollateral_stays {liquidator borrower : AccountId} {amount : ℕ} {market : Market}
    (hne : borrower ≠ liquidator)
    (hreceived : ∀ rate seized reserved, s.exchangeRateStored asset = .ok rate →
      calcCollateralAmount amount rate = .ok seized →
      incentiveReservedAmount market seized = .ok reserved →
      (U128.wrappingSub seized reserved = 0 ∨ s.ratePrior asset liquidator = rate.inner) ∧
      (reserved = 0 ∨ (borrower = cfg.incentiveRewardAccountId ∧ reserved ≤ seized) ∨
        s.ratePrior asset cfg.incentiveRewardAccountId = rate.inner))
    (h : seizeCollateral s liquidator borrower asset amount market = .ok s') (c : CurrencyId) :
    RecordStays s s' c who := by
  have hrate : s'.currentRate c = s.currentRate c :=
    currentRate_of_poolOf (congrFun (seizeCollateral_poolOf h) c)
  obtain ⟨_, s₂, s₃, rate, seized, reserved, ⟨rewards, rfl, -⟩, hstored, hseized, h₂, hreserved,
    h₃, h₄⟩ := seizeCollateral_ok h
  have hstored : s.exchangeRateStored asset = .ok rate := hstored
  obtain ⟨hliquidator, hincentive⟩ := hreceived rate seized reserved hstored hseized hreserved
  rw [exchangeRateStored_current hstored] at hliquidator hincentive
  have htaken := seizeVouchers_vouchersOf h₂ c who
  have hgiven := addVouchers_vouchersOf h₃ c who
  have hkept := addVouchers_vouchersOf h₄ c who
  have hmax₃ := addVouchers_max h₃
  have hmax₄ := addVouchers_max h₄
  have hheld : (s.withRewards rewards).vouchersOf c who = s.vouchersOf c who := rfl
  have hrecord : s'.accountEarned c who = s.accountEarned c who := by
    obtain ⟨-, rfl⟩ := seizeVouchers_ok h₂
    obtain rfl := addVouchers_ok h₃
    obtain rfl := addVouchers_ok h₄
    rfl
  refine ⟨hrecord, fun hle => hrate.symm ▸ hle, ?_⟩
  by_cases hc : c = asset
  · subst c
    simp only [true_and] at htaken hgiven hkept
    by_cases hinc : who = cfg.incentiveRewardAccountId
    · subst who
      by_cases hprior : s.ratePrior asset cfg.incentiveRewardAccountId = s.currentRate asset
      · exact Or.inr ⟨hmax₄, hprior⟩
      · left
        rw [if_pos rfl] at hkept
        by_cases hliq : cfg.incentiveRewardAccountId = liquidator
        · have hborrower : cfg.incentiveRewardAccountId ≠ borrower := fun heq =>
            hne (heq.symm.trans hliq)
          rw [← hliq] at hliquidator
          have hnothing := hliquidator.resolve_right hprior
          have hreserve : reserved = 0 := hincentive.resolve_right fun hor => by
            rcases hor with ⟨heq, -⟩ | heq
            · exact hborrower heq.symm
            · exact hprior heq
          rw [hnothing, ite_self] at hgiven
          omega
        · rw [if_neg hliq] at hgiven
          rcases hincentive with hzero | ⟨heq, hle⟩ | heq
          · omega
          · rw [if_pos heq.symm] at htaken
            omega
          · exact absurd heq hprior
    · rw [if_neg hinc] at hkept
      by_cases hliq : who = liquidator
      · subst who
        rcases hliquidator with hnothing | hprior
        · left
          rw [hnothing, ite_self] at hgiven
          omega
        · exact Or.inr ⟨by omega, hprior⟩
      · left
        rw [if_neg hliq] at hgiven
        omega
  · left
    simp only [hc, false_and, if_false] at htaken hgiven hkept
    omega

theorem Recorded.holds {gain : ℕ} (hs : Recorded s asset who gain)
    (h : RecordStays s s₁ asset who) (hheld : s₁.vouchersOf asset who = s.vouchersOf asset who)
    (h' : RecordStays s₁ s' asset who) (hrate : s'.currentRate asset = s₁.currentRate asset) :
    Recorded s' asset who (gain + voucherGain s s' s' asset who) := by
  have hend := (hs.stays h).stays h'
  rw [hrate, Nat.sub_self, Nat.mul_zero, Nat.add_zero, hheld] at hend
  rw [voucherGain, Nat.sub_self, Nat.mul_zero, Nat.add_zero, hrate]
  exact hend

theorem liquidate_recorded {x borrower : AccountId} {collateral c : CurrencyId} {n gain : ℕ}
    (hx : x ≠ cfg.accountId)
    (hreceived : ReceivedAtRate s (.liquidateBorrow x borrower asset n collateral))
    (h : liquidateBorrow s x borrower asset n collateral = .ok s') (hs : Recorded s c who gain) :
    Recorded s' c who (gain + voucherGain s s' s' c who) := by
  have hgrows := liquidate_grows hx h c
  obtain ⟨s₁, s₂, s₃, market, amount, h₁, h₂, hne, hmarket, -, hamount, h₃, h₄⟩ :=
    liquidateBorrow_ok h
  have hpool := congrFun (seizeCollateral_poolOf h₄) c
  have hheld : SameVouchers s s₃ :=
    ((accrueInterest_vouchers h₁).trans (accrueInterest_vouchers h₂)).trans
      (repayForBorrower_vouchers h₃)
  have hrecord : s₃.accountEarned = s.accountEarned := by
    have hfirst := (accrueInterest_frame h₁).accountEarned
    have hsecond := (accrueInterest_frame h₂).accountEarned
    obtain ⟨_, s₄, borrows, ⟨rewards, rfl, -⟩, h₅, -, -, -, rfl⟩ := repayForBorrower_ok h₃
    have hpaid := transfer_earned h₅
    exact hpaid.trans (hsecond.trans hfirst)
  have hrate : s'.currentRate c = s₃.currentRate c := currentRate_of_poolOf hpool
  have hfirst : RecordStays s s₃ c who :=
    stays_of_same hrecord hheld.deposits (hgrows.currentRate.trans hrate.le)
  have hsame : s₃.vouchersOf c who = s.vouchersOf c who := by
    unfold State.vouchersOf State.depositsOf
    rw [hheld.deposits]
  apply hs.holds hfirst hsame _ hrate
  apply seizeCollateral_stays hne _ h₄
  intro rate seized reserved hstored hseized hreserved
  have hrate : s.seizureRate x borrower asset n collateral = .ok rate := by
    simp only [State.seizureRate, bind_eq_ok]
    exact ⟨s₁, h₁, s₂, h₂, s₃, h₃, hstored⟩
  have htaken : s.seizedVouchers x borrower asset n collateral = .ok (seized, reserved) := by
    simp only [State.seizedVouchers, bind_eq_ok, pure_eq_ok]
    exact ⟨s₁, h₁, s₂, h₂, market, hmarket, amount, hamount, s₃, h₃, rate, hstored, seized, hseized,
      reserved, hreserved, rfl⟩
  have hreceived := hreceived rate seized reserved hrate htaken
  have hprior : ∀ y, s₃.ratePrior collateral y = s.ratePrior collateral y := by
    intro y
    rw [State.ratePrior, hrecord]
    rfl
  rw [hprior, hprior]
  exact hreceived

theorem doCollateralAsset_vouchersOf {enable : Bool} (h : doCollateralAsset s x c enable = .ok s') :
    s'.vouchersOf asset who = s.vouchersOf asset who := by
  obtain ⟨-, rfl, -⟩ := doCollateralAsset_ok h
  unfold State.vouchersOf
  by_cases heq : asset = c ∧ who = x
  · obtain ⟨rfl, rfl⟩ := heq
    rw [depositsOf_setDeposits_self]
    rfl
  · rw [depositsOf_setDeposits_ne _ (Classical.not_and_iff_not_or_not.mp heq)]

theorem doCollateralAsset_stays {enable : Bool}
    (h : doCollateralAsset s x c enable = .ok s') : RecordStays s s' asset who := by
  have hheld : s'.vouchersOf asset who = s.vouchersOf asset who := doCollateralAsset_vouchersOf h
  obtain ⟨-, rfl, -⟩ := doCollateralAsset_ok h
  exact ⟨rfl, fun hle => hle, Or.inl hheld.le⟩

theorem reduceIncentiveReserves_stays {receiver : AccountId}
    (hpays : PaymentsFollow s (.reduceIncentiveReserves receiver asset n))
    (hempty : ∀ rate v, s.exchangeRateStored asset = .ok rate →
      calcCollateralAmount n rate = .ok v → v = s.totalSupply asset →
        s.ratePrior asset who ≤ minExchangeRate.inner)
    (h : reduceIncentiveReserves s receiver asset n = .ok s') : RecordStays s s' c who := by
  obtain ⟨rate, v, paid, s₁, hrate, hv, h₁, h₂⟩ := reduceIncentiveReserves_ok h
  have hdust := hpays.2 rate v paid hrate hv (redeemVoucher_paid h₁ hrate)
  have hstays : RecordStays s s₁ c who :=
    redeemVoucher_stays h₁ hdust fun hall _ => hempty rate v hrate hv hall
  have hrate₂ : s₁.currentRate c ≤ s'.currentRate c := (transfer_grows h₂ hpays.1 c).currentRate
  refine ⟨?_, fun hle => (hstays.rate hle).trans hrate₂, ?_⟩
  · rw [transfer_earned h₂]
    exact hstays.record
  · have hheld : s'.vouchersOf c who = s₁.vouchersOf c who := by
      unfold State.vouchersOf State.depositsOf
      rw [(transfer_vouchers h₂).deposits]
    rw [hheld]
    exact hstays.vouchers

/-! The claim over all runs. -/

/-- A market empties only at the minimum rate or, where no record is taken, with no record above
it. -/
def EmptiesAtMinimum (s : State cfg) : Call AccountId → Prop
  | .redeem _ asset n | .doRedeem _ asset n => ∀ rate v, s.accruedRate asset = .ok rate →
    calcCollateralAmount n rate = .ok v → v = s.totalSupply asset → rate = minExchangeRate
  | .redeemAll who asset => ∀ rate, s.accruedRate asset = .ok rate →
    s.vouchersOf asset who = s.totalSupply asset → rate = minExchangeRate
  | .reduceIncentiveReserves _ asset n => ∀ rate v, s.exchangeRateStored asset = .ok rate →
    calcCollateralAmount n rate = .ok v → v = s.totalSupply asset →
      ∀ who, s.ratePrior asset who ≤ minExchangeRate.inner
  | _ => True

structure RecordsFollow (s : State cfg) (a : Call AccountId) : Prop where
  payments : PaymentsFollow s a
  received : ReceivedAtRate s a
  emptied : EmptiesAtMinimum s a

/-- The storage at whose rate a call from `s` to `s'` changes vouchers: after the interest where
it deposits or withdraws. -/
def State.converting (s s' : State cfg) : Call AccountId → State cfg
  | .mint _ asset _ | .redeem _ asset _ | .doRedeem _ asset _ | .redeemAll _ asset =>
    (s.accrueInterest asset).toOption.getD s
  | .reduceIncentiveReserves .. => s
  | _ => s'

/-- What the vouchers an account held gained over a run while the rate rose, in units of
`1 / accuracy`. -/
def heldGain (asset : CurrencyId) (who : AccountId) : State cfg → List (Call AccountId) → ℕ
  | _, [] => 0
  | s, a :: as =>
    (match step s a with
      | .ok s' => voucherGain s (s.converting s' a) s' asset who
      | .error _ => 0) + heldGain asset who (exec step s a) as

omit [DecidableEq AccountId] in
theorem converting_still {a : Call AccountId} (ha : a.movesVouchers = false) :
    s.converting s' a = s' := by
  cases a with
  | mint => simp [Call.movesVouchers] at ha
  | redeem => simp [Call.movesVouchers] at ha
  | doRedeem => simp [Call.movesVouchers] at ha
  | redeemAll => simp [Call.movesVouchers] at ha
  | reduceIncentiveReserves => simp [Call.movesVouchers] at ha
  | _ => rfl

omit [DecidableEq AccountId] in
theorem converting_accrued (h : s.accrueInterest asset = .ok s₁) :
    (s.accrueInterest asset).toOption.getD s = s₁ := by
  rw [h]
  rfl

theorem redeem_recorded {n paid gain : ℕ}
    (hdust : ∀ m, s.payout asset (calcCollateralAmount n) = .ok m →
      cfg.assets.NoDust s.ledger asset cfg.accountId m)
    (hempty : ∀ rate v, s.accruedRate asset = .ok rate → calcCollateralAmount n rate = .ok v →
      v = s.totalSupply asset → rate = minExchangeRate)
    (h : doRedeem s x asset n = .ok (paid, s')) (hs : Recorded s c who gain) :
    Recorded s' c who
      (gain + voucherGain s ((s.accrueInterest asset).toOption.getD s) s' c who) := by
  obtain ⟨s₁, s₂, rate, v, h₁, hrate, h₂, hv, h₃⟩ := doRedeem_ok h
  have haccrued : s.accruedRate asset = .ok rate := by
    simp only [State.accruedRate, bind_eq_ok]
    exact ⟨s₁, h₁, hrate⟩
  rw [converting_accrued h₁]
  exact redemption_recorded h₁ hrate h₂ hv h₃ hdust (hempty rate v haccrued hv) hs

theorem redeemAll_recorded {paid gain : ℕ}
    (hdust : ∀ m, s.payout asset (fun _ => pure (s.depositsOf asset x).voucherBalance) = .ok m →
      cfg.assets.NoDust s.ledger asset cfg.accountId m)
    (hempty : ∀ rate, s.accruedRate asset = .ok rate →
      s.vouchersOf asset x = s.totalSupply asset → rate = minExchangeRate)
    (h : doRedeemAll s x asset = .ok (paid, s')) (hs : Recorded s c who gain) :
    Recorded s' c who
      (gain + voucherGain s ((s.accrueInterest asset).toOption.getD s) s' c who) := by
  obtain ⟨s₁, s₂, rate, h₁, hrate, h₂, h₃⟩ := doRedeemAll_ok h
  have haccrued : s.accruedRate asset = .ok rate := by
    simp only [State.accruedRate, bind_eq_ok]
    exact ⟨s₁, h₁, hrate⟩
  have hall : (s₂.depositsOf asset x).voucherBalance = s.vouchersOf asset x := by
    rw [updateEarnedStored_total h₂]
    show ((((s₁.accountDeposits asset).get x).getD default).voucherBalance) = _
    rw [(accrueInterest_frame h₁).accountDeposits]
    rfl
  rw [hall] at h₃
  rw [converting_accrued h₁]
  exact redemption_recorded h₁ hrate h₂ rfl h₃ hdust (hempty rate haccrued) hs

theorem step_recorded {a : Call AccountId} {gain : ℕ} (ha : RecordsFollow s a)
    (h : step s a = .ok s') (hs : Recorded s asset who gain) :
    Recorded s' asset who (gain + voucherGain s (s.converting s' a) s' asset who) := by
  have hsteady : RecordStays s s' asset who → s'.vouchersOf asset who = s.vouchersOf asset who →
      Recorded s' asset who (gain + voucherGain s s' s' asset who) := by
    intro hstays hheld
    exact hs.holds hstays hheld ⟨rfl, fun hle => hle, Or.inl (Nat.le_refl _)⟩ rfl
  have hflag : ∀ x c enable, doCollateralAsset s x c enable = .ok s' →
      Recorded s' asset who (gain + voucherGain s s' s' asset who) := by
    intro x c enable h
    exact hsteady (doCollateralAsset_stays h) (doCollateralAsset_vouchersOf h)
  cases hmoves : a.movesVouchers with
  | false =>
    have hdeposits := (step_sameVouchers hmoves h).deposits
    have hleaves : s'.accountEarned = s.accountEarned ∧ s.currentRate asset ≤ s'.currentRate asset :=
      step_leaves hmoves ha.payments h
    obtain ⟨hrecord, hrate⟩ := hleaves
    have hheld : s'.vouchersOf asset who = s.vouchersOf asset who := by
      unfold State.vouchersOf State.depositsOf
      rw [hdeposits]
    rw [converting_still hmoves]
    exact hsteady (stays_of_same hrecord hdeposits hrate) hheld
  | true =>
    cases a with
    | mint x c n =>
      obtain ⟨-, s₁, -, -, -, -, -, h₁, -⟩ := doMint_ok h
      have hminted := mint_recorded ha.payments h₁ h hs
      rw [State.converting, converting_accrued h₁]
      exact hminted
    | redeem x c n =>
      simp only [step, bind_eq_ok, pure_eq_ok] at h
      obtain ⟨_, -, ⟨paid, t⟩, h, rfl⟩ := h
      exact redeem_recorded ha.payments ha.emptied h hs
    | doRedeem x c n =>
      simp only [step, bind_eq_ok, pure_eq_ok] at h
      obtain ⟨⟨paid, t⟩, h, rfl⟩ := h
      exact redeem_recorded ha.payments ha.emptied h hs
    | redeemAll x c =>
      simp only [step, bind_eq_ok, pure_eq_ok] at h
      obtain ⟨⟨paid, t⟩, h, rfl⟩ := h
      exact redeemAll_recorded ha.payments ha.emptied h hs
    | reduceIncentiveReserves receiver c n =>
      have hempty := ha.emptied
      have hend := hs.stays (reduceIncentiveReserves_stays ha.payments
        (fun rate v hrate hv hall => hempty rate v hrate hv hall who) h)
      rw [State.converting, voucherGain, Nat.sub_self, Nat.mul_zero, Nat.zero_add]
      exact hend
    | collateralAsset x c enable => exact hflag x c enable (collateralAsset_ok h).2
    | doCollateralAsset x c enable => exact hflag x c enable h
    | liquidateBorrow x borrower c n collateral =>
      exact liquidate_recorded ha.payments ha.received h hs
    | transferLendToken token source dest n =>
      have hrate : s'.currentRate asset = s.currentRate asset :=
        currentRate_of_poolOf (congrFun (transferLendToken_poolOf h) asset)
      have hrefl : RecordStays s s asset who := ⟨rfl, fun hle => hle, Or.inl (Nat.le_refl _)⟩
      exact hs.holds hrefl rfl (transferLendToken_stays ha.received h) hrate
    | _ => contradiction

theorem recorded_genesis (ledger : cfg.assets.Ledger) (prices : CurrencyId → Option FixedU128)
    (now block : ℕ) : Recorded (genesis cfg ledger prices now block) asset who 0 := by
  refine ⟨Nat.zero_le _, Nat.zero_le _, Nat.zero_le _, ?_⟩
  have hnothing : (genesis cfg ledger prices now block).vouchersOf asset who = 0 := rfl
  rw [hnothing, owed, Nat.zero_mul]
  exact Nat.le_refl _

theorem run_recorded {as : List (Call AccountId)} {gain : ℕ} (hs : Recorded s asset who gain)
    (has : Meets step RecordsFollow s as) :
    Recorded (run step s as) asset who (gain + heldGain asset who s as) := by
  induction as generalizing s gain with
  | nil => exact hs
  | cons a as ih =>
    rw [run_cons, heldGain, ← Nat.add_assoc]
    apply ih _ has.2
    cases h : step s a with
    | ok s' =>
      rw [exec_ok h]
      exact step_recorded (has.1 s' h) h hs
    | error e =>
      have hsame : exec step s a = s := by simp only [exec, h]
      rw [hsame]
      exact hs

/-- Along every run whose payments the ledger follows, whose vouchers are handed over at the
rate of the recipient's record and whose markets empty at the minimum rate, no record is above
the current rate, every record can be brought up to date, before interest and after it, and no
account is recorded to have earned more than the vouchers it held gained. -/
theorem earned_never_ahead (ledger : cfg.assets.Ledger) (prices : CurrencyId → Option FixedU128)
    (now block : ℕ) (as : List (Call AccountId))
    (has : Meets step RecordsFollow (genesis cfg ledger prices now block) as) :
    let s := run step (genesis cfg ledger prices now block) as
    ∀ asset who,
      (∀ rate, s.exchangeRateStored asset = .ok rate →
        (s.accountEarned asset who).exchangeRatePrior.inner ≤ rate.inner) ∧
      (∀ s₁ rate, s₁ = s ∨ s.accrueInterest asset = .ok s₁ →
        s₁.exchangeRateStored asset = .ok rate →
          ∃ s₂, s₁.updateEarnedStored who asset rate = .ok s₂) ∧
      FixedU128.accuracy * (s.accountEarned asset who).totalEarnedPrior ≤
        heldGain asset who (genesis cfg ledger prices now block) as := by
  intro s asset who
  have hs : Recorded s asset who
      (0 + heldGain asset who (genesis cfg ledger prices now block) as) :=
    run_recorded (recorded_genesis ledger prices now block) has
  rw [Nat.zero_add] at hs
  refine ⟨?_, ?_, ?_⟩
  · intro rate hrate
    rw [exchangeRateStored_current hrate]
    exact hs.rate
  · intro s₁ rate hs₁ hrate
    rcases hs₁ with rfl | h₁
    · exact hs.update_succeeds hrate
    · exact (hs.stays (accrueInterest_stays h₁)).update_succeeds hrate
  · exact (Nat.le_add_right _ _).trans hs.gain

end Records

namespace Sample

def withdrawal : Call ℕ := .redeem 1 dot 100

def withdrawn : List (Call ℕ) := supplied ++ [withdrawal]

theorem withdrawal_follows : RecordsFollow (run step start supplied) withdrawal := by
  have hpayout : (run step start supplied).payout dot (calcCollateralAmount 100) = .ok 100 := by
    decide +kernel
  have hcash : config.assets.NoDust (run step start supplied).ledger dot config.accountId 100 := by
    decide +kernel
  have hrate : (run step start supplied).accruedRate dot = .ok ⟨40000000000000000⟩ := by
    decide +kernel
  have hsupply : (run step start supplied).totalSupply dot = 500000 := by decide +kernel
  have hvouchers : calcCollateralAmount 100 ⟨40000000000000000⟩ = .ok 2500 := by decide +kernel
  generalize run step start supplied = s at *
  refine ⟨?_, trivial, ?_⟩
  · intro paid hpaid
    rw [hpayout] at hpaid
    cases hpaid
    exact hcash
  · intro rate v hrate' hv hall
    rw [hrate] at hrate'
    cases hrate'
    rw [hvouchers] at hv
    cases hv
    omega

end Sample

theorem earned_never_ahead_sample :
    let s := run step Sample.start Sample.withdrawn
    (s.accountEarned Sample.dot 1).totalEarnedPrior = 10000 ∧
      FixedU128.accuracy * 10000 ≤ heldGain Sample.dot 1 Sample.start Sample.withdrawn := by
  have hsupplied : ∀ a ∈ Sample.supplied, ∀ s : State Sample.config, RecordsFollow s a := by
    refine List.forall_mem_cons.mpr ⟨fun _ => ⟨trivial, trivial, trivial⟩, ?_⟩
    refine List.forall_mem_cons.mpr ⟨fun _ => ⟨trivial, trivial, trivial⟩, ?_⟩
    refine List.forall_mem_cons.mpr ⟨fun _ => ⟨trivial, trivial, trivial⟩, ?_⟩
    refine List.forall_mem_cons.mpr ⟨fun _ => ⟨(by decide : (1 : ℕ) ≠ 100), trivial, trivial⟩, ?_⟩
    refine List.forall_mem_cons.mpr ⟨fun _ => ⟨(by decide : (2 : ℕ) ≠ 100), trivial, trivial⟩, ?_⟩
    exact List.forall_mem_nil _
  have hlast : Meets step RecordsFollow (run step Sample.start Sample.supplied)
      [Sample.withdrawal] := ⟨fun _ _ => Sample.withdrawal_follows, trivial⟩
  have hmeets := meets_append (meets_of_forall _ hsupplied Sample.start) hlast
  have hearned : ((run step Sample.start Sample.withdrawn).accountEarned
      Sample.dot 1).totalEarnedPrior = 10000 := by decide +kernel
  have hheld := (@earned_never_ahead ℕ Sample.config _ Sample.holders (fun _ => some .one) 1 1 _
    hmeets Sample.dot 1).2.2
  refine ⟨hearned, ?_⟩
  rw [← hearned]
  exact hheld

/-- The market empties at 0.04, falls back to 0.02 and locks its last supplier out; vouchers that
were handed to account 3 earn it 10000 although the rate did not rise while it held them. -/
theorem earned_runs_ahead :
    let s := run step Sample.start Sample.supplied
    let s' := exec step s (.redeemAll 1 Sample.dot)
    let handover := [.transferLendToken (.lend 0) 1 3 250000, .redeem 3 Sample.dot 100]
    (s'.exchangeRateStored Sample.dot = .ok ⟨20000000000000000⟩ ∧
        (s'.accountEarned Sample.dot 1).exchangeRatePrior.inner = 40000000000000000 ∧
        (s'.updateEarnedStored 1 Sample.dot ⟨20000000000000000⟩).toBool = false ∧
        (step s' (.mint 1 Sample.dot 100)).toBool = false) ∧
      ((run step s handover).accountEarned Sample.dot 3).totalEarnedPrior = 10000 ∧
      heldGain Sample.dot 3 Sample.start (Sample.supplied ++ handover) = 0 := by
  refine ⟨⟨?_, ?_, ?_, ?_⟩, ?_, ?_⟩
  · decide +kernel
  · decide +kernel
  · decide +kernel
  · decide +kernel
  · decide +kernel
  · decide +kernel

end Bifrost.LendMarket
