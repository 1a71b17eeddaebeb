import Bifrost.FlexibleFee.Pallet

/-!
# The settlement of a fee

What was withdrawn is parted into the refund and the fee, whatever the prices; both conversions are
the one of the withdrawal for a smaller amount. What is left to go wrong are the two deposits: the
payer may have no account any more, and the treasury none yet in the currency.
-/

namespace Bifrost.FlexibleFee

open Result Prices
set_option autoImplicit false

variable {AccountId Call : Type} {cfg : Config AccountId Call}

namespace PaymentInfo

def currency : PaymentInfo → CurrencyId
  | .native _ => bnc
  | .nonNative _ currency _ _ => currency

def amount : PaymentInfo → ℕ
  | .native amount => amount
  | .nonNative amount _ _ _ => amount

end PaymentInfo

/-- An amount of BNC in the currency of a payment. -/
def State.inCurrency (s : State cfg) (n : ℕ) : PaymentInfo → Except Fault ℕ
  | .native _ => pure n
  | .nonNative _ currency bncPrice currencyPrice => s.converted currency bncPrice currencyPrice n

/-- The settlement goes through, and the payer and the treasury together are given what was paid. -/
def Settles (s : State cfg) (who : AccountId) (correctedFee tip : ℕ) (paid : PaymentInfo) : Prop :=
  ∃ s' L refund charged, s.correctAndDepositFee who correctedFee tip (some paid) = .ok s' ∧
    refund + charged = paid.amount ∧
    cfg.currency.deposit s.ledger paid.currency who refund = .ok L ∧
    cfg.currency.deposit L paid.currency cfg.treasuryAccount charged = .ok s'.ledger

variable {s s' s₁ : State cfg} {who : AccountId} {fee corrected tip : ℕ} {call : Call}
  {paid : PaymentInfo}

theorem chargeExtraFee_prices {extraCurrency : CurrencyId} {extraAmount : ℕ} {receiver : AccountId}
    (h : s.chargeExtraFee who extraCurrency extraAmount receiver = .ok s') :
    s'.prices = s.prices := by
  simp only [State.chargeExtraFee, bind_eq_ok] at h
  obtain ⟨⟨currency, amount⟩, -, h⟩ := h
  split at h
  · simp only [bind_eq_ok, pure_eq_ok] at h
    obtain ⟨_, -, rfl⟩ := h
    rfl
  · simp only [bind_eq_ok, pure_eq_ok] at h
    obtain ⟨_, -, _, -, rfl⟩ := h
    rfl

theorem chargeExtraFees_prices (h : s.chargeExtraFees who call = .ok s') :
    s'.prices = s.prices := by
  refine foldlM_invariant (I := fun t : State cfg => t.prices = s.prices) ?_ rfl h
  rintro ⟨name, currency, amount, receiver⟩ _ t t' ht hstep
  simp only at hstep
  split at hstep
  · rw [mapErr_eq_ok] at hstep
    exact (chargeExtraFee_prices hstep).trans ht
  · rw [pure_eq_ok] at hstep
    rw [← hstep]
    exact ht

/-- What the withdrawal takes is the fee in the currency of the payment, at its prices. -/
theorem firstFeeCurrency_amount {list : List CurrencyId} {currency : CurrencyId} {amount : ℕ}
    {priceIn priceOut : FixedU128}
    (h : s.firstFeeCurrency who fee list = .ok (currency, amount, priceIn, priceOut)) :
    if currency = bnc then amount = fee
    else s.prices.getAmountByPrices bnc fee priceIn currency priceOut = .ok amount := by
  induction list with
  | nil => cases h
  | cons c list ih =>
    unfold State.firstFeeCurrency at h
    split at h
    · rename_i hc
      split at h
      · simp only [pure_eq_ok, Prod.mk.injEq] at h
        obtain ⟨rfl, rfl, -, -⟩ := h
        rw [if_pos hc]
      · exact ih h
    · rename_i hc
      simp only [bind_eq_ok, mapErr_eq_ok] at h
      obtain ⟨⟨out, priceIn', priceOut'⟩, horacle, h⟩ := h
      split at h
      · simp only [pure_eq_ok, Prod.mk.injEq] at h
        obtain ⟨rfl, rfl, rfl, rfl⟩ := h
        rw [if_neg hc]
        simp only [Prices.State.getOracleAmount, bind_eq_ok, okOr_eq_ok, if_neg (Ne.symm hc),
          pure_eq_ok, Prod.mk.injEq] at horacle
        obtain ⟨_, -, _, -, _, hamount, rfl, rfl, rfl⟩ := horacle
        exact hamount
      · exact ih h

theorem withdrawFee_ok (h : s.withdrawFee who call fee = .ok (some paid, s')) :
    s'.prices = s.prices ∧ s.inCurrency fee paid = .ok paid.amount ∧
      ∃ L, cfg.currency.withdraw s.ledger paid.currency who paid.amount = .ok L := by
  unfold State.withdrawFee at h
  split at h
  · simp only [pure_eq_ok, Prod.mk.injEq] at h
    cases h.1
  · simp only [bind_eq_ok, mapErr_eq_ok] at h
    obtain ⟨⟨currency, amount, bncPrice, currencyPrice⟩, hamount, L, hwithdraw, t, hextra, h⟩ := h
    have hprices := chargeExtraFees_prices hextra
    have hfee := firstFeeCurrency_amount hamount
    split at h
    · rename_i hbnc
      simp only [pure_eq_ok, Prod.mk.injEq, Option.some.injEq] at h
      obtain ⟨rfl, rfl⟩ := h
      rw [if_pos hbnc] at hfee
      refine ⟨hprices, ?_, L, ?_⟩
      · rw [← hfee]
        rfl
      · rwa [hbnc] at hwithdraw
    · rename_i hne
      simp only [pure_eq_ok, Prod.mk.injEq, Option.some.injEq] at h
      obtain ⟨rfl, rfl⟩ := h
      rw [if_neg hne] at hfee
      exact ⟨hprices, mapErr_eq_ok.mpr hfee, L, hwithdraw⟩

theorem inCurrency_congr {n : ℕ}
    (h : ∀ c, s₁.prices.getAssetMantissa c = s.prices.getAssetMantissa c) :
    s₁.inCurrency n paid = s.inCurrency n paid := by
  cases paid with
  | native amount => rfl
  | nonNative amount currency bncPrice currencyPrice =>
    simp only [State.inCurrency, State.converted, Prices.State.getAmountByPrices, h]

theorem inCurrency_mono {m n out : ℕ} (hle : m ≤ n) (h : s.inCurrency n paid = .ok out) :
    ∃ out', s.inCurrency m paid = .ok out' ∧ out' ≤ out := by
  cases paid with
  | native amount =>
    obtain rfl := Except.ok.inj h
    exact ⟨m, rfl, hle⟩
  | nonNative amount currency bncPrice currencyPrice =>
    obtain ⟨out', hout', hle'⟩ := getAmountByPrices_mono hle (mapErr_eq_ok.mp h)
    exact ⟨out', mapErr_eq_ok.mpr hout', hle'⟩

theorem settlement_eq {fee' tip' : ℕ} (hfee : s.inCurrency corrected paid = .ok fee')
    (htip : s.inCurrency tip paid = .ok tip') :
    s.settlement corrected tip paid =
      .ok (paid.currency, paid.amount - fee', fee' - tip', tip') := by
  cases paid with
  | native amount =>
    obtain rfl := Except.ok.inj hfee
    obtain rfl := Except.ok.inj htip
    rfl
  | nonNative amount currency bncPrice currencyPrice =>
    have hfee : s.converted currency bncPrice currencyPrice corrected = .ok fee' := hfee
    have htip : s.converted currency bncPrice currencyPrice tip = .ok tip' := htip
    simp only [State.settlement, hfee, htip]
    rfl

theorem settles_of_converted {fee' tip' : ℕ} (hfee : s.inCurrency corrected paid = .ok fee')
    (htip : s.inCurrency tip paid = .ok tip') (hle : fee' ≤ paid.amount) (hle' : tip' ≤ fee') :
    Settles s who corrected tip paid ↔ cfg.currency.Receive s.ledger paid.currency who
      cfg.treasuryAccount (paid.amount - fee') fee' := by
  rw [← Deposits.deposits_ok_iff]
  have hcharged : fee' - tip' + tip' = fee' := Nat.sub_add_cancel hle'
  have hok (t : State cfg) : s.correctAndDepositFee who corrected tip (some paid) = .ok t ↔
      ∃ L L', cfg.currency.deposit s.ledger paid.currency who (paid.amount - fee') = .ok L ∧
        cfg.currency.deposit L paid.currency cfg.treasuryAccount fee' = .ok L' ∧
        t = { s with ledger := L' } := by
    simp only [State.correctAndDepositFee, settlement_eq hfee htip, bind_eq_ok, mapErr_eq_ok,
      pure_eq_ok, Except.ok.injEq, exists_eq_left', hcharged]
    constructor
    · rintro ⟨L, hfirst, L', hsecond, rfl⟩
      exact ⟨L, L', hfirst, hsecond, rfl⟩
    · rintro ⟨L, L', hfirst, hsecond, rfl⟩
      exact ⟨L, hfirst, L', hsecond, rfl⟩
  constructor
  · rintro ⟨t, L, refund, charged, h, -, -, -⟩
    obtain ⟨L₁, L₂, hfirst, hsecond, -⟩ := (hok t).mp h
    exact ⟨L₁, L₂, hfirst, hsecond⟩
  · rintro ⟨L₁, L₂, hfirst, hsecond⟩
    exact ⟨{ s with ledger := L₂ }, L₁, paid.amount - fee', fee',
      (hok _).mpr ⟨L₁, L₂, hfirst, hsecond, rfl⟩, Nat.sub_add_cancel hle, hfirst, hsecond⟩

/-- A fee that was withdrawn is settled, after any call, exactly if the payer can be given the
refund and the treasury the fee. -/
theorem settles_iff (h : s.withdrawFee who call fee = .ok (some paid, s'))
    (hcall : ∀ c, s₁.prices.getAssetMantissa c = s'.prices.getAssetMantissa c)
    (hcorrected : corrected ≤ fee) (htip : tip ≤ corrected) :
    Settles s₁ who corrected tip paid ↔ ∀ charged, s'.inCurrency corrected paid = .ok charged →
      cfg.currency.Receive s₁.ledger paid.currency who cfg.treasuryAccount
        (paid.amount - charged) charged := by
  obtain ⟨hprices, hamount, -⟩ := withdrawFee_ok h
  have hsame : s'.inCurrency fee paid = .ok paid.amount := by
    rw [inCurrency_congr (s := s) (fun c => by rw [hprices]), hamount]
  obtain ⟨fee', hfee', hle⟩ := inCurrency_mono hcorrected hsame
  obtain ⟨tip', htip', hle'⟩ := inCurrency_mono htip hfee'
  rw [settles_of_converted (inCurrency_congr hcall ▸ hfee') (inCurrency_congr hcall ▸ htip') hle
    hle']
  constructor
  · intro hreceive charged hcharged
    obtain rfl : fee' = charged := Except.ok.inj (hfee'.symm.trans hcharged)
    exact hreceive
  · intro hreceive
    exact hreceive fee' hfee'

namespace Sample

def config : Config ℕ Unit where
  currency := Tokens.deposits ℕ fun _ => 10
  encode := fun _ => []
  treasuryAccount := 20
  AssetId := Unit
  tryConvertFrom := fun _ => none
  getAmountInByPath := fun _ _ _ => none
  innerSwapAssetsForExactAssets := fun _ _ _ _ _ _ => none

/-- BNC at 1 and KSM at 4; account 1 has 100 BNC and account 2 has 1000 KSM. -/
def start : State config where
  universalFeeCurrencyOrderList := [bnc, .token .KSM]
  userDefaultFeeCurrency := fun _ => none
  extraFeeByCall := []
  prices :=
    { emergencyPrice := fun _ => none
      source := fun c => if c = bnc then some .one else some ⟨4 * FixedU128.accuracy⟩
      metadataDecimals := fun _ => none }
  ledger :=
    { accounts := fun c x =>
        if c = bnc ∧ x = 1 then some 100
        else if c = .token .KSM ∧ x = 2 then some 1000
        else if x = 20 then some 50
        else none
      issuance := fun _ => 100000 }

def paidInBnc : State config :=
  { start with
    ledger := ⟨start.ledger.setAccount bnc 1 none, Function.update start.ledger.issuance bnc 99900⟩ }

def paidInKsm : State config :=
  { start with
    ledger := ⟨start.ledger.setAccount (.token .KSM) 2 (some 900),
      Function.update start.ledger.issuance (.token .KSM) 99900⟩ }

end Sample

/-- A fee of 400 BNC is taken as 100 KSM, and 90 of them are the corrected fee. -/
theorem settles_sample :
    Settles Sample.paidInKsm 2 361 40
        (.nonNative 100 (.token .KSM) .one ⟨4 * FixedU128.accuracy⟩) ↔
      ∀ charged, Sample.paidInKsm.inCurrency 361
          (.nonNative 100 (.token .KSM) .one ⟨4 * FixedU128.accuracy⟩) = .ok charged →
        Sample.config.currency.Receive Sample.paidInKsm.ledger (.token .KSM) 2 20
          (100 - charged) charged :=
  @settles_iff ℕ Unit Sample.config Sample.start Sample.paidInKsm Sample.paidInKsm 2 400 361 40 ()
    _ rfl (fun _ => rfl) (by decide) (by decide)

/-- The fee takes all that the payer has, and five less would have been enough. -/
theorem emptied_payer_unsettled :
    Sample.start.withdrawFee 1 () 100 = .ok (some (.native 100), Sample.paidInBnc) ∧
      ¬Settles Sample.paidInBnc 1 95 0 (.native 100) := by
  refine ⟨rfl, ?_⟩
  rintro ⟨s', L, refund, charged, h, -⟩
  have hfails : Sample.paidInBnc.correctAndDepositFee 1 95 0 (some (.native 100)) =
      .error .payment := rfl
  rw [hfails] at h
  cases h

end Bifrost.FlexibleFee
