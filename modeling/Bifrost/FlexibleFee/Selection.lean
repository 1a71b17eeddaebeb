import Bifrost.FlexibleFee.Settlement

/-!
# The choice of the fee currency

A fee is to be taken in the first currency of the payer's list that has a price and covers it. The
loop passes over a currency that does not cover the fee, but gives up at one that does not convert,
so the choice is the meant one only where no such currency stands before the first that can pay.
-/

namespace Bifrost.FlexibleFee

open Result Prices
set_option autoImplicit false

def vbnc : CurrencyId := .vToken .BNC

inductive SetterError where
  | currencyNotSupport
deriving DecidableEq

variable {AccountId Call : Type} {cfg : Config AccountId Call}

namespace State

variable (s : State cfg)

def setUserDefaultFeeCurrency [DecidableEq AccountId] (allowVBNCAsFee : Bool) (who : AccountId)
    (currency : Option CurrencyId) : Except SetterError (State cfg) :=
  match currency with
  | some feeCurrency => do
    if allowVBNCAsFee then pure ⟨⟩ else ensure (feeCurrency ≠ vbnc) .currencyNotSupport
    pure { s with
      userDefaultFeeCurrency := Function.update s.userDefaultFeeCurrency who (some feeCurrency) }
  | none =>
    pure { s with userDefaultFeeCurrency := Function.update s.userDefaultFeeCurrency who none }

def canWithdrawFee (who : AccountId) (_call : Call) (fee : ℕ) : Except Fault Unit :=
  if fee = 0 then pure ()
  else do
    let _ ← mapErr (s.getFeeCurrencyAndFeeAmount who fee)
      fun
        | .panic => Fault.panic
        | _ => .payment
    pure ()

/-! What the choice is for. -/

/-- The default first, then the list without it, and BNC where there is neither. -/
def orderedList (who : AccountId) : List CurrencyId :=
  let list := match s.userDefaultFeeCurrency who with
    | some currency => currency :: s.universalFeeCurrencyOrderList.filter (· ≠ currency)
    | none => s.universalFeeCurrencyOrderList
  if list.isEmpty then [bnc] else list

/-- The fee in a currency with both prices, where it converts. -/
def feeIn (fee : ℕ) (currency : CurrencyId) : Option (ℕ × FixedU128 × FixedU128) :=
  if currency = bnc then some (fee, .one, .one)
  else (s.prices.getOracleAmount bnc fee currency).toOption

def covers (who : AccountId) (currency : CurrencyId) (amount : ℕ) : Bool :=
  if currency = bnc then cfg.currency.canWithdraw s.ledger currency who amount
  else (cfg.currency.ensureCanWithdraw s.ledger currency who amount).isOk

/-- What is to be charged in a currency, where it pays the fee. -/
def payment (who : AccountId) (fee : ℕ) (currency : CurrencyId) :
    Option (CurrencyId × ℕ × FixedU128 × FixedU128) :=
  (s.feeIn fee currency).bind fun (amount, priceIn, priceOut) =>
    if s.covers who currency amount then some (currency, amount, priceIn, priceOut) else none

/-- If any currency pays, every one before the first that does converts. -/
def Unblocked (who : AccountId) (fee : ℕ) : Prop :=
  (∃ c ∈ s.orderedList who, (s.payment who fee c).isSome) →
    ∀ c ∈ (s.orderedList who).takeWhile fun c => (s.payment who fee c).isNone,
      (s.feeIn fee c).isSome

def NoExtraFee (call : Call) : Prop :=
  ∀ entry ∈ s.extraFeeByCall, entry.1.isPrefixOf (cfg.encode call) = false

/-- The first payment of the list is chosen, and what is accepted is withdrawn. -/
structure Pays (who : AccountId) (fee : ℕ) : Prop where
  first : (s.getFeeCurrencyAndFeeAmount who fee).toOption =
    (s.orderedList who).findSome? (s.payment who fee)
  withdraws : ∀ call, s.canWithdrawFee who call fee = .ok () → s.NoExtraFee call →
    ∃ paid s', s.withdrawFee who call fee = .ok (paid, s')

end State

/-- What the currencies answer is what a withdrawal does. -/
structure DryRuns (M : Deposits AccountId) : Prop where
  can : ∀ {L c x n}, M.canWithdraw L c x n = true → ∃ L', M.withdraw L c x n = .ok L'
  ensure : ∀ {L c x n}, (M.ensureCanWithdraw L c x n).isOk = true →
    ∃ L', M.withdraw L c x n = .ok L'

/-! A list that names an element again. -/

section Again

variable {α β : Type} [DecidableEq α] {f : α → Option β} {p : α → Bool} {a b : α}

theorem findSome?_erase (ha : f a = none) (l : List α) :
    (l.erase a).findSome? f = l.findSome? f := by
  induction l with
  | nil => rfl
  | cons b l ih =>
    by_cases hb : b = a
    · subst b
      simp [ha]
    · simp [hb, List.findSome?_cons, ih]

theorem findSome?_filter_ne (ha : f a = none) (l : List α) :
    (l.filter (· ≠ a)).findSome? f = l.findSome? f := by
  induction l with
  | nil => rfl
  | cons b l ih =>
    by_cases hb : b = a
    · subst b
      simpa [ha] using ih
    · simp [hb, List.findSome?_cons, ← ih]

theorem mem_takeWhile_erase (ha : p a = true) (l : List α) :
    b ∈ a :: (l.erase a).takeWhile p ↔ b ∈ a :: l.takeWhile p := by
  induction l with
  | nil => rfl
  | cons c l ih =>
    by_cases hc : c = a
    · subst c
      simp [ha]
    · by_cases hp : p c = true
      · simp only [List.mem_cons] at ih
        simp only [List.erase_cons, beq_iff_eq, hc, if_false, List.takeWhile_cons, hp, if_true,
          List.mem_cons]
        rw [or_left_comm, ih, or_left_comm]
      · simp [hc, hp]

theorem mem_takeWhile_filter_ne (ha : p a = true) (l : List α) :
    b ∈ a :: (l.filter (· ≠ a)).takeWhile p ↔ b ∈ a :: l.takeWhile p := by
  induction l with
  | nil => rfl
  | cons c l ih =>
    by_cases hc : c = a
    · subst c
      simp only [ne_eq, not_true, decide_false, Bool.false_eq_true, not_false_eq_true,
        List.filter_cons_of_neg, List.takeWhile_cons_of_pos ha, List.mem_cons] at ih ⊢
      rw [ih, or_self_left]
    · by_cases hp : p c = true
      · simp only [ne_eq, List.mem_cons] at ih
        simp only [ne_eq, hc, not_false_eq_true, decide_true, List.filter_cons_of_pos,
          List.takeWhile_cons, hp, if_true, List.mem_cons]
        rw [or_left_comm, ih, or_left_comm]
      · simp [hc, hp]

end Again

variable {s : State cfg} {who : AccountId} {fee : ℕ}

theorem firstFeeCurrency_cons_toOption (c : CurrencyId) (list : List CurrencyId) :
    (s.firstFeeCurrency who fee (c :: list)).toOption =
      match s.feeIn fee c with
      | none => none
      | some _ => (s.payment who fee c).or (s.firstFeeCurrency who fee list).toOption := by
  unfold State.payment State.feeIn State.covers
  rw [State.firstFeeCurrency]
  by_cases hc : c = bnc
  · simp only [hc, if_true, Option.bind_some]
    split
    · rfl
    · rfl
  · simp only [hc, if_false]
    cases horacle : s.prices.getOracleAmount bnc fee c with
    | error e => rfl
    | ok amounts =>
      obtain ⟨amount, priceIn, priceOut⟩ := amounts
      simp only [mapErr, bind, Except.bind, Option.bind_some, Except.toOption]
      by_cases hcan : (cfg.currency.ensureCanWithdraw s.ledger c who amount).isOk = true
      · simp only [hcan, if_true]
        rfl
      · simp only [hcan]
        rfl

theorem payment_eq_none_of_feeIn {c : CurrencyId} (h : s.feeIn fee c = none) :
    s.payment who fee c = none := by
  simp [State.payment, h]

theorem exists_isSome_iff {α β : Type} {f : α → Option β} {l : List α} :
    (∃ a ∈ l, (f a).isSome) ↔ l.findSome? f ≠ none := by
  simp [List.findSome?_eq_none_iff, Option.isSome_iff_ne_none]

theorem firstFeeCurrency_toOption_iff (list : List CurrencyId) :
    (s.firstFeeCurrency who fee list).toOption = list.findSome? (s.payment who fee) ↔
      ((∃ c ∈ list, (s.payment who fee c).isSome) →
        ∀ c ∈ list.takeWhile fun c => (s.payment who fee c).isNone, (s.feeIn fee c).isSome) := by
  induction list with
  | nil => simp [State.firstFeeCurrency, Except.toOption]
  | cons c list ih =>
    rw [firstFeeCurrency_cons_toOption, List.findSome?_cons]
    cases hfee : s.feeIn fee c with
    | none =>
      have hnone : s.payment who fee c = none := payment_eq_none_of_feeIn hfee
      have hblocked : ¬∀ d ∈ (c :: list).takeWhile fun d => (s.payment who fee d).isNone,
          (s.feeIn fee d).isSome := by
        intro h
        have hc := h c (by simp [hnone])
        rw [hfee] at hc
        cases hc
      rw [exists_isSome_iff]
      simp only [hblocked, imp_false, ne_eq, not_not, List.findSome?_cons, hnone]
      exact ⟨Eq.symm, Eq.symm⟩
    | some amounts =>
      cases hpayment : s.payment who fee c with
      | none =>
        have hexists : (∃ d ∈ c :: list, (s.payment who fee d).isSome) ↔
            ∃ d ∈ list, (s.payment who fee d).isSome := by
          simp [hpayment]
        simp only [Option.none_or, ih, hexists, hpayment, List.takeWhile_cons,
          Option.isNone_none, if_true, List.forall_mem_cons, hfee, Option.isSome_some, true_and]
      | some paid => simp [hpayment]

theorem findSome?_getFeeCurrencyList (s : State cfg) (who : AccountId) (fee : ℕ) :
    (s.getFeeCurrencyList who).findSome? (s.payment who fee) =
      (s.orderedList who).findSome? (s.payment who fee) := by
  unfold State.getFeeCurrencyList State.orderedList
  cases s.userDefaultFeeCurrency who with
  | none => rfl
  | some c =>
    simp only [List.isEmpty_cons, Bool.false_eq_true, if_false, List.findSome?_cons]
    cases hpayment : s.payment who fee c with
    | none => rw [findSome?_erase hpayment, findSome?_filter_ne hpayment]
    | some paid => rfl

theorem mem_takeWhile_getFeeCurrencyList (s : State cfg) (who : AccountId) (fee : ℕ)
    (d : CurrencyId) :
    (d ∈ (s.getFeeCurrencyList who).takeWhile fun c => (s.payment who fee c).isNone) ↔
      d ∈ (s.orderedList who).takeWhile fun c => (s.payment who fee c).isNone := by
  unfold State.getFeeCurrencyList State.orderedList
  cases s.userDefaultFeeCurrency who with
  | none => rfl
  | some c =>
    simp only [List.isEmpty_cons, Bool.false_eq_true, if_false, List.takeWhile_cons]
    split
    · rename_i hnone
      let skips : CurrencyId → Bool := fun c => (s.payment who fee c).isNone
      have hskip : skips c = true := hnone
      exact (mem_takeWhile_erase hskip _).trans (mem_takeWhile_filter_ne hskip _).symm
    · rfl

theorem first_iff_unblocked :
    (s.getFeeCurrencyAndFeeAmount who fee).toOption =
      (s.orderedList who).findSome? (s.payment who fee) ↔ s.Unblocked who fee := by
  rw [← findSome?_getFeeCurrencyList, State.getFeeCurrencyAndFeeAmount,
    firstFeeCurrency_toOption_iff, State.Unblocked, exists_isSome_iff, exists_isSome_iff,
    findSome?_getFeeCurrencyList]
  simp only [mem_takeWhile_getFeeCurrencyList]

theorem firstFeeCurrency_covers {list : List CurrencyId} {currency : CurrencyId} {amount : ℕ}
    {priceIn priceOut : FixedU128}
    (h : s.firstFeeCurrency who fee list = .ok (currency, amount, priceIn, priceOut)) :
    s.covers who currency amount = true := by
  induction list with
  | nil => cases h
  | cons c list ih =>
    unfold State.firstFeeCurrency at h
    split at h
    · rename_i hc
      split at h
      · rename_i hcan
        simp only [pure_eq_ok, Prod.mk.injEq] at h
        obtain ⟨rfl, rfl, -, -⟩ := h
        rw [State.covers, if_pos hc]
        exact hcan
      · exact ih h
    · rename_i hc
      simp only [bind_eq_ok, mapErr_eq_ok] at h
      obtain ⟨⟨out, priceIn', priceOut'⟩, -, h⟩ := h
      split at h
      · rename_i hcan
        simp only [pure_eq_ok, Prod.mk.injEq] at h
        obtain ⟨rfl, rfl, -, -⟩ := h
        rw [State.covers, if_neg hc]
        exact hcan
      · exact ih h

theorem covers_withdraws (hdry : DryRuns cfg.currency) {currency : CurrencyId} {amount : ℕ}
    (h : s.covers who currency amount = true) :
    ∃ L, cfg.currency.withdraw s.ledger currency who amount = .ok L := by
  unfold State.covers at h
  split at h
  · exact hdry.can h
  · exact hdry.ensure h

theorem chargeExtraFees_none {call : Call} (h : s.NoExtraFee call) :
    s.chargeExtraFees who call = .ok s := by
  unfold State.chargeExtraFees
  unfold State.NoExtraFee at h
  generalize s.extraFeeByCall = entries at h
  induction entries with
  | nil => rfl
  | cons entry entries ih =>
    obtain ⟨hentry, hrest⟩ := List.forall_mem_cons.mp h
    rw [List.foldlM_cons]
    simp only [hentry, Bool.false_eq_true, if_false]
    exact ih hrest

theorem withdraws_of_accepted (hdry : DryRuns cfg.currency) {call : Call}
    (h : s.canWithdrawFee who call fee = .ok ()) (hextra : s.NoExtraFee call) :
    ∃ paid s', s.withdrawFee who call fee = .ok (paid, s') := by
  unfold State.canWithdrawFee at h
  unfold State.withdrawFee
  by_cases hfee : fee = 0
  · exact ⟨none, s, if_pos hfee⟩
  · rw [if_neg hfee] at h
    simp only [bind_eq_ok, mapErr_eq_ok] at h
    obtain ⟨⟨currency, amount, priceIn, priceOut⟩, hchosen, -⟩ := h
    obtain ⟨L, hwithdraw⟩ := covers_withdraws hdry (firstFeeCurrency_covers hchosen)
    have hcharge : { s with ledger := L }.chargeExtraFees who call = .ok { s with ledger := L } :=
      chargeExtraFees_none hextra
    rw [if_neg hfee]
    simp only [hchosen, hwithdraw, hcharge, mapErr, bind, Except.bind]
    split
    · exact ⟨_, _, rfl⟩
    · exact ⟨_, _, rfl⟩

/-- The meant currency is charged, and what is accepted is withdrawn, exactly where no currency
that does not convert stands before the first that pays. -/
theorem pays_iff_unblocked (hdry : DryRuns cfg.currency) (s : State cfg) (who : AccountId)
    (fee : ℕ) : s.Pays who fee ↔ s.Unblocked who fee := by
  rw [← first_iff_unblocked]
  exact ⟨fun h => h.first, fun h => ⟨h, fun _ => withdraws_of_accepted hdry⟩⟩

namespace Sample

theorem dryRuns : DryRuns config.currency where
  can := by
    intro L c x n h
    have hle : n ≤ L.balance c x := of_decide_eq_true h
    simp only [config, Tokens.deposits, Tokens.Mapped.withdraw]
    split
    · exact ⟨_, rfl⟩
    · rw [if_neg (Nat.not_lt.mpr hle)]
      split
      · exact ⟨_, rfl⟩
      · exact ⟨_, rfl⟩
  ensure := by
    intro L c x n h
    simp only [config, Tokens.deposits] at h
    split at h
    · rename_i hle
      simp only [config, Tokens.deposits, Tokens.Mapped.withdraw]
      split
      · exact ⟨_, rfl⟩
      · rw [if_neg (Nat.not_lt.mpr hle)]
        split
        · exact ⟨_, rfl⟩
        · exact ⟨_, rfl⟩
    · cases h

/-- The oracle has prices for BNC and KSM alone. -/
def twoPrices : State config :=
  { start with
    prices := { start.prices with
      source := fun c => if c = bnc then some .one
        else if c = .token .KSM then some ⟨4 * FixedU128.accuracy⟩ else none } }

/-- Account 1 chooses a currency that the oracle has no price for. -/
def unpriced : State config :=
  { twoPrices with
    userDefaultFeeCurrency := Function.update twoPrices.userDefaultFeeCurrency 1
      (some (.token .DOT)) }

end Sample

/-- Account 2 has no BNC and pays in KSM. -/
theorem pays_in_ksm : Sample.start.Pays 2 400 :=
  (pays_iff_unblocked Sample.dryRuns Sample.start 2 400).mpr (by
    intro _
    decide +kernel)

/-- With a default that has no price, 100 BNC do not pay a fee of 50 any more, not even that of
the call that would remove the default. -/
theorem unpriced_default_blocks :
    Sample.twoPrices.setUserDefaultFeeCurrency false 1 (some (.token .DOT)) =
        .ok Sample.unpriced ∧
      Sample.unpriced.payment 1 50 bnc = some (bnc, 50, .one, .one) ∧
      bnc ∈ Sample.unpriced.orderedList 1 ∧ ¬Sample.unpriced.Pays 1 50 := by
  refine ⟨rfl, by decide +kernel, by decide, ?_⟩
  intro h
  exact absurd h.first (by decide +kernel)

end Bifrost.FlexibleFee
