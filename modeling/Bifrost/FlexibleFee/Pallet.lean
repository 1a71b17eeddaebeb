import Bifrost.Prices.Conversion
import Bifrost.Primitives.Deposits

/-!
# The flexible-fee pallet

The fee of a transaction is worked out in BNC and taken in the first currency of the payer's list
that covers it, at the oracle's prices. After the call the fee is corrected: what was taken too
much goes back to the payer and the rest to the treasury, at the prices of the withdrawal.
-/

namespace Bifrost.FlexibleFee

open Result Prices
set_option autoImplicit false

def bnc : CurrencyId := .native .BNC

inductive Error where
  | notEnoughBalance
  | conversionError
deriving DecidableEq

/-- An error of the pallet, `InvalidTransaction::Payment`, or a panic. -/
inductive Fault where
  | pallet (e : Error)
  | payment
  | panic
deriving DecidableEq

/-- The ledger of the currencies also holds what the exchange holds. -/
structure Config (AccountId Call : Type) where
  currency : Deposits AccountId
  encode : Call → List UInt8
  treasuryAccount : AccountId
  AssetId : Type
  tryConvertFrom : CurrencyId → Option AssetId
  /-- The first of the amounts along the path. -/
  getAmountInByPath : currency.Ledger → ℕ → AssetId × AssetId → Option ℕ
  innerSwapAssetsForExactAssets : currency.Ledger → AccountId → ℕ → ℕ → AssetId × AssetId →
    AccountId → Option currency.Ledger

inductive PaymentInfo where
  | native (amount : ℕ)
  | nonNative (amount : ℕ) (currency : CurrencyId) (bncPrice currencyPrice : FixedU128)
deriving DecidableEq

/-- `extraFeeByCall` is the map in the order of its hashed keys. -/
structure State {AccountId Call : Type} (cfg : Config AccountId Call) where
  universalFeeCurrencyOrderList : List CurrencyId
  userDefaultFeeCurrency : AccountId → Option CurrencyId
  extraFeeByCall : List (List UInt8 × CurrencyId × ℕ × AccountId)
  prices : Prices.State
  ledger : cfg.currency.Ledger

variable {AccountId Call : Type} {cfg : Config AccountId Call}

namespace State

variable (s : State cfg)

def getFeeCurrencyList (who : AccountId) : List CurrencyId :=
  let list := match s.userDefaultFeeCurrency who with
    | some currency => currency :: s.universalFeeCurrencyOrderList.erase currency
    | none => s.universalFeeCurrencyOrderList
  if list.isEmpty then [bnc] else list

/-- The loop of `get_fee_currency_and_fee_amount`. -/
def firstFeeCurrency (who : AccountId) (fee : ℕ) :
    List CurrencyId → Except Fault (CurrencyId × ℕ × FixedU128 × FixedU128)
  | [] => .error (.pallet .notEnoughBalance)
  | currency :: list =>
    if currency = bnc then
      if cfg.currency.canWithdraw s.ledger currency who fee then
        pure (currency, fee, .one, .one)
      else firstFeeCurrency who fee list
    else do
      let (amount, priceIn, priceOut) ← mapErr (s.prices.getOracleAmount bnc fee currency)
        fun
          | .absent => Fault.pallet .conversionError
          | .panic => .panic
      if (cfg.currency.ensureCanWithdraw s.ledger currency who amount).isOk then
        pure (currency, amount, priceIn, priceOut)
      else firstFeeCurrency who fee list

def getFeeCurrencyAndFeeAmount (who : AccountId) (fee : ℕ) :
    Except Fault (CurrencyId × ℕ × FixedU128 × FixedU128) :=
  s.firstFeeCurrency who fee (s.getFeeCurrencyList who)

def assetPath (c d : CurrencyId) : Except Fault (cfg.AssetId × cfg.AssetId) := do
  let a ← okOr (cfg.tryConvertFrom c) (.pallet .conversionError)
  let b ← okOr (cfg.tryConvertFrom d) (.pallet .conversionError)
  pure (a, b)

def ensureCanSwap (who : AccountId) (c d : CurrencyId) (amountOut : ℕ) : Except Fault ℕ := do
  let path : cfg.AssetId × cfg.AssetId ← assetPath c d
  let amountIn ← okOr (cfg.getAmountInByPath s.ledger amountOut path) (.pallet .notEnoughBalance)
  let _ ← mapErr (cfg.currency.ensureCanWithdraw s.ledger c who amountIn)
    fun _ => Fault.pallet .notEnoughBalance
  pure amountIn

/-- The loop of `charge_extra_fee`. -/
def extraFeeCurrency (who : AccountId) (extraCurrency : CurrencyId) (extraAmount : ℕ) :
    List CurrencyId → Option (CurrencyId × ℕ)
  | [] => none
  | currency :: list =>
    if currency = extraCurrency then
      if (cfg.currency.ensureCanWithdraw s.ledger extraCurrency who extraAmount).isOk then
        some (currency, extraAmount)
      else extraFeeCurrency who extraCurrency extraAmount list
    else
      match s.ensureCanSwap who currency extraCurrency extraAmount with
      | .ok amountIn => some (currency, amountIn)
      | .error _ => extraFeeCurrency who extraCurrency extraAmount list

def chargeExtraFee (who : AccountId) (extraCurrency : CurrencyId) (extraAmount : ℕ)
    (receiver : AccountId) : Except Fault (State cfg) := do
  let (currency, amount) ← okOr
    (s.extraFeeCurrency who extraCurrency extraAmount (s.getFeeCurrencyList who))
    (.pallet .conversionError)
  if currency = extraCurrency then do
    let ledger ← mapErr (cfg.currency.transfer s.ledger currency who receiver amount)
      fun _ => Fault.pallet .notEnoughBalance
    pure { s with ledger }
  else do
    let path : cfg.AssetId × cfg.AssetId ← assetPath currency extraCurrency
    let ledger ← okOr (cfg.innerSwapAssetsForExactAssets s.ledger who extraAmount amount path
      receiver) (.pallet .notEnoughBalance)
    pure { s with ledger }

/-- The extra fees of the entries whose name the encoded call starts with. -/
def chargeExtraFees (who : AccountId) (call : Call) : Except Fault (State cfg) :=
  s.extraFeeByCall.foldlM (fun s (name, currency, amount, receiver) =>
    if name.isPrefixOf (cfg.encode call) then
      mapErr (s.chargeExtraFee who currency amount receiver) fun _ => Fault.payment
    else pure s) s

def withdrawFee (who : AccountId) (call : Call) (fee : ℕ) :
    Except Fault (Option PaymentInfo × State cfg) :=
  if fee = 0 then pure (none, s)
  else do
    let (currency, amount, bncPrice, currencyPrice) ←
      mapErr (s.getFeeCurrencyAndFeeAmount who fee)
        fun
          | .panic => Fault.panic
          | _ => .payment
    let ledger ← mapErr (cfg.currency.withdraw s.ledger currency who amount) fun _ => Fault.payment
    let s ← { s with ledger }.chargeExtraFees who call
    if currency = bnc then pure (some (.native amount), s)
    else pure (some (.nonNative amount currency bncPrice currencyPrice), s)

def converted (currency : CurrencyId) (bncPrice currencyPrice : FixedU128) (amount : ℕ) :
    Except Fault ℕ :=
  mapErr (s.prices.getAmountByPrices bnc amount bncPrice currency currencyPrice)
    fun
      | .absent => Fault.payment
      | .panic => .panic

/-- The currency of the refund and the fee, with the refund, the fee and the tip. -/
def settlement (correctedFee tip : ℕ) : PaymentInfo → Except Fault (CurrencyId × ℕ × ℕ × ℕ)
  | .native paidFee => pure (bnc, paidFee - correctedFee, correctedFee - tip, tip)
  | .nonNative paidFee currency bncPrice currencyPrice => do
    let convertedCorrectedFee ← s.converted currency bncPrice currencyPrice correctedFee
    let refund := paidFee - convertedCorrectedFee
    let convertedTip ← s.converted currency bncPrice currencyPrice tip
    pure (currency, refund, convertedCorrectedFee - convertedTip, convertedTip)

def correctAndDepositFee (who : AccountId) (correctedFee tip : ℕ) :
    Option PaymentInfo → Except Fault (State cfg)
  | none => pure s
  | some paid => do
    let (currency, refund, fee, tip) ← s.settlement correctedFee tip paid
    let ledger ← mapErr (cfg.currency.deposit s.ledger currency who refund) fun _ => Fault.payment
    let ledger ← mapErr (cfg.currency.deposit ledger currency cfg.treasuryAccount (fee + tip))
      fun _ => Fault.payment
    pure { s with ledger }

end State

end Bifrost.FlexibleFee
