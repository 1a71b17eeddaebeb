import Bifrost.LendMarket.Pallet
import Bifrost.VtokenMinting.Pallet

/-!
# The leverage-staking pallet

A flash loan of the asset is minted to the caller and burned again in the same call. In between it
buys vTokens that become collateral for a loan of the same amount, or it pays back debt and
collateral is swapped for it. The lend market and vtoken-minting are those of their own modules,
over one ledger; the stable pool is a parameter.
-/

namespace Bifrost.LeverageStaking

open Result
set_option autoImplicit false

inductive Error where
  | argumentsError
  | notSupportTokenType
deriving DecidableEq, Repr

/-- An error of the pallet, or of one that it calls. -/
inductive Fault where
  | pallet (e : Error)
  | overflow
  | lendMarket (e : LendMarket.Fault)
  | vtokenMinting (e : VtokenMinting.Fault)
  | stablePool (code : ℕ)
  | assets (e : FungiblesError)
deriving DecidableEq, Repr

/-- `convert_to_vtoken` of the asset registry. -/
def convertToVtoken : CurrencyId → Option CurrencyId
  | .token symbol | .native symbol => some (.vToken symbol)
  | .token2 id => some (.vToken2 id)
  | _ => none

theorem convertToVtoken_ne {c v : CurrencyId} (h : convertToVtoken c = some v) : v ≠ c := by
  rintro rfl
  cases v <;> simp [convertToVtoken] at h

/-- The runtime's choices. The two views of the ledger show the same balances, and nobody keeps
less than the minimum balance. A flash loan is minted in full; burning it protects the account, so
no dust is lost. A swap pays at least the least output, and apart from the caller only accounts of
the stable pool are touched. -/
structure Config (AccountId : Type) [DecidableEq AccountId] where
  lend : LendMarket.Config AccountId
  minting : VtokenMinting.Config AccountId
  view : minting.currency.Ledger ≃ lend.assets.Ledger
  mintInto : lend.assets.Ledger → CurrencyId → AccountId → ℕ →
    Except FungiblesError lend.assets.Ledger
  burnFrom : lend.assets.Ledger → CurrencyId → AccountId → ℕ →
    Except FungiblesError lend.assets.Ledger
  Pools : Type
  /-- The pool of two currencies, with their places in it. -/
  getPoolId : Pools → CurrencyId → CurrencyId → Option (ℕ × ℕ × ℕ)
  getSwapInput : Pools → ℕ → ℕ → ℕ → ℕ → Except ℕ ℕ
  swap : Pools → lend.assets.Ledger → AccountId → ℕ → ℕ → ℕ → ℕ → ℕ →
    Except ℕ (Pools × lend.assets.Ledger)
  PoolAccount : AccountId → Prop
  balance_view : ∀ L c x, lend.assets.balance (view L) c x = minting.currency.freeBalance L c x
  alive : ∀ L c x, lend.assets.balance L c x = 0 ∨
    lend.assets.minimumBalance c ≤ lend.assets.balance L c x
  mintInto_credits : ∀ {L L' c x n}, mintInto L c x n = .ok L' → ∀ d y,
    lend.assets.balance L' d y = lend.assets.balance L d y + if d = c ∧ y = x then n else 0
  burnFrom_debits : ∀ {L L' c x n}, burnFrom L c x n = .ok L' → ∀ d y,
    lend.assets.balance L' d y + (if d = c ∧ y = x then n else 0) = lend.assets.balance L d y
  deposit_credits : ∀ {L L' c x n}, minting.currency.deposit L c x n = .ok L' → ∀ d y,
    minting.currency.freeBalance L' d y =
      minting.currency.freeBalance L d y + if d = c ∧ y = x then n else 0
  record_frame : ∀ {L L' channel v n}, minting.recordMintAmount L channel v n = .ok L' →
    minting.currency.freeBalance L' = minting.currency.freeBalance L
  swap_pays : ∀ {P P' L L' x input output id i j dx least}, getPoolId P input output =
      some (id, i, j) → swap P L x id i j dx least = .ok (P', L') →
    lend.assets.balance L output x + least ≤ lend.assets.balance L' output x
  swap_frame : ∀ {P P' L L' x id i j dx least}, swap P L x id i j dx least = .ok (P', L') →
    ∀ c y, y ≠ x → ¬PoolAccount y → lend.assets.balance L' c y = lend.assets.balance L c y
  lend_not_pool : ¬PoolAccount lend.accountId

/-- The accounts of the pallets behind a call, and the one that receives dust. -/
def Config.Pooled {AccountId : Type} [DecidableEq AccountId] (cfg : Config AccountId)
    (x : AccountId) : Prop :=
  x = cfg.lend.accountId ∨ x = cfg.minting.entranceAccount ∨ x = cfg.minting.feeAccount ∨
    cfg.PoolAccount x ∨ cfg.lend.assets.dustAccount = some x

variable {AccountId : Type} [DecidableEq AccountId] {cfg : Config AccountId}

inductive Event (AccountId : Type) where
  | flashLoanDeposited (who : AccountId) (assetId : CurrencyId) (oldRate newRate : FixedU128)
deriving DecidableEq

/-- The storage of the other pallets. The ledger is that of the lend market. -/
structure State (cfg : Config AccountId) where
  lend : LendMarket.State cfg.lend
  minting : VtokenMinting.State cfg.minting
  pools : cfg.Pools
  events : List (Event AccountId)

namespace State

def ledger (s : State cfg) : cfg.lend.assets.Ledger := s.lend.ledger

def balance (s : State cfg) (c : CurrencyId) (x : AccountId) : ℕ :=
  cfg.lend.assets.balance s.ledger c x

def setLedger (s : State cfg) (ledger : cfg.lend.assets.Ledger) : State cfg :=
  { s with lend := { s.lend with ledger } }

def withLend (s : State cfg) (f : LendMarket.State cfg.lend →
    Except LendMarket.Fault (LendMarket.State cfg.lend)) : Except Fault (State cfg) := do
  let lend ← mapErr (f s.lend) Fault.lendMarket
  pure { s with lend := lend }

/-- vtoken-minting over the ledger as it is. -/
def mintingNow (s : State cfg) : VtokenMinting.State cfg.minting :=
  { s.minting with ledger := cfg.view.symm s.ledger }

def mintInto (s : State cfg) (asset : CurrencyId) (who : AccountId) (amount : ℕ) :
    Except Fault (State cfg) := do
  let ledger ← mapErr (cfg.mintInto s.ledger asset who amount) Fault.assets
  pure (s.setLedger ledger)

def burnFrom (s : State cfg) (asset : CurrencyId) (who : AccountId) (amount : ℕ) :
    Except Fault (State cfg) := do
  let ledger ← mapErr (cfg.burnFrom s.ledger asset who amount) Fault.assets
  pure (s.setLedger ledger)

/-- `VtokenMinting::mint`; the currency that it returns is not looked at. -/
def mint (s : State cfg) (who : AccountId) (asset : CurrencyId) (amount : ℕ) :
    Except Fault (ℕ × State cfg) := do
  let (_, vtokenValue, minting) ←
    mapErr (VtokenMinting.doMint s.mintingNow who asset amount none) Fault.vtokenMinting
  pure (vtokenValue, { s with minting := minting }.setLedger (cfg.view minting.ledger))

def swap (s : State cfg) (who : AccountId) (poolId i j dx minDy : ℕ) :
    Except Fault (State cfg) := do
  let (pools, ledger) ← mapErr (cfg.swap s.pools s.ledger who poolId i j dx minDy)
    Fault.stablePool
  pure ({ s with pools := pools }.setLedger ledger)

end State

def currentCollateralAmount (lend : LendMarket.State cfg.lend) (supplier : AccountId)
    (asset : CurrencyId) : Except LendMarket.Fault ℕ :=
  let vouchers := (lend.depositsOf asset supplier).voucherBalance
  if ¬lend.hasDeposits asset supplier then pure 0
  else if vouchers = 0 then pure 0
  else do
    let exchangeRate ← lend.exchangeRateStored asset
    LendMarket.calcUnderlyingAmount vouchers exchangeRate

/-- `get_current_borrow_balance`, which accrues interest first. -/
def getCurrentBorrowBalance (lend : LendMarket.State cfg.lend) (borrower : AccountId)
    (asset : CurrencyId) : Except LendMarket.Fault (ℕ × LendMarket.State cfg.lend) := do
  let lend ← lend.accrueInterest asset
  let borrows ← lend.currentBorrowBalance borrower asset
  pure (borrows, lend)

/-- What the account owes and what its collateral is worth beyond that. -/
structure Figures where
  accountBorrows : ℕ
  baseTokenValue : ℕ
  currentRate : FixedU128

namespace State

def ensureCollateral (s : State cfg) (who : AccountId) (vtoken : CurrencyId) :
    Except Fault (State cfg) :=
  if (s.lend.depositsOf vtoken who).isCollateral then pure s
  else s.withLend fun lend => LendMarket.doCollateralAsset lend who vtoken true

def figures (s : State cfg) (who : AccountId) (asset vtoken : CurrencyId) :
    Except Fault (Figures × State cfg) := do
  let accountDeposits ← mapErr (currentCollateralAmount s.lend who vtoken) Fault.lendMarket
  let (accountBorrows, lend) ←
    mapErr (getCurrentBorrowBalance s.lend who asset) Fault.lendMarket
  let s := { s with lend := lend }
  let depositsTokenValue ← mapErr
    (s.minting.getCurrencyAmountByVCurrencyAmount asset vtoken accountDeposits)
    Fault.vtokenMinting
  let baseTokenValue ← okOr (U128.checkedSub depositsTokenValue accountBorrows) .overflow
  let currentRate ← okOr (FixedU128.checkedFromRational accountBorrows baseTokenValue) .overflow
  pure (⟨accountBorrows, baseTokenValue, currentRate⟩, s)

def reduceLeverage (s : State cfg) (who : AccountId) (asset vtoken : CurrencyId)
    (reduceAmount : ℕ) : Except Fault (State cfg) := do
  let (poolId, currencyIdIn, currencyIdOut) ←
    okOr (cfg.getPoolId s.pools vtoken asset) (.pallet .notSupportTokenType)
  let s ← s.mintInto asset who reduceAmount
  let s ← s.withLend fun lend => LendMarket.doRepayBorrow lend who asset reduceAmount
  let redeemAmount ← mapErr
    (cfg.getSwapInput s.pools poolId currencyIdIn currencyIdOut reduceAmount) Fault.stablePool
  let s ← s.withLend fun lend => do
    let (_, lend) ← LendMarket.doRedeem lend who vtoken redeemAmount
    pure lend
  let s ← s.swap who poolId currencyIdIn currencyIdOut redeemAmount reduceAmount
  s.burnFrom asset who reduceAmount

def increaseLeverage (s : State cfg) (who : AccountId) (asset vtoken : CurrencyId)
    (increaseAmount : ℕ) : Except Fault (State cfg) := do
  let s ← s.mintInto asset who increaseAmount
  let (vtokenValue, s) ← s.mint who asset increaseAmount
  let s ← s.withLend fun lend => LendMarket.doMint lend who vtoken vtokenValue
  let s ← s.withLend fun lend => LendMarket.doBorrow lend who asset increaseAmount
  s.burnFrom asset who increaseAmount

/-- `rate` less than the current one: all of the debt, or what the rates differ by. -/
def reduceAmount (f : Figures) (rate : FixedU128) : Option ℕ :=
  if rate.inner = 0 then some f.accountBorrows
  else (f.currentRate.checkedSub rate).bind fun r => r.checkedMulInt f.baseTokenValue

def increaseAmount (f : Figures) (rate : FixedU128) : Option ℕ :=
  (rate.checkedSub f.currentRate).bind fun r => r.checkedMulInt f.baseTokenValue

def setLeverage (s : State cfg) (who : AccountId) (asset vtoken : CurrencyId) (f : Figures)
    (rate : FixedU128) : Except Fault (State cfg) :=
  match compare rate.inner f.currentRate.inner with
  | .lt => do
    let amount ← okOr (reduceAmount f rate) .overflow
    s.reduceLeverage who asset vtoken amount
  | .eq => .error (.pallet .argumentsError)
  | .gt => do
    let amount ← okOr (increaseAmount f rate) .overflow
    s.increaseLeverage who asset vtoken amount

def depositEvent (s : State cfg) (e : Event AccountId) : State cfg :=
  { s with events := s.events ++ [e] }

end State

/-- `flash_loan_deposit`; a call that fails is rolled back. -/
def flashLoanDeposit (s : State cfg) (who : AccountId) (asset : CurrencyId) (rate : FixedU128) :
    Except Fault (State cfg) := do
  let vtoken ← okOr (convertToVtoken asset) (.pallet .notSupportTokenType)
  let s ← s.ensureCollateral who vtoken
  let (f, s) ← s.figures who asset vtoken
  let s ← s.setLeverage who asset vtoken f rate
  pure (s.depositEvent (.flashLoanDeposited who asset f.currentRate rate))

end Bifrost.LeverageStaking
