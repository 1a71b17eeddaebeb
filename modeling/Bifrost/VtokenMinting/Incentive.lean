import Bifrost.Primitives.Integers
import Bifrost.VtokenMinting.Agreement

/-!
# Incentive minting

`mint_with_lock` mints vTokens, locks them for a number of blocks and pays a bonus out of the
incentive pool; `unlock_incentive_minted_vtoken` lets go what is due. `VtokenLockLedger` holds
the records of an account and vToken in the order they were made, their total, and the
currencies pallet a lock of that total. The number of blocks may change between two records, so
the records need not fall due in order, and the unlock stops at the first that is not due.
-/

namespace Bifrost.VtokenMinting

open Machine Result
set_option autoImplicit false

structure LockRecord where
  amount : ℕ
  dueBlock : ℕ
deriving DecidableEq, Repr

structure LockLedger where
  total : ℕ
  records : List LockRecord
deriving DecidableEq, Repr

/-- What incentive minting asks of the rest of the chain. `lock` is the amount of the lock
`INCENTIVE_LOCK_ID`, which no other pallet knows. -/
structure IncentiveConfig (AccountId : Type) extends Config AccountId where
  incentivePoolAccount : AccountId
  maxLockRecords : ℕ
  currentBlockNumber : currency.Ledger → ℕ
  bbBncBalanceOf : currency.Ledger → AccountId → Except ℕ ℕ
  bbBncTotalSupply : currency.Ledger → ℕ → Except ℕ ℕ
  ensureCanWithdraw : currency.Ledger → CurrencyId → AccountId → ℕ → Except TokenError Unit
  lock : currency.Ledger → CurrencyId → AccountId → ℕ
  setLock : currency.Ledger → CurrencyId → AccountId → ℕ → Except TokenError currency.Ledger
  removeLock : currency.Ledger → CurrencyId → AccountId → Except TokenError currency.Ledger
  setLock_self : ∀ {L L' c x n}, setLock L c x n = .ok L' → n ≠ 0 ∨ lock L c x = 0 →
    lock L' c x = n
  setLock_frame : ∀ {L L' c x n d y}, setLock L c x n = .ok L' → d ≠ c ∨ y ≠ x →
    lock L' d y = lock L d y
  removeLock_self : ∀ {L L' c x}, removeLock L c x = .ok L' → lock L' c x = 0
  removeLock_frame : ∀ {L L' c x d y}, removeLock L c x = .ok L' → d ≠ c ∨ y ≠ x →
    lock L' d y = lock L d y
  transfer_lock : ∀ {L L' c a b n}, currency.transfer L c a b n = .ok L' → lock L' = lock L
  deposit_lock : ∀ {L L' c x n}, currency.deposit L c x n = .ok L' → lock L' = lock L
  recordMintAmount_lock : ∀ {L L' channel c n}, recordMintAmount L channel c n = .ok L' →
    lock L' = lock L

variable {AccountId : Type}

structure IncentiveState (cfg : IncentiveConfig AccountId) extends State cfg.toConfig where
  mintWithLockBlocks : CurrencyId → Option ℕ
  vtokenIncentiveCoef : CurrencyId → Option ℕ
  vtokenLockLedger : AccountId → CurrencyId → Option LockLedger

section Model

variable [DecidableEq AccountId] {cfg : IncentiveConfig AccountId}

/-- `VtokenLockLedger` of an account and a vToken is written. -/
def IncentiveState.setLockLedger (s : IncentiveState cfg) (who : AccountId) (v : CurrencyId)
    (l : Option LockLedger) : IncentiveState cfg :=
  { s with vtokenLockLedger := fun x d =>
      if x = who ∧ d = v then l else s.vtokenLockLedger x d }

/-- The entry of `VtokenLockLedger` after `amount` more, due at `dueBlock`. -/
def addLockRecord (maxLockRecords : ℕ) (ledger : Option LockLedger) (amount dueBlock : ℕ) :
    Except Fault LockLedger :=
  match ledger with
  | some l => do
    let total ← okOr (U128.checkedAdd l.total amount) (.pallet .calculationOverflow)
    ensure (l.records.length < maxLockRecords) (.pallet .tooManyLocks)
    pure ⟨total, l.records ++ [⟨amount, dueBlock⟩]⟩
  | none => do
    ensure (1 ≤ maxLockRecords) (.pallet .tooManyLocks)
    pure ⟨amount, [⟨amount, dueBlock⟩]⟩

def lockVtokenForIncentiveMinting (s : IncentiveState cfg) (minter : AccountId)
    (vCurrencyId : CurrencyId) (vCurrencyAmount : ℕ) : Except Fault (IncentiveState cfg) := do
  mapErr (cfg.ensureCanWithdraw s.ledger vCurrencyId minter vCurrencyAmount)
    fun _ => Fault.pallet .notEnoughBalance
  let lockDuration ← okOr (s.mintWithLockBlocks vCurrencyId) (.pallet .incentiveLockBlocksNotSet)
  let dueBlock ← okOr (U32.checkedAdd (cfg.currentBlockNumber s.ledger) lockDuration)
    (.pallet .calculationOverflow)
  let l ← addLockRecord cfg.maxLockRecords (s.vtokenLockLedger minter vCurrencyId) vCurrencyAmount
    dueBlock
  let ledger ← mapErr (cfg.setLock s.ledger vCurrencyId minter l.total)
    fun _ => Fault.pallet .notEnoughBalance
  pure { s.setLockLedger minter vCurrencyId (some l) with ledger := ledger }

/-- The share of the pool's vTokens the square root of the minter's part of all bbBNC gives. -/
def incentivePercentage (minterBalance totalIssuance : ℕ) : Permill :=
  let percentage := Permill.fromRational minterBalance totalIssuance
  let sqrtPercentage := Nat.sqrt (percentage.parts * 10 ^ 12 * FixedU128.accuracy)
  Permill.fromRational sqrtPercentage (10 ^ 18)

def u256Max : ℕ := 2 ^ 256 - 1

def calculateIncentiveVtokenAmount (s : IncentiveState cfg) (minter : AccountId)
    (vCurrencyId : CurrencyId) (vCurrencyAmount : ℕ) : Except Fault ℕ := do
  let vtokenPoolBalance := cfg.currency.freeBalance s.ledger vCurrencyId cfg.incentivePoolAccount
  ensure (0 < vtokenPoolBalance) (.pallet .notEnoughBalance)
  let bbBncTotalIssuance ← mapErr (cfg.bbBncTotalSupply s.ledger (cfg.currentBlockNumber s.ledger))
    fun _ => Fault.pallet .bbBNCCheckingError
  ensure (0 < bbBncTotalIssuance) (.pallet .balanceZero)
  let minterBalance ← mapErr (cfg.bbBncBalanceOf s.ledger minter)
    fun _ => Fault.pallet .bbBNCCheckingError
  ensure (0 < minterBalance) (.pallet .notEnoughBalance)
  let percentage := incentivePercentage minterBalance bbBncTotalIssuance
  let vCurrencyIssuance ← s.getVCurrencyIssuanceInner vCurrencyId
  let incentiveCoef ← okOr (s.vtokenIncentiveCoef vCurrencyId) (.pallet .incentiveCoefNotFound)
  let product := percentage.mulCeil vtokenPoolBalance * incentiveCoef * vCurrencyAmount
  ensure (product ≤ u256Max ∧ vCurrencyIssuance ≠ 0) (.pallet .calculationOverflow)
  pure (min (product / vCurrencyIssuance) u128Max)

def mintWithLock (s : IncentiveState cfg) (minter : AccountId) (currencyId : CurrencyId)
    (currencyAmount : ℕ) (channelId : Option ℕ) : Except Fault (IncentiveState cfg) := do
  mapErr (cfg.ensureCanWithdraw s.ledger currencyId minter currencyAmount)
    fun _ => Fault.pallet .notEnoughBalance
  ensure (s.minimumMint currencyId ≠ none) (.pallet .notSupportTokenType)
  let bbBncBalance ← mapErr (cfg.bbBncBalanceOf s.ledger minter)
    fun _ => Fault.pallet .bbBNCCheckingError
  ensure (0 < bbBncBalance) (.pallet .notEnoughBalance)
  let vCurrencyId ← s.convertToVtoken currencyId
  ensure (s.vtokenIncentiveCoef vCurrencyId ≠ none) (.pallet .incentiveCoefNotFound)
  ensure (0 < cfg.currency.freeBalance s.ledger vCurrencyId cfg.incentivePoolAccount)
    (.pallet .notEnoughBalance)
  let (_, vtokenMinted, minted) ← doMint s.toState minter currencyId currencyAmount channelId
  let s := { s with toState := minted }
  let s ← lockVtokenForIncentiveMinting s minter vCurrencyId vtokenMinted
  let incentiveAmount ← calculateIncentiveVtokenAmount s minter vCurrencyId vtokenMinted
  let ledger ← mapErr (cfg.currency.transfer s.ledger vCurrencyId cfg.incentivePoolAccount minter
    incentiveAmount) fun _ => Fault.pallet .notEnoughBalance
  let event := Event.incentivizedMinting minter currencyId currencyAmount vtokenMinted incentiveAmount
  pure { s with ledger := ledger, events := s.events ++ [event] }

/-- The loop of the unlock: what the records from the first on that are due add up to
(`unlock_amount`), and how many they are (`remove_index`). -/
def dueRecords (currentBlock : ℕ) : List LockRecord → ℕ × ℕ
  | [] => (0, 0)
  | r :: rs =>
    if r.dueBlock ≤ currentBlock then
      (r.amount + (dueRecords currentBlock rs).1, (dueRecords currentBlock rs).2 + 1)
    else (0, 0)

def unlockIncentiveMintedVtoken (s : IncentiveState cfg) (unlocker : AccountId)
    (vCurrencyId : CurrencyId) : Except Fault (IncentiveState cfg) := do
  let l ← okOr (s.vtokenLockLedger unlocker vCurrencyId) (.pallet .userUnlockLedgerNotFound)
  let (unlockAmount, removeIndex) := dueRecords (cfg.currentBlockNumber s.ledger) l.records
  ensure (0 < unlockAmount) (.pallet .noUnlockRecord)
  let remaining ← okOr (U128.checkedSub l.total unlockAmount) (.pallet .calculationOverflow)
  if remaining = 0 then do
    let ledger ← mapErr (cfg.removeLock s.ledger vCurrencyId unlocker)
      fun _ => Fault.pallet .failToRemoveLock
    pure { s.setLockLedger unlocker vCurrencyId none with ledger := ledger }
  else do
    let ledger ← mapErr (cfg.setLock s.ledger vCurrencyId unlocker remaining)
      fun _ => Fault.pallet .unexpected
    pure { s.setLockLedger unlocker vCurrencyId (some ⟨remaining, l.records.drop removeIndex⟩) with
      ledger := ledger }

/-- The calls of incentive minting. `outside` is anything else that happens on the chain: the
other calls of the pallet, other pallets, blocks that pass. -/
inductive IncentiveCall (cfg : IncentiveConfig AccountId) where
  | mintWithLock (minter : AccountId) (currencyId : CurrencyId) (currencyAmount : ℕ)
      (channelId : Option ℕ)
  | unlockIncentiveMintedVtoken (unlocker : AccountId) (vCurrencyId : CurrencyId)
  | setIncentiveCoef (vCurrencyId : CurrencyId) (newCoef : Option ℕ)
  | setVtokenIncentiveLockBlocks (vCurrencyId : CurrencyId) (newBlocks : Option ℕ)
  | outside (f : { f : State cfg.toConfig → State cfg.toConfig //
      ∀ s, cfg.lock (f s).ledger = cfg.lock s.ledger })

def incentiveStep (s : IncentiveState cfg) :
    IncentiveCall cfg → Except Fault (IncentiveState cfg)
  | .mintWithLock minter c n channel => mintWithLock s minter c n channel
  | .unlockIncentiveMintedVtoken unlocker v => unlockIncentiveMintedVtoken s unlocker v
  | .setIncentiveCoef v coef => pure { s with
      vtokenIncentiveCoef := Function.update s.vtokenIncentiveCoef v coef
      toState := s.toState.depositEvent (.vtokenIncentiveCoefSet v coef) }
  | .setVtokenIncentiveLockBlocks v blocks => pure { s with
      mintWithLockBlocks := Function.update s.mintWithLockBlocks v blocks
      toState := s.toState.depositEvent (.vtokenIncentiveLockBlocksSet v blocks) }
  | .outside f => pure { s with toState := f.1 s.toState }

/-- Any storage of the pallet, with nothing locked for incentives. -/
def incentiveGenesis (cfg : IncentiveConfig AccountId) (s : State cfg.toConfig) :
    IncentiveState cfg :=
  { toState := s
    mintWithLockBlocks := fun _ => none
    vtokenIncentiveCoef := fun _ => none
    vtokenLockLedger := fun _ _ => none }

end Model

end Bifrost.VtokenMinting
