import Bifrost.Lib.Attempt
import Bifrost.Primitives.PerThing
import Bifrost.VtokenMinting.Pallet

/-!
# Asynchronous mints of the slpx pallet

A mint that was announced on another chain is carried out here; what it falls short of the vTokens
already given out there is issued to the reserve account, at most so often in a window of blocks
and at most a share of the pool at a time. The count of a window is written before the share is
looked at, and the error of a share that is too large is caught.
-/

namespace Bifrost

open Result
set_option autoImplicit false

/-- `FixedU128::from_rational`: to the nearest, a half down; it panics where there is no result. -/
def FixedU128.fromRational (n d : ℕ) : Option FixedU128 :=
  if d = 0 then none
  else
    let inner := PerThing.mulNearest d accuracy n
    if inner ≤ u128Max then some ⟨inner⟩ else none

namespace Slpx

def asyncMintRemainingBlocks : ℕ := 1

structure AsyncMintConfiguration where
  maxIssuanceRatio : FixedU128
  blockInterval : ℕ
deriving DecidableEq

inductive Error where
  | asyncMintTooFrequent
  | asyncMintIssuanceRatioTooHigh
  | errorConvertVtoken
  | errorArguments
deriving DecidableEq

inductive Fault where
  | pallet (e : Error)
  | minting (e : VtokenMinting.Fault)
  | token (e : TokenError)
  | badOrigin
  | panic
deriving DecidableEq

inductive Event (AccountId : Type) where
  | asyncMintExecuted (caller : AccountId) (fromChainId : ℕ) (vCurrencyId : CurrencyId)
      (mintedVCurrencyAmount additionalVCurrencyAmount : ℕ)
  | asyncMintExecutionFailed (fromChainId : ℕ) (vCurrencyId : CurrencyId)
      (additionalVCurrencyAmount : ℕ)
  | asyncMintConfigUpdated (config : AsyncMintConfiguration)
deriving DecidableEq

/-- The runtime's choices; a deposit credits its account and no other. -/
structure Config (AccountId : Type) [DecidableEq AccountId] where
  minting : VtokenMinting.Config AccountId
  reserveAccount : AccountId
  maxBlockNumber : ℕ
  deposit_credits : ∀ {L L' c a n}, minting.currency.deposit L c a n = .ok L' → ∀ d x,
    minting.currency.freeBalance L' d x =
      minting.currency.freeBalance L d x + if d = c ∧ x = a then n else 0

variable {AccountId : Type} [DecidableEq AccountId]

structure State (cfg : Config AccountId) where
  minting : VtokenMinting.State cfg.minting
  asyncMintConfig : AsyncMintConfiguration
  /-- The block a window was opened at and what is left of its executions. -/
  asyncMintExecutions : CurrencyId × ℕ → ℕ × ℕ
  events : List (Event AccountId)

variable {cfg : Config AccountId}

abbrev BlockNumber (cfg : Config AccountId) := Fin (cfg.maxBlockNumber + 1)

namespace State

def depositEvent (s : State cfg) (e : Event AccountId) : State cfg :=
  { s with events := s.events ++ [e] }

def insertExecution (s : State cfg) (key : CurrencyId × ℕ) (execution : ℕ × ℕ) : State cfg :=
  { s with asyncMintExecutions := Function.update s.asyncMintExecutions key execution }

/-- Whether the amount is within the share of the pool. -/
def ensureIssuanceRatio (s : State cfg) (currencyId : CurrencyId) (additional : ℕ)
    (config : AsyncMintConfiguration) : Except Fault PUnit := do
  let issuanceRatio ←
    okOr (FixedU128.fromRational additional (s.minting.getTokenPool currencyId)) .panic
  ensure (issuanceRatio.inner ≤ config.maxIssuanceRatio.inner)
    (.pallet .asyncMintIssuanceRatioTooHigh)

/-- `check_and_update_async_mint_execution`: the count stays written where the check fails. -/
def checkAndUpdateAsyncMintExecution (s : State cfg) (currentBlock : BlockNumber cfg)
    (currencyId vCurrencyId : CurrencyId) (fromChainId additional : ℕ)
    (config : AsyncMintConfiguration) : Attempt Fault (State cfg) :=
  let key := (vCurrencyId, fromChainId)
  let (lastExecutedBlock, remainingBlocks) := s.asyncMintExecutions key
  if min (lastExecutedBlock + config.blockInterval) cfg.maxBlockNumber < currentBlock.val then
    let s := s.insertExecution key (currentBlock.val, asyncMintRemainingBlocks)
    Attempt.atomic s ((s.ensureIssuanceRatio currencyId additional config).map fun _ => s)
  else if remainingBlocks ≠ 0 then
    let s := s.insertExecution key (lastExecutedBlock, remainingBlocks - 1)
    Attempt.atomic s ((s.ensureIssuanceRatio currencyId additional config).map fun _ => s)
  else (s, some (.pallet .asyncMintTooFrequent))

/-- The deposit to the reserve account and the issuance that follows it. -/
def issueAdditional (s : State cfg) (vCurrencyId : CurrencyId) (additional : ℕ) :
    Except Fault (State cfg) := do
  let ledger ← mapErr (cfg.minting.currency.deposit s.minting.ledger vCurrencyId
    cfg.reserveAccount additional) Fault.token
  ensure (additional < 2 ^ 127) (.pallet .errorArguments)
  let minting := { s.minting with ledger }
  let minting ← mapErr (minting.setVCurrencyIssuanceInner vCurrencyId additional) Fault.minting
  pure { s with minting }

/-- What `do_async_mint` does once the mint itself is done. -/
def coverShortfall (s : State cfg) (currentBlock : BlockNumber cfg) (caller : AccountId)
    (currencyId vCurrencyId : CurrencyId) (fromChainId minted slpxInput : ℕ) :
    Except Fault (State cfg) :=
  if minted < slpxInput then
    -- not zero here, so that the test for zero before the deposit never fails
    let additional := slpxInput - minted
    match s.checkAndUpdateAsyncMintExecution currentBlock currencyId vCurrencyId fromChainId
      additional s.asyncMintConfig with
    | (s, none) => do
      let s ← s.issueAdditional vCurrencyId additional
      pure (s.depositEvent (.asyncMintExecuted caller fromChainId vCurrencyId minted additional))
    | (_, some .panic) => .error .panic
    | (s, some _) =>
      let s := s.depositEvent (.asyncMintExecutionFailed fromChainId vCurrencyId additional)
      pure (s.depositEvent (.asyncMintExecuted caller fromChainId vCurrencyId minted 0))
  else pure (s.depositEvent (.asyncMintExecuted caller fromChainId vCurrencyId minted 0))

def doAsyncMint (s : State cfg) (currentBlock : BlockNumber cfg) (caller : AccountId)
    (currencyId : CurrencyId) (currencyAmount fromChainId slpxInput : ℕ) :
    Except Fault (State cfg) := do
  let (vCurrencyId, minted, minting) ←
    mapErr (VtokenMinting.doMint s.minting caller currencyId currencyAmount none) Fault.minting
  State.coverShortfall { s with minting } currentBlock caller currencyId vCurrencyId fromChainId
    minted slpxInput

def forceIncreaseHyperbridgeReserve (s : State cfg) (currentBlock : BlockNumber cfg)
    (fromChainId : ℕ) (currencyId : CurrencyId) (additional : ℕ) :
    Except Fault (State cfg) := do
  let vCurrencyId ← mapErr (s.minting.convertToVtoken currencyId)
    fun _ => Fault.pallet .errorConvertVtoken
  let s ← (s.checkAndUpdateAsyncMintExecution currentBlock currencyId vCurrencyId fromChainId
    additional s.asyncMintConfig).commit
  let s ← s.issueAdditional vCurrencyId additional
  pure (s.depositEvent
    (.asyncMintExecuted cfg.reserveAccount fromChainId vCurrencyId 0 additional))

end State

inductive Origin (AccountId : Type) where
  | signed (who : AccountId)
  | control

/-- The calls of the pallet, the mint other pallets ask for, and what vtoken-minting does. -/
inductive Call (cfg : Config AccountId) where
  | asyncMint (origin : Origin AccountId) (currencyId : CurrencyId)
      (currencyAmount fromChainId slpxInput : ℕ)
  | operatorAsyncMint (caller : AccountId) (currencyId : CurrencyId)
      (currencyAmount fromChainId slpxInput : ℕ)
  | forceIncreaseHyperbridgeReserve (origin : Origin AccountId) (fromChainId : ℕ)
      (currencyId : CurrencyId) (additional : ℕ)
  | updateAsyncMintConfig (origin : Origin AccountId) (config : AsyncMintConfiguration)
  | minting (call : VtokenMinting.Call cfg.minting)

def ensureControl : Origin AccountId → Except Fault PUnit
  | .control => .ok ⟨⟩
  | .signed _ => .error .badOrigin

def step (s : State cfg) : BlockNumber cfg × Call cfg → Except Fault (State cfg)
  | (block, .asyncMint origin c n chain input) => do
    ensureControl origin
    s.doAsyncMint block cfg.reserveAccount c n chain input
  | (block, .operatorAsyncMint caller c n chain input) =>
    s.doAsyncMint block caller c n chain input
  | (block, .forceIncreaseHyperbridgeReserve origin chain c additional) => do
    ensureControl origin
    s.forceIncreaseHyperbridgeReserve block chain c additional
  | (_, .updateAsyncMintConfig origin config) => do
    ensureControl origin
    let s := { s with asyncMintConfig := config }
    pure (s.depositEvent (.asyncMintConfigUpdated config))
  | (_, .minting call) => do
    let minting ← mapErr (VtokenMinting.step s.minting call) Fault.minting
    pure { s with minting }

def genesis (minting : VtokenMinting.State cfg.minting) (config : AsyncMintConfiguration) :
    State cfg where
  minting := minting
  asyncMintConfig := config
  asyncMintExecutions := fun _ => (0, 0)
  events := []

end Slpx

end Bifrost
