import Bifrost.Lib.Attempt
import Bifrost.Lib.Machine
import Bifrost.Lib.Table
import Bifrost.Primitives.Integers
import Bifrost.Primitives.Payments
import Bifrost.Primitives.PerThing

/-!
# The fee-share pallet

A distribution collects fees on an account of its own and shares them out among its receivers,
by a call or in a block at the end of an era. With a dollar standard it first sends everything to
one target account, until the value sent reaches the target value; the cumulative value is cleared
at a set interval. The hook is not a transaction: what a distribution did before it failed stays.
-/

namespace Bifrost.FeeShare

open Result
set_option autoImplicit false

structure Info (AccountId : Type) where
  feeShareAccountId : AccountId
  tokenType : List CurrencyId
  ifAuto : Bool

structure DollarStandardInfo (AccountId : Type) where
  targetValue : ℕ
  cumulative : ℕ
  targetAccountId : AccountId
  targetBlock : ℕ
  interval : ℕ

inductive Error where
  | notSupportProportion
  | distributionNotExist
  | priceOracleNotReady
  | priceIsZero
  | intervalIsZero
  | valueIsZero
deriving DecidableEq

inductive Fault where
  | pallet (e : Error)
  | overflow
  | token (e : TokenError)
  | badOrigin
deriving DecidableEq

/-- Maps are iterated in the order of their hashed keys, here any order. -/
structure Config (AccountId : Type) where
  payments : Payments AccountId
  /-- The account of a distribution under `FeeSharePalletId`. -/
  feeShareAccount : ℕ → AccountId
  receivers : Table AccountId Perbill → List (AccountId × Perbill)
  receivers_perm : ∀ t, (receivers t).Perm t.entries
  distributions : Table ℕ (Info AccountId) → List (ℕ × Info AccountId)
  distributions_perm : ∀ t, (distributions t).Perm t.entries

/-- The storage, and what the pallet reads of others: balances, prices, the block number. -/
structure State {AccountId : Type} (cfg : Config AccountId) where
  distributionInfos : Table ℕ (Info AccountId)
  tokensProportions : ℕ → Table AccountId Perbill
  dollarStandardInfos : Table ℕ (DollarStandardInfo AccountId)
  distributionNextId : ℕ
  autoEra : ℕ × ℕ
  ledger : cfg.payments.Ledger
  price : CurrencyId → Option FixedU128
  now : ℕ

inductive Origin where
  | control
  | other
deriving DecidableEq

def ensureControl (origin : Origin) : Except Fault PUnit := ensure (origin = .control) .badOrigin

variable {AccountId : Type} {cfg : Config AccountId}

def totalProportion (l : List (AccountId × Perbill)) : Perbill :=
  l.foldl (fun total e => total.saturatingAdd e.2) Perbill.zero

/-! Sharing out. -/

section Payments

variable (P : Payments AccountId)

/-- A receiver that would stay below the existential deposit is passed over. -/
def sendShare (currency : CurrencyId) (source : AccountId) (amount : ℕ) (L : P.Ledger)
    (receiver : AccountId × Perbill) : Except Fault P.Ledger := do
  let ed := P.minimumBalance currency
  let withdrawAmount := receiver.2.mulFloor amount
  if withdrawAmount < ed then
    let receiverBalanceAfter ←
      okOr (U128.checkedAdd (P.totalBalance L currency receiver.1) withdrawAmount) .overflow
    if receiverBalanceAfter < ed then pure L
    else mapErr (P.transfer L currency source receiver.1 withdrawAmount) .token
  else mapErr (P.transfer L currency source receiver.1 withdrawAmount) .token

def sendShares (currency : CurrencyId) (source : AccountId) (amount : ℕ) (L : P.Ledger)
    (receivers : List (AccountId × Perbill)) : Attempt Fault P.Ledger :=
  Attempt.tryForEach
    (fun L receiver => Attempt.atomic L (sendShare P currency source amount L receiver)) L receivers

def shareToken (source : AccountId) (receivers : List (AccountId × Perbill)) (L : P.Ledger)
    (currency : CurrencyId) : Attempt Fault P.Ledger :=
  sendShares P currency source (P.freeBalance L currency source) L receivers

def transferToken (source target : AccountId) (L : P.Ledger) (currency : CurrencyId) :
    Attempt Fault P.Ledger :=
  Attempt.atomic L
    (mapErr (P.transfer L currency source target (P.freeBalance L currency source)) .token)

def transferAll (infos : Info AccountId) (target : AccountId) (L : P.Ledger) :
    Attempt Fault P.Ledger :=
  Attempt.tryForEach (transferToken P infos.feeShareAccountId target) L infos.tokenType

end Payments

namespace State

variable (s : State cfg)

def getPrice (currency : CurrencyId) : Except Fault FixedU128 := do
  let price ← okOr (s.price currency) (.pallet .priceOracleNotReady)
  ensure (price ≠ FixedU128.zero) (.pallet .priceIsZero)
  pure price

def getAssetValue (currency : CurrencyId) (amount : ℕ) : Except Fault FixedU128 := do
  let price ← s.getPrice currency
  okOr (price.checkedMul ⟨min amount u128Max⟩) .overflow

/-- What lies on the account of a distribution, in dollars. -/
def usdValue (infos : Info AccountId) : Except Fault FixedU128 :=
  infos.tokenType.foldlM (fun total currency => do
    let amount := cfg.payments.freeBalance s.ledger currency infos.feeShareAccountId
    let value ← s.getAssetValue currency amount
    okOr (total.checkedAdd value) .overflow) FixedU128.zero

def withLedger (r : Attempt Fault cfg.payments.Ledger) : Attempt Fault (State cfg) :=
  ({ s with ledger := r.1 }, r.2)

def shareOut (id : ℕ) (infos : Info AccountId) : Attempt Fault cfg.payments.Ledger :=
  Attempt.tryForEach
    (shareToken cfg.payments infos.feeShareAccountId (cfg.receivers (s.tokensProportions id)))
    s.ledger infos.tokenType

def accumulate (id : ℕ) (infos : Info AccountId) (usd : DollarStandardInfo AccountId)
    (value : FixedU128) : Attempt Fault (State cfg) :=
  match U128.checkedAdd usd.cumulative value.inner with
  | none => (s, some .overflow)
  | some cumulative =>
    let standards := s.dollarStandardInfos.write id (some { usd with cumulative })
    { s with dollarStandardInfos := standards }.withLedger
      (transferAll cfg.payments infos usd.targetAccountId s.ledger)

/-- The dollar standard of a distribution that still sends to its target account. -/
def collecting (id : ℕ) : Option (DollarStandardInfo AccountId) :=
  (s.dollarStandardInfos.get id).filter fun usd => usd.cumulative < usd.targetValue

def executeDistributeInner (id : ℕ) (infos : Info AccountId) : Attempt Fault (State cfg) :=
  match s.usdValue infos with
  | .error e => (s, some e)
  | .ok value =>
    match s.collecting id with
    | some usd => s.accumulate id infos usd value
    | none => s.withLedger (s.shareOut id infos)

/-! The calls. -/

def createDistribution [DecidableEq AccountId] (tokenType : List CurrencyId)
    (tokensProportion : List (AccountId × Perbill)) (ifAuto : Bool) :
    Except Fault (State cfg) := do
  let id := s.distributionNextId
  let proportions := (s.tokensProportions id).writeAll tokensProportion
  ensure (totalProportion tokensProportion = Perbill.one) (.pallet .notSupportProportion)
  let next ← okOr (U32.checkedAdd id 1) .overflow
  pure { s with
    tokensProportions := Function.update s.tokensProportions id proportions
    distributionInfos :=
      s.distributionInfos.write id (some ⟨cfg.feeShareAccount id, tokenType, ifAuto⟩)
    distributionNextId := next }

/-- The proportions of a distribution are cleared before the new ones are written. -/
def editProportions [DecidableEq AccountId] (id : ℕ) :
    Option (List (AccountId × Perbill)) → Except Fault (State cfg)
  | none => pure s
  | some l => do
    ensure (totalProportion l = Perbill.one) (.pallet .notSupportProportion)
    let proportions := Table.writeAll ∅ l
    pure { s with tokensProportions := Function.update s.tokensProportions id proportions }

def editDistribution [DecidableEq AccountId] (id : ℕ) (tokenType : Option (List CurrencyId))
    (tokensProportion : Option (List (AccountId × Perbill))) (ifAuto : Option Bool) :
    Except Fault (State cfg) := do
  let info ← okOr (s.distributionInfos.get id) (.pallet .distributionNotExist)
  let s ← s.editProportions id tokensProportion
  let tokenType := tokenType.getD info.tokenType
  let ifAuto := ifAuto.getD info.ifAuto
  pure { s with
    distributionInfos := s.distributionInfos.write id (some { info with tokenType, ifAuto }) }

def setEraLength (eraLength : ℕ) : Except Fault (State cfg) := do
  let nextEra ← okOr (U32.checkedAdd s.now eraLength) .overflow
  pure { s with autoEra := (eraLength, nextEra) }

def executeDistribute (id : ℕ) : Except Fault (State cfg) := do
  let info ← okOr (s.distributionInfos.get id) (.pallet .distributionNotExist)
  (s.executeDistributeInner id info).commit

def deleteDistribution (id : ℕ) : Except Fault (State cfg) := do
  let s ← s.executeDistribute id
  pure { s with distributionInfos := s.distributionInfos.write id none }

def setUsdConfig (id targetValue interval : ℕ) (targetAccountId : AccountId) :
    Except Fault (State cfg) := do
  ensure ((s.distributionInfos.get id).isSome) (.pallet .distributionNotExist)
  ensure (0 < interval) (.pallet .intervalIsZero)
  ensure (0 < targetValue) (.pallet .valueIsZero)
  let info := ⟨targetValue, 0, targetAccountId, U32.saturatingAdd s.now interval, interval⟩
  pure { s with dollarStandardInfos := s.dollarStandardInfos.write id (some info) }

/-! The hook. -/

def cleared (usd : DollarStandardInfo AccountId) : DollarStandardInfo AccountId :=
  if s.now = usd.targetBlock then
    { usd with
      targetBlock := U32.saturatingAdd usd.targetBlock usd.interval
      cumulative := 0 }
  else usd

def clearCumulative : State cfg :=
  { s with
    dollarStandardInfos := s.dollarStandardInfos.update s.dollarStandardInfos
      fun _ usd _ => some (s.cleared usd) }

/-- A distribution that fails is logged, and what it did stays. -/
def distributeAuto (e : ℕ × Info AccountId) : State cfg :=
  if e.2.ifAuto then (s.executeDistributeInner e.1 e.2).1 else s

def onInitialize : State cfg :=
  let s := s.clearCumulative
  if s.now = s.autoEra.2 then
    let s' := (cfg.distributions s.distributionInfos).foldl distributeAuto s
    { s' with autoEra := (s.autoEra.1, U32.saturatingAdd s.autoEra.2 s.autoEra.1) }
  else s

end State

inductive Call (cfg : Config AccountId) where
  | createDistribution (tokenType : List CurrencyId)
      (tokensProportion : List (AccountId × Perbill)) (ifAuto : Bool)
  | editDistribution (id : ℕ) (tokenType : Option (List CurrencyId))
      (tokensProportion : Option (List (AccountId × Perbill))) (ifAuto : Option Bool)
  | setEraLength (eraLength : ℕ)
  | executeDistribute (id : ℕ)
  | deleteDistribution (id : ℕ)
  | setUsdConfig (id targetValue interval : ℕ) (targetAccountId : AccountId)
  | onInitialize
  /-- Balances, prices and the block number move on. -/
  | outside (ledger : cfg.payments.Ledger) (price : CurrencyId → Option FixedU128) (now : ℕ)

/-- A call by an origin; a call that fails changes nothing. -/
def step [DecidableEq AccountId] (s : State cfg) (call : Origin × Call cfg) :
    Except Fault (State cfg) :=
  match call.2 with
  | .createDistribution tokenType tokensProportion ifAuto => do
    ensureControl call.1
    s.createDistribution tokenType tokensProportion ifAuto
  | .editDistribution id tokenType tokensProportion ifAuto => do
    ensureControl call.1
    s.editDistribution id tokenType tokensProportion ifAuto
  | .setEraLength eraLength => do
    ensureControl call.1
    s.setEraLength eraLength
  | .executeDistribute id => do
    ensureControl call.1
    s.executeDistribute id
  | .deleteDistribution id => do
    ensureControl call.1
    s.deleteDistribution id
  | .setUsdConfig id targetValue interval targetAccountId => do
    ensureControl call.1
    s.setUsdConfig id targetValue interval targetAccountId
  | .onInitialize => pure s.onInitialize
  | .outside ledger price now => pure { s with ledger, price, now }

def State.start (cfg : Config AccountId) (ledger : cfg.payments.Ledger)
    (price : CurrencyId → Option FixedU128) (now : ℕ) : State cfg :=
  ⟨∅, fun _ => ∅, ∅, 0, (0, 0), ledger, price, now⟩

end Bifrost.FeeShare
