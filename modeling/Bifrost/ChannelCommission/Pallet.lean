import Bifrost.Lib.Attempt
import Bifrost.Lib.Clearing
import Bifrost.Primitives.Integers
import Bifrost.Primitives.PerThing
import Bifrost.VtokenMinting.Pallet

/-!
# The channel-commission pallet

Channels bring in mints of vTokens and get a share of the hosting fees. The shares and the
commissions of a period are cleared in the next one: its first block sets the records of the
period apart, each channel has a block of its own, and in one block more what is left of the
commissions goes to Bifrost. The blocks are counted by a hook that runs where a block has weight
left.
-/

namespace Bifrost.ChannelCommission

open Result Clearing
set_option autoImplicit false

inductive Error where
  | overflow
  | conversionError
  | channelNotExist
  | transferError
  | vtokenNotConfiguredForCommission
  | invalidCommissionRate
  | invalidVtoken
  | noChangesMade
  | removalNotComplete
  | tokenToVtokenConversionFailed
deriving DecidableEq

inductive Fault where
  | pallet (e : Error)
  | minting (e : VtokenMinting.Fault)
  | badOrigin
deriving DecidableEq

/-- Maps are iterated in the order of their hashed keys, here any order. -/
structure Config (AccountId : Type) where
  minting : VtokenMinting.Config AccountId
  clearingDuration : ℕ
  clearingDuration_pos : 0 < clearingDuration
  clearingDuration_le : clearingDuration ≤ u32Max
  nameLengthLimit : ℕ
  /-- The account of `CommissionPalletId`. -/
  account : AccountId
  bifrostCommissionReceiver : AccountId
  iter : ∀ {κ β : Type}, Table κ β → List (κ × β)
  iter_perm : ∀ {κ β : Type} (t : Table κ β), (iter t).Perm t.entries

variable {AccountId : Type}

structure Channel (cfg : Config AccountId) where
  receiveAccount : AccountId
  name : List UInt8
  name_le : name.length ≤ cfg.nameLengthLimit

/-- What happened to a commission token so far, and in the clearing that runs: the pallet keeps
none of it. -/
structure History where
  recorded : ℕ
  credited : ℕ
  sent : ℕ
  opening : ℕ
  pending : ℕ
  due : ℕ
  used : ℕ
  closed : Bool

/-- The storage and that of the vtoken-minting pallet. A pair is what was of the last period and
what is of the running one. `history`, `steady` and `failures` are not in the source: `steady` is
whether the hook ran in every block since it began a clearing, `failures` counts
`CalculationFailed`. -/
structure State (cfg : Config AccountId) where
  channelNextId : ℕ
  channels : Table ℕ (Channel cfg)
  commissionTokens : Table CurrencyId CurrencyId
  channelCommissionTokenRates : ℕ → CurrencyId → Percent
  channelVtokenShares : ℕ → Table CurrencyId Permill
  vtokenIssuanceSnapshots : Table CurrencyId (ℕ × ℕ)
  periodVtokenTotalMint : CurrencyId → ℕ × ℕ
  periodVtokenTotalRedeem : CurrencyId → ℕ × ℕ
  periodChannelVtokenMint : ℕ → CurrencyId → ℕ × ℕ
  periodTotalCommissions : CurrencyId → ℕ × ℕ
  periodClearedCommissions : CurrencyId → ℕ
  channelClaimableCommissions : ℕ → Table CurrencyId ℕ
  minting : VtokenMinting.State cfg.minting
  blockNumber : ℕ
  history : CurrencyId → History
  steady : Bool
  failures : CurrencyId → ℕ

/-- Which of the origin checks the caller passes. -/
structure Origin where
  control : Bool
  signed : Bool

def ensureControl (origin : Origin) : Except Fault PUnit := ensure origin.control .badOrigin

def defaultCommissionRate : Percent := ⟨20, by decide⟩

def calculateMulDivResult (multiplier1 multiplier2 divider : ℕ) : Option ℕ :=
  if divider = 0 then some 0 else U128.mulDiv multiplier1 multiplier2 divider

namespace State

variable {cfg : Config AccountId} (s : State cfg)

def snapshot (vtoken : CurrencyId) : ℕ × ℕ := (s.vtokenIssuanceSnapshots.get vtoken).getD (0, 0)

def share (channelId : ℕ) (vtoken : CurrencyId) : Permill :=
  ((s.channelVtokenShares channelId).get vtoken).getD Permill.zero

def claimable (channelId : ℕ) (token : CurrencyId) : ℕ :=
  ((s.channelClaimableCommissions channelId).get token).getD 0

def pool (token : CurrencyId) : Pool where
  recorded := (s.history token).recorded
  collected := (s.periodTotalCommissions token).2
  last := (s.periodTotalCommissions token).1
  counted := s.periodClearedCommissions token
  paid := (s.history token).credited + (s.history token).sent
  opening := (s.history token).opening
  pending := (s.history token).pending
  due := (s.history token).due
  used := (s.history token).used
  closed := (s.history token).closed

/-! The clearing. -/

/-- Where the issuance cannot be read, the first half of the snapshot is written already. -/
def refreshSnapshot (s : State cfg) (vtoken : CurrencyId) : Attempt Fault (State cfg) :=
  let issuance := s.snapshot vtoken
  match s.minting.getVCurrencyIssuanceInner vtoken with
  | .ok newIssuance =>
    let snapshots := s.vtokenIssuanceSnapshots.write vtoken (some (issuance.2, newIssuance))
    ({ s with vtokenIssuanceSnapshots := snapshots }, none)
  | .error e =>
    let snapshots := s.vtokenIssuanceSnapshots.write vtoken (some (issuance.2, issuance.2))
    ({ s with vtokenIssuanceSnapshots := snapshots }, some (.minting e))

/-- What was recorded in the running period is of the last one now. -/
def shiftPeriod : State cfg :=
  { s with
    periodVtokenTotalMint := fun v => ((s.periodVtokenTotalMint v).2, 0)
    periodVtokenTotalRedeem := fun v => ((s.periodVtokenTotalRedeem v).2, 0)
    periodChannelVtokenMint := fun id v => ((s.periodChannelVtokenMint id v).2, 0)
    periodTotalCommissions := fun token => ((s.periodTotalCommissions token).2, 0)
    history := fun token =>
      let history := s.history token
      { history with
        opening := history.credited + history.sent
        due := history.pending
        pending := 0
        used := 0
        closed := false }
    steady := true }

def setClearingEnvironment : Attempt Fault (State cfg) :=
  match Attempt.tryForEach refreshSnapshot s
    ((cfg.iter s.vtokenIssuanceSnapshots).map Prod.fst) with
  | (s, none) => (s.shiftPeriod, none)
  | (s, some e) => (s, some e)

def commissionRate (channelId : ℕ) (vtoken : CurrencyId) : Percent :=
  let rate := s.channelCommissionTokenRates channelId vtoken
  if rate = Percent.zero then defaultCommissionRate else rate

def channelCommission (channelId : ℕ) (vtoken token : CurrencyId) (share : Permill) : ℕ :=
  (s.commissionRate channelId vtoken).mulFloor
    (share.mulFloor (s.periodTotalCommissions token).1)

/-- `share * rate`, in parts of `Permill.accuracy * Percent.accuracy`. -/
def commissionParts (channelId : ℕ) (vtoken : CurrencyId) (share : Permill) : ℕ :=
  share.parts * (s.commissionRate channelId vtoken).parts

def credit (channelId : ℕ) (token : CurrencyId) (amount parts : ℕ) : State cfg :=
  let claimable := s.claimable channelId token
  let sumUp := U128.saturatingAdd claimable amount
  let history := s.history token
  { s with
    channelClaimableCommissions := Function.update s.channelClaimableCommissions channelId
      ((s.channelClaimableCommissions channelId).write token (some sumUp))
    periodClearedCommissions := Function.update s.periodClearedCommissions token
      (U128.saturatingAdd (s.periodClearedCommissions token) amount)
    history := Function.update s.history token
      { history with
        credited := history.credited + (sumUp - claimable)
        used := history.used + parts } }

/-- The token a vToken of a channel is cleared in, if it is cleared. -/
def clearedIn (vtoken : CurrencyId) : Option CurrencyId :=
  (s.commissionTokens.get vtoken).filter fun _ => (s.snapshot vtoken).1 ≠ 0

def clearChannelVtoken (channelId : ℕ) (s : State cfg) (e : CurrencyId × Permill) : State cfg :=
  match s.clearedIn e.1 with
  | none => s
  | some token =>
    s.credit channelId token (s.channelCommission channelId e.1 token e.2)
      (s.commissionParts channelId e.1 e.2)

def clearChannelCommissions (channelId : ℕ) : State cfg :=
  if s.channels.get channelId = none then s
  else (cfg.iter (s.channelVtokenShares channelId)).foldl (clearChannelVtoken channelId) s

/-- What a channel holds of a vToken with its share of the old issuance and its mints. -/
def shareNumerator (channelId : ℕ) (vtoken : CurrencyId) (share : Permill) : ℕ :=
  let totalMint := (s.periodVtokenTotalMint vtoken).1
  let netMint := totalMint - (s.periodVtokenTotalRedeem vtoken).1
  let channelMint := (s.periodChannelVtokenMint channelId vtoken).1
  let channelPeriodNetMint :=
    if totalMint = 0 then 0 else (calculateMulDivResult channelMint netMint totalMint).getD 0
  U128.wrappingAdd (share.mulFloor (s.snapshot vtoken).1) channelPeriodNetMint

def newShare (channelId : ℕ) (vtoken : CurrencyId) (share : Permill) : Permill :=
  if (s.snapshot vtoken).2 = 0 then Permill.zero
  else (Permill.fromRationalDown (s.shareNumerator channelId vtoken share)
    (s.snapshot vtoken).2).getD Permill.zero

def ShareFails (channelId : ℕ) (vtoken : CurrencyId) (share : Permill) : Prop :=
  (s.snapshot vtoken).2 ≠ 0 ∧
    Permill.fromRationalDown (s.shareNumerator channelId vtoken share) (s.snapshot vtoken).2 = none

instance (channelId : ℕ) (vtoken : CurrencyId) (share : Permill) :
    Decidable (s.ShareFails channelId vtoken share) := inferInstanceAs (Decidable (_ ∧ _))

/-- Only where more was minted than redeemed. -/
def Grew (vtoken : CurrencyId) : Prop :=
  (s.periodVtokenTotalRedeem vtoken).1 < (s.periodVtokenTotalMint vtoken).1

instance (vtoken : CurrencyId) : Decidable (s.Grew vtoken) := inferInstanceAs (Decidable (_ < _))

def updateChannelVtoken (channelId : ℕ) (s : State cfg) (e : CurrencyId × Permill) : State cfg :=
  if s.Grew e.1 then
    { s with
      channelVtokenShares := Function.update s.channelVtokenShares channelId
        ((s.channelVtokenShares channelId).write e.1 (some (s.newShare channelId e.1 e.2)))
      failures := Function.update s.failures e.1
        (s.failures e.1 + if s.ShareFails channelId e.1 e.2 then 1 else 0) }
  else s

def updateChannelVtokenShares (channelId : ℕ) : State cfg :=
  (cfg.iter (s.channelVtokenShares channelId)).foldl (updateChannelVtoken channelId) s

def bifrostCommission (token : CurrencyId) : ℕ :=
  (s.periodTotalCommissions token).1 - s.periodClearedCommissions token

/-- The final block is done with a token, of which `amount` was sent. -/
def settle (token : CurrencyId) (amount : ℕ) : State cfg :=
  let history := s.history token
  { s with
    periodClearedCommissions := Function.update s.periodClearedCommissions token 0
    history := Function.update s.history token
      { history with sent := history.sent + amount, closed := true } }

/-- A transfer that fails is logged. -/
def clearBifrostCommission (s : State cfg) (token : CurrencyId) : State cfg :=
  if s.bifrostCommission token = 0 then s.settle token 0
  else
    match s.minting.transfer token cfg.account cfg.bifrostCommissionReceiver
      (s.bifrostCommission token) with
    | .ok minting => { s.settle token (s.bifrostCommission token) with minting }
    | .error _ => s.settle token 0

def clearBifrostCommissions : State cfg :=
  ((cfg.iter s.commissionTokens).map Prod.snd).foldl clearBifrostCommission s

def offset : ℕ := s.blockNumber % cfg.clearingDuration

def onIdle : State cfg :=
  let blocks := U32.wrappingAdd s.channelNextId 1
  if s.offset = 0 then s.setClearingEnvironment.1
  else if s.offset < blocks then
    (s.clearChannelCommissions (s.offset - 1)).updateChannelVtokenShares (s.offset - 1)
  else if s.offset = blocks then s.clearBifrostCommissions
  else s

/-- The end of a block, with weight left for the hook or without. -/
def endBlock (enough : Bool) : State cfg :=
  if enough then { s.onIdle with blockNumber := s.blockNumber + 1 }
  else { s with blockNumber := s.blockNumber + 1, steady := false }

/-! The calls. -/

def registerChannel (channelName : List UInt8) (receiveAccount : AccountId) :
    Except Fault (State cfg) :=
  if h : channelName.length ≤ cfg.nameLengthLimit then
    let channelId := s.channelNextId
    let shares := (s.channelVtokenShares channelId).update s.commissionTokens
      fun _ _ _ => some Permill.zero
    pure { s with
      channels := s.channels.write channelId (some ⟨receiveAccount, channelName, h⟩)
      channelNextId := U32.wrappingAdd channelId 1
      channelCommissionTokenRates := Function.update s.channelCommissionTokenRates channelId
        fun vtoken => if (s.commissionTokens.get vtoken).isSome then defaultCommissionRate
          else s.channelCommissionTokenRates channelId vtoken
      channelVtokenShares := Function.update s.channelVtokenShares channelId shares }
  else .error (.pallet .conversionError)

def payClaim (receiver : AccountId) (minting : VtokenMinting.State cfg.minting)
    (e : CurrencyId × ℕ) : Except Fault (VtokenMinting.State cfg.minting) :=
  mapErr (minting.transfer e.1 cfg.account receiver e.2) fun _ => .pallet .transferError

def settleChannelCommission (channelId : ℕ) : Except Fault (State cfg) := do
  let channel ← okOr (s.channels.get channelId) (.pallet .channelNotExist)
  let minting ← (cfg.iter (s.channelClaimableCommissions channelId)).foldlM
    (payClaim channel.receiveAccount) s.minting
  pure { s with
    minting
    channelClaimableCommissions := Function.update s.channelClaimableCommissions channelId ∅ }

/-- `complete` is whether the records under the channel were few enough to be removed at once. -/
def removeChannel (channelId : ℕ) (complete : Bool) : Except Fault (State cfg) := do
  ensure ((s.channels.get channelId).isSome) (.pallet .channelNotExist)
  let s ← s.settleChannelCommission channelId
  ensure complete (.pallet .removalNotComplete)
  pure { s with
    channels := s.channels.write channelId none
    channelCommissionTokenRates := Function.update s.channelCommissionTokenRates channelId
      fun _ => Percent.zero
    channelVtokenShares := Function.update s.channelVtokenShares channelId ∅
    periodChannelVtokenMint := Function.update s.periodChannelVtokenMint channelId
      fun _ => (0, 0) }

def updateChannelReceiveAccount [DecidableEq AccountId] (channelId : ℕ)
    (receiveAccount : AccountId) : Except Fault (State cfg) := do
  let channel ← okOr (s.channels.get channelId) (.pallet .channelNotExist)
  ensure (channel.receiveAccount ≠ receiveAccount) (.pallet .noChangesMade)
  pure { s with channels := s.channels.write channelId (some { channel with receiveAccount }) }

/-- A rate of zero removes the entry. -/
def setChannelCommissionToken (channelId : ℕ) (vtoken : CurrencyId) (rate : Percent) :
    Except Fault (State cfg) := do
  ensure vtoken.isVtoken (.pallet .invalidVtoken)
  ensure ((s.channels.get channelId).isSome) (.pallet .channelNotExist)
  ensure ((s.commissionTokens.get vtoken).isSome) (.pallet .vtokenNotConfiguredForCommission)
  pure { s with
    channelCommissionTokenRates := Function.update s.channelCommissionTokenRates channelId
      (Function.update (s.channelCommissionTokenRates channelId) vtoken rate) }

/-- The cleared commission is reset under the vToken, not under its token. -/
def configureVtoken (vtoken commissionToken : CurrencyId) : Except Fault (State cfg) := do
  let issuance ← mapErr (s.minting.getVCurrencyIssuanceInner vtoken) .minting
  pure { s with
    commissionTokens := s.commissionTokens.write vtoken (some commissionToken)
    periodClearedCommissions := Function.update s.periodClearedCommissions vtoken 0
    vtokenIssuanceSnapshots := s.vtokenIssuanceSnapshots.write vtoken (some (0, issuance)) }

def removeVtoken (vtoken : CurrencyId) : State cfg :=
  { s with
    commissionTokens := s.commissionTokens.write vtoken none
    vtokenIssuanceSnapshots := s.vtokenIssuanceSnapshots.write vtoken none
    periodVtokenTotalMint := Function.update s.periodVtokenTotalMint vtoken (0, 0)
    periodVtokenTotalRedeem := Function.update s.periodVtokenTotalRedeem vtoken (0, 0)
    channelCommissionTokenRates := fun id =>
      if (s.channels.get id).isSome then
        Function.update (s.channelCommissionTokenRates id) vtoken Percent.zero
      else s.channelCommissionTokenRates id
    channelVtokenShares := fun id =>
      if (s.channels.get id).isSome then (s.channelVtokenShares id).write vtoken none
      else s.channelVtokenShares id
    periodChannelVtokenMint := fun id =>
      if (s.channels.get id).isSome then
        Function.update (s.periodChannelVtokenMint id) vtoken (0, 0)
      else s.periodChannelVtokenMint id
    periodTotalCommissions := Function.update s.periodTotalCommissions vtoken (0, 0)
    periodClearedCommissions := Function.update s.periodClearedCommissions vtoken 0 }

def setCommissionTokens (vtoken : CurrencyId) (commissionToken : Option CurrencyId) :
    Except Fault (State cfg) := do
  ensure vtoken.isVtoken (.pallet .invalidVtoken)
  ensure (s.commissionTokens.get vtoken ≠ commissionToken) (.pallet .noChangesMade)
  match commissionToken with
  | some token => s.configureVtoken vtoken token
  | none => pure (s.removeVtoken vtoken)

def setChannelVtokenShares (channelId : ℕ) (vtoken : CurrencyId) (shares : Permill) :
    Except Fault (State cfg) := do
  ensure ((s.channels.get channelId).isSome) (.pallet .channelNotExist)
  ensure ((s.commissionTokens.get vtoken).isSome) (.pallet .vtokenNotConfiguredForCommission)
  let _ ← ((cfg.iter s.channels).map Prod.fst).foldlM
    (fun (total : Permill) id =>
      okOr (total.checkedAdd (if id = channelId then shares else s.share id vtoken))
        (.pallet .invalidCommissionRate)) Permill.zero
  pure { s with
    channelVtokenShares := Function.update s.channelVtokenShares channelId
      ((s.channelVtokenShares channelId).write vtoken (some shares)) }

/-! What other pallets record. -/

def recordMintAmount (channelId : Option ℕ) (vtoken : CurrencyId) (amount : ℕ) :
    Except Fault (State cfg) :=
  if amount = 0 then pure s
  else do
    let totalMint := s.periodVtokenTotalMint vtoken
    let newMint ← okOr (U128.checkedAdd totalMint.2 amount) (.pallet .overflow)
    let s := { s with
      periodVtokenTotalMint :=
        Function.update s.periodVtokenTotalMint vtoken (totalMint.1, newMint) }
    match channelId with
    | none => pure s
    | some id =>
      let channelMint := s.periodChannelVtokenMint id vtoken
      let sumUp ← okOr (U128.checkedAdd channelMint.2 amount) (.pallet .overflow)
      pure { s with
        periodChannelVtokenMint := Function.update s.periodChannelVtokenMint id
          (Function.update (s.periodChannelVtokenMint id) vtoken (channelMint.1, sumUp)) }

def recordRedeemAmount (vtoken : CurrencyId) (amount : ℕ) : Except Fault (State cfg) :=
  if amount = 0 then pure s
  else do
    let totalRedeem := s.periodVtokenTotalRedeem vtoken
    let newRedeem ← okOr (U128.checkedAdd totalRedeem.2 amount) (.pallet .overflow)
    pure { s with
      periodVtokenTotalRedeem :=
        Function.update s.periodVtokenTotalRedeem vtoken (totalRedeem.1, newRedeem) }

def addCommission (token : CurrencyId) (amount : ℕ) : Except Fault (State cfg) := do
  let totalCommission := s.periodTotalCommissions token
  let sumUp ← okOr (U128.checkedAdd totalCommission.2 amount) (.pallet .overflow)
  let history := s.history token
  pure { s with
    periodTotalCommissions :=
      Function.update s.periodTotalCommissions token (totalCommission.1, sumUp)
    history := Function.update s.history token
      { history with
        recorded := history.recorded + amount
        pending := history.pending + amount } }

def recordHostingFee (stakingToken : CurrencyId) (amount : ℕ) : Except Fault (State cfg) :=
  if amount = 0 then pure s
  else do
    let vtoken ← mapErr (s.minting.convertToVtoken stakingToken) fun _ => .pallet .conversionError
    let vtokenAmount ← mapErr
      (s.minting.getVCurrencyAmountByCurrencyAmount stakingToken vtoken amount)
      fun _ => .pallet .tokenToVtokenConversionFailed
    match s.commissionTokens.get vtoken with
    | some token => s.addCommission token vtokenAmount
    | none => pure s

/-- A mint issues what it records. -/
def mint (channelId : Option ℕ) (vtoken : CurrencyId) (amount : ℕ) : Except Fault (State cfg) := do
  let adjustment ← mapErr (VtokenMinting.toI128 amount) .minting
  let minting ← mapErr (s.minting.setVCurrencyIssuanceInner vtoken adjustment) .minting
  { s with minting }.recordMintAmount channelId vtoken amount

def redeem (vtoken : CurrencyId) (amount : ℕ) : Except Fault (State cfg) := do
  let adjustment ← mapErr (VtokenMinting.toI128 amount) .minting
  let minting ← mapErr (s.minting.setVCurrencyIssuanceInner vtoken (-adjustment)) .minting
  { s with minting }.recordRedeemAmount vtoken amount

end State

inductive Call (cfg : Config AccountId) where
  | registerChannel (origin : Origin) (channelName : List UInt8) (receiveAccount : AccountId)
  | removeChannel (origin : Origin) (channelId : ℕ) (complete : Bool)
  | updateChannelReceiveAccount (origin : Origin) (channelId : ℕ) (receiveAccount : AccountId)
  | setChannelCommissionToken (origin : Origin) (channelId : ℕ) (vtoken : CurrencyId)
      (rate : Percent)
  | setCommissionTokens (origin : Origin) (vtoken : CurrencyId)
      (commissionToken : Option CurrencyId)
  | claimCommissions (origin : Origin) (channelId : ℕ)
  | setChannelVtokenShares (origin : Origin) (channelId : ℕ) (vtoken : CurrencyId)
      (shares : Permill)
  | mint (channelId : Option ℕ) (vtoken : CurrencyId) (amount : ℕ)
  | redeem (vtoken : CurrencyId) (amount : ℕ)
  | recordHostingFee (stakingToken : CurrencyId) (amount : ℕ)
  | endBlock (enough : Bool)
  /-- The vtoken-minting pallet and the accounts move on. -/
  | outside (minting : VtokenMinting.State cfg.minting)

variable {cfg : Config AccountId}

/-- A call that fails changes nothing. -/
def step [DecidableEq AccountId] (s : State cfg) : Call cfg → Except Fault (State cfg)
  | .registerChannel origin channelName receiveAccount => do
    ensureControl origin
    s.registerChannel channelName receiveAccount
  | .removeChannel origin channelId complete => do
    ensureControl origin
    s.removeChannel channelId complete
  | .updateChannelReceiveAccount origin channelId receiveAccount => do
    ensureControl origin
    s.updateChannelReceiveAccount channelId receiveAccount
  | .setChannelCommissionToken origin channelId vtoken rate => do
    ensureControl origin
    s.setChannelCommissionToken channelId vtoken rate
  | .setCommissionTokens origin vtoken commissionToken => do
    ensureControl origin
    s.setCommissionTokens vtoken commissionToken
  | .claimCommissions origin channelId => do
    ensure origin.signed .badOrigin
    s.settleChannelCommission channelId
  | .setChannelVtokenShares origin channelId vtoken shares => do
    ensureControl origin
    s.setChannelVtokenShares channelId vtoken shares
  | .mint channelId vtoken amount => s.mint channelId vtoken amount
  | .redeem vtoken amount => s.redeem vtoken amount
  | .recordHostingFee stakingToken amount => s.recordHostingFee stakingToken amount
  | .endBlock enough => pure (s.endBlock enough)
  | .outside minting => pure { s with minting }

def State.start (cfg : Config AccountId) (minting : VtokenMinting.State cfg.minting)
    (blockNumber : ℕ) : State cfg where
  channelNextId := 0
  channels := ∅
  commissionTokens := ∅
  channelCommissionTokenRates := fun _ _ => Percent.zero
  channelVtokenShares := fun _ => ∅
  vtokenIssuanceSnapshots := ∅
  periodVtokenTotalMint := fun _ => (0, 0)
  periodVtokenTotalRedeem := fun _ => (0, 0)
  periodChannelVtokenMint := fun _ _ => (0, 0)
  periodTotalCommissions := fun _ => (0, 0)
  periodClearedCommissions := fun _ => 0
  channelClaimableCommissions := fun _ => ∅
  minting
  blockNumber
  history := fun _ => ⟨0, 0, 0, 0, 0, 0, 0, false⟩
  steady := false
  failures := fun _ => 0

end Bifrost.ChannelCommission
