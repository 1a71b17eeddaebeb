import Bifrost.Slpx.Issuance
import Bifrost.TokenGateway.Accepting

/-!
# The custody of the gateway

What a payment takes out of the gateway's account, or issues, is its flow. A release has its amount
as its flow unless it goes to the gateway itself; a mint ordered by the request takes the amount out
of the gateway's account whoever the beneficiary was. Once is what both together make it exactly
where the beneficiary is the gateway for a mint and somebody else otherwise.
-/

namespace Bifrost.TokenGateway

open Result Machine
set_option autoImplicit false

variable {AccountId : Type} [DecidableEq AccountId] {cfg : Config AccountId}

def State.custody (s : State cfg) (c : CurrencyId) : ℕ :=
  cfg.slpx.minting.currency.freeBalance s.ledger c cfg.palletAccount

def State.issuance (s : State cfg) (c : CurrencyId) : ℕ := cfg.totalIssuance s.ledger c

/-- What the gateway's account lost and what was issued make up `n`. -/
def ReleasedOnce (s s' : State cfg) (c : CurrencyId) (n : ℕ) : Prop :=
  (s.custody c : ℤ) - s'.custody c + (s'.issuance c - s.issuance c) = n

/-! Flows. -/

structure Flow (cfg : Config AccountId) (c : CurrencyId) (n : ℕ)
    (L L' : cfg.slpx.minting.currency.Ledger) : Prop where
  out : cfg.slpx.minting.currency.freeBalance L c cfg.palletAccount + cfg.totalIssuance L' c =
    cfg.slpx.minting.currency.freeBalance L' c cfg.palletAccount + cfg.totalIssuance L c + n
  issued : cfg.totalIssuance L c ≤ cfg.totalIssuance L' c

variable {L L' L'' : cfg.slpx.minting.currency.Ledger} {c d : CurrencyId} {m n : ℕ}
  {b : AccountId}

namespace Flow

theorem trans (h : Flow cfg c m L L') (h' : Flow cfg c n L' L'') : Flow cfg c (m + n) L L'' := by
  have hout := h.out
  have hout' := h'.out
  exact ⟨by omega, h.issued.trans h'.issued⟩

theorem custody_le (h : Flow cfg c n L L') :
    cfg.slpx.minting.currency.freeBalance L c cfg.palletAccount ≤
      cfg.slpx.minting.currency.freeBalance L' c cfg.palletAccount + n := by
  have hout := h.out
  have hissued := h.issued
  omega

theorem of_transfer (h : cfg.slpx.minting.currency.transfer L c cfg.palletAccount b n = .ok L')
    (d : CurrencyId) : Flow cfg d (if d = c ∧ b ≠ cfg.palletAccount then n else 0) L L' := by
  have hissuance := cfg.transfer_issuance h d
  refine ⟨?_, hissuance.ge⟩
  rw [hissuance]
  by_cases hb : b = cfg.palletAccount
  · rw [if_neg (fun hall => hall.2 hb), cfg.slpx.minting.currency.transfer_frame h (Or.inl hb.symm)]
    omega
  · by_cases hd : d = c
    · subst hd
      obtain ⟨hle, hpaid, -⟩ := cfg.slpx.minting.currency.transfer_moves h (Ne.symm hb)
      rw [if_pos ⟨rfl, hb⟩, hpaid]
      omega
    · rw [if_neg (fun hall => hd hall.1),
        cfg.slpx.minting.currency.transfer_frame h (Or.inr (Or.inl hd))]
      omega

theorem of_deposit (h : cfg.slpx.minting.currency.deposit L c b n = .ok L') (d : CurrencyId) :
    Flow cfg d (if d = c ∧ b ≠ cfg.palletAccount then n else 0) L L' := by
  have hissuance := cfg.deposit_issuance h d
  have hcredit := cfg.slpx.deposit_credits h d cfg.palletAccount
  refine ⟨?_, by omega⟩
  rw [hissuance, hcredit]
  by_cases hd : d = c
  · by_cases hb : b = cfg.palletAccount
    · rw [if_pos hd, if_pos ⟨hd, hb.symm⟩, if_neg (fun hall => hall.2 hb)]
      omega
    · rw [if_pos hd, if_neg (fun hall => hb hall.2.symm), if_pos ⟨hd, hb⟩]
      omega
  · rw [if_neg hd, if_neg (fun hall => hd hall.1), if_neg (fun hall => hd hall.1)]
    omega

end Flow

theorem release_flow {s s' : State cfg} {req : PostRequest}
    (h : s.release req c b n = .ok s') (d : CurrencyId) :
    Flow cfg d (if d = c ∧ b ≠ cfg.palletAccount then n else 0) s.ledger s'.ledger ∧
      ∃ ledger, s' = s.setLedger ledger := by
  unfold State.release at h
  simp only at h
  split at h
  · simp only [bind_eq_ok, mapErr_eq_ok, pure_eq_ok] at h
    obtain ⟨ledger, hledger, rfl⟩ := h
    exact ⟨Flow.of_transfer hledger d, ledger, rfl⟩
  · simp only [bind_eq_ok, mapErr_eq_ok, pure_eq_ok] at h
    obtain ⟨ledger, hledger, rfl⟩ := h
    exact ⟨Flow.of_deposit hledger d, ledger, rfl⟩

theorem doMint_flow {t t' : VtokenMinting.State cfg.slpx.minting} {v : CurrencyId}
    (h : VtokenMinting.doMint t cfg.palletAccount c n none = .ok (v, m, t')) (d : CurrencyId) :
    Flow cfg d (if d = c then n else 0) t.ledger t'.ledger := by
  obtain ⟨kept, fee, L, L₁, L₂, hsum, hfee, hdeposit, hkept, hrecord⟩ :=
    VtokenMinting.doMint_tokens h
  obtain ⟨hissuance, hbalances⟩ := cfg.record_frame hrecord
  have hlast : Flow cfg d 0 L₂ t'.ledger := by
    refine ⟨?_, ?_⟩
    · rw [hissuance, hbalances, Nat.add_zero]
    · rw [hissuance]
  have hflow := (((Flow.of_transfer hfee d).trans (Flow.of_deposit hdeposit d)).trans
    (Flow.of_transfer hkept d)).trans hlast
  have hne : cfg.slpx.minting.feeAccount ≠ cfg.palletAccount := cfg.fee_ne
  have hne' : cfg.slpx.minting.entranceAccount ≠ cfg.palletAccount := cfg.entrance_ne
  simp only [hne, hne', ne_eq, not_true_eq_false, not_false_eq_true, and_false, and_true,
    if_false] at hflow
  by_cases hd : d = c
  · simp only [hd, if_true] at hflow ⊢
    have htotal : fee + 0 + kept + 0 = n := by omega
    rwa [htotal] at hflow
  · simpa only [hd, if_false] using hflow

theorem doAsyncMint_flow {t t' : Slpx.State cfg.slpx} {block : Slpx.BlockNumber cfg.slpx}
    {chain input : ℕ} (h : t.doAsyncMint block cfg.palletAccount c n chain input = .ok t')
    (d : CurrencyId) :
    Flow cfg d (if d = c then n else 0) t.minting.ledger t'.minting.ledger := by
  simp only [Slpx.State.doAsyncMint, bind_eq_ok, mapErr_eq_ok] at h
  obtain ⟨⟨v, minted, mint⟩, hmint, h⟩ := h
  have hflow := doMint_flow hmint d
  rcases Slpx.coverShortfall_cases h with ⟨es, rfl, -⟩ |
    ⟨e, -, -, ⟨-, minting, hadded, rfl⟩ | ⟨-, -, rfl⟩⟩
  · exact hflow
  · have hissue := hflow.trans (Flow.of_deposit hadded.deposit d)
    simp only [Config.palletAccount, ne_eq, not_true_eq_false, and_false, if_false,
      Nat.add_zero] at hissue
    exact hissue
  · exact hflow

/-! Requests that are accepted. -/

def Incoming.beneficiary (cfg : Config AccountId) (r : Incoming) : AccountId :=
  cfg.accountOf r.body.recipient

/-- No call of the runtime is attached. -/
def Incoming.CallFree (r : Incoming) (s : State cfg) (req : PostRequest) : Prop :=
  ∀ callData, r.body.data = some callData → s.mintOrder req r.body callData ≠ none

/-- The gateway is the beneficiary exactly of what is minted from its account. -/
def Incoming.Once (r : Incoming) (s : State cfg) (req : PostRequest) : Prop :=
  r.amount = 0 ∨ (r.beneficiary cfg = cfg.palletAccount ↔ r.OrdersMint s req)

variable {rt : Runtime cfg} {s s' : State cfg} {req : PostRequest} {r : Incoming}

theorem released_of_incoming {r' : Incoming} {s₁ : State cfg} (hr : s.incoming req = .ok r)
    (h : s.released req = some (r', s₁)) : r' = r ∧
      s.release req r.localAssetId (r.beneficiary cfg) r.amount = .ok s₁ := by
  simp only [State.released, hr] at h
  split at h
  · cases h
  · obtain ⟨rfl, rfl⟩ := Prod.mk.inj (Option.some.inj h)
    exact ⟨rfl, by assumption⟩

theorem handleData_flow (hfree : r.CallFree s req) (h : State.handleData rt s req r = (s', none))
    (d : CurrencyId) : s'.nativeAssets = s.nativeAssets ∧
      ((¬r.OrdersMint s req ∧ s'.ledger = s.ledger) ∨ (r.OrdersMint s req ∧
        Flow cfg d (if d = r.localAssetId then r.amount else 0) s.ledger s'.ledger)) := by
  unfold State.handleData at h
  cases hdata : r.body.data with
  | none =>
    simp only [hdata] at h
    obtain rfl := congrArg Prod.fst h
    refine ⟨rfl, Or.inl ⟨?_, rfl⟩⟩
    rintro ⟨callData, order, hsome, -⟩
    rw [hdata] at hsome
    cases hsome
  | some callData =>
    simp only [hdata] at h
    cases horder : s.mintOrder req r.body callData with
    | none => exact absurd horder (hfree callData hdata)
    | some order =>
      simp only [horder, State.mintOrdered] at h
      split at h
      · cases h
      · split at h
        · rename_i hmint
          obtain rfl := congrArg Prod.fst h
          exact ⟨rfl, Or.inr ⟨⟨callData, order, hdata, horder⟩,
            doAsyncMint_flow (rt.asyncMint_done hmint) d⟩⟩
        · cases h

theorem accept_flow (hr : s.incoming req = .ok r) (hfree : r.CallFree s req)
    (h : s.onAccept rt req = (s', none)) (d : CurrencyId) :
    s'.nativeAssets = s.nativeAssets ∧ ((¬r.OrdersMint s req ∧ Flow cfg d
        (if d = r.localAssetId ∧ r.beneficiary cfg ≠ cfg.palletAccount then r.amount else 0)
        s.ledger s'.ledger) ∨
      (r.OrdersMint s req ∧ Flow cfg d
        ((if d = r.localAssetId ∧ r.beneficiary cfg ≠ cfg.palletAccount then r.amount else 0) +
          if d = r.localAssetId then r.amount else 0) s.ledger s'.ledger)) := by
  rcases onAccept_cases rt s req with ⟨-, e, heq⟩ | ⟨r', s₁, hreleased, hcase⟩
  · rw [heq] at h
    cases h
  obtain ⟨rfl, hrelease⟩ := released_of_incoming hr hreleased
  obtain ⟨hflow, ledger, rfl⟩ := release_flow hrelease d
  rcases hcase with ⟨s₂, e, -, heq⟩ | ⟨s₂, hdone, heq⟩
  · rw [heq] at h
    cases h
  · rw [heq] at h
    obtain rfl := congrArg Prod.fst h
    have hfree' : r'.CallFree (s.setLedger ledger) req := hfree
    obtain ⟨hnative, hdata⟩ := handleData_flow hfree' hdone d
    refine ⟨hnative, ?_⟩
    rcases hdata with ⟨hmint, hledger⟩ | ⟨hmint, hminted⟩
    · refine Or.inl ⟨hmint, ?_⟩
      change Flow cfg d _ s.ledger s₂.ledger
      rw [hledger]
      exact hflow
    · exact Or.inr ⟨hmint, hflow.trans hminted⟩

theorem releasedOnce_of_flow (h : Flow cfg c m s.ledger s'.ledger) :
    ReleasedOnce s s' c n ↔ m = n := by
  have hout : s.custody c + s'.issuance c = s'.custody c + s.issuance c + m := h.out
  unfold ReleasedOnce
  omega

/-- A request is released once exactly where the gateway is the beneficiary of what is minted, and
of nothing else. -/
theorem accept_releasedOnce_iff (hr : s.incoming req = .ok r) (hfree : r.CallFree s req)
    (h : s.onAccept rt req = (s', none)) :
    ReleasedOnce s s' r.localAssetId r.amount ↔ r.Once s req := by
  unfold Incoming.Once
  by_cases hb : r.beneficiary cfg = cfg.palletAccount
  · rcases (accept_flow hr hfree h r.localAssetId).2 with ⟨hmint, hflow⟩ | ⟨hmint, hflow⟩
    · rw [releasedOnce_of_flow hflow]
      simp [hb, hmint, eq_comm]
    · rw [releasedOnce_of_flow hflow]
      simp [hb, hmint]
  · rcases (accept_flow hr hfree h r.localAssetId).2 with ⟨hmint, hflow⟩ | ⟨hmint, hflow⟩
    · rw [releasedOnce_of_flow hflow]
      simp [hb, hmint]
    · rw [releasedOnce_of_flow hflow]
      simp [hb, hmint]

/-! Runs of teleports, accepted requests and timeouts. -/

def teleported (c : CurrencyId) (_ : State cfg) : Call AccountId → ℕ
  | .teleport _ params => if params.assetId = c then params.amount.val else 0
  | .sendAndCall d _ _ _ amount _ _ _ _ => if d = c then amount.val else 0
  | _ => 0

def Incoming.amountOf (c : CurrencyId) (x : Except Fault Incoming) : ℕ :=
  match x with
  | .ok r => if c = r.localAssetId then r.amount else 0
  | .error _ => 0

def givenOut (c : CurrencyId) (s : State cfg) : Call AccountId → ℕ
  | .accept req => Incoming.amountOf c (s.incoming req)
  | .timeout (.post req) =>
    Incoming.amountOf c (State.decodeRequest cfg req.body >>= s.resolve req)
  | _ => 0

def Call.Moves : Call AccountId → Prop
  | .teleport .. | .sendAndCall .. | .accept _ | .timeout _ => True
  | _ => False

/-- A request is released once and calls nothing, and the gateway does not teleport itself. -/
def Orderly (s : State cfg) : Call AccountId → Prop
  | .teleport (.signed who) _ => who ≠ cfg.palletAccount
  | .sendAndCall _ sender _ _ _ _ _ payer _ =>
    sender ≠ cfg.palletAccount ∧ payer ≠ cfg.palletAccount
  | .accept req => ∀ r, s.incoming req = .ok r → r.CallFree s req ∧ r.Once s req
  | _ => True

theorem dispatch_ok {post : DispatchPost} {payer : AccountId} {fee : ℕ} {e : Error}
    {commitment : H256} (h : s.dispatch post payer fee e = .ok (commitment, s')) :
    ∃ ledger, cfg.dispatchRequest s.ledger post payer fee = some (commitment, ledger) ∧
      s' = { s.setLedger ledger with requests := s.requests ++ [(commitment, post)] } := by
  simp only [State.dispatch, bind_eq_ok, okOr_eq_ok, pure_eq_ok] at h
  obtain ⟨⟨commitment', ledger⟩, hdispatch, h⟩ := h
  obtain ⟨rfl, rfl⟩ := Prod.mk.inj h
  exact ⟨ledger, hdispatch, rfl⟩

theorem doTeleport_ok {sender payer : AccountId} {recipient commitment : H256}
    {dest : StateMachine} {amount : Balance} {timeout fee : ℕ} {data : Option Calldata}
    (h : s.doTeleport c sender recipient dest amount timeout data payer fee =
      .ok (commitment, s')) :
    ∃ assetId ercDecimals address L L', s.supportedAssets c = some assetId ∧
      s.decimals c = some ercDecimals ∧
      (if s.nativeAssets c then
        cfg.slpx.minting.currency.transfer s.ledger c sender cfg.palletAccount amount.val
      else cfg.slpx.minting.currency.withdraw s.ledger c sender amount.val) = .ok L ∧
      let post : DispatchPost := ⟨dest, cfg.tokenGatewayId, address, timeout,
        State.teleportBody cfg assetId (!s.nativeAssets c) sender recipient
          (convertToErc20 amount.val ercDecimals (cfg.localDecimals c)) data⟩
      cfg.dispatchRequest L post payer fee = some (commitment, L') ∧
        s' = { s.setLedger L' with
          requests := s.requests ++ [(commitment, post)]
          events := s.events ++
            [.assetTeleported sender recipient c amount.val dest commitment] } := by
  simp only [State.doTeleport, bind_eq_ok, okOr_eq_ok, mapErr_eq_ok, pure_eq_ok] at h
  obtain ⟨assetId, hasset, L, hL, ercDecimals, herc, address, -, ⟨commitment', s₁⟩, hdispatch,
    h⟩ := h
  obtain ⟨rfl, rfl⟩ := Prod.mk.inj h
  obtain ⟨L', hL', rfl⟩ := dispatch_ok hdispatch
  exact ⟨assetId, ercDecimals, address, L, L', hasset, herc, hL, hL', rfl⟩

theorem doTeleport_custody {sender payer : AccountId} {recipient commitment : H256}
    {dest : StateMachine} {amount : Balance} {timeout fee : ℕ} {data : Option Calldata}
    (hnative : s.nativeAssets c = true) (hsender : sender ≠ cfg.palletAccount)
    (hpayer : payer ≠ cfg.palletAccount)
    (h : s.doTeleport d sender recipient dest amount timeout data payer fee =
      .ok (commitment, s')) :
    s'.nativeAssets c = true ∧ s.custody c + (if d = c then amount.val else 0) ≤ s'.custody c := by
  obtain ⟨assetId, ercDecimals, address, L, L', -, -, hL, hL', rfl⟩ := doTeleport_ok h
  refine ⟨hnative, ?_⟩
  have hcharged := cfg.dispatch_frame hL' c cfg.palletAccount (Ne.symm hpayer)
  refine Nat.le_trans ?_ hcharged
  by_cases hd : d = c
  · subst hd
    rw [hnative, if_pos rfl] at hL
    rw [if_pos rfl]
    exact (cfg.slpx.minting.currency.transfer_moves hL hsender).2.2.ge
  · rw [if_neg hd, Nat.add_zero]
    have hframe : cfg.slpx.minting.currency.freeBalance L c cfg.palletAccount =
        cfg.slpx.minting.currency.freeBalance s.ledger c cfg.palletAccount := by
      split at hL
      · exact cfg.slpx.minting.currency.transfer_frame hL (Or.inr (Or.inl (Ne.symm hd)))
      · exact cfg.withdraw_frame hL (Or.inl (Ne.symm hd))
    exact hframe.ge

theorem ite_and_le (p q : Prop) [Decidable p] [Decidable q] (n : ℕ) :
    (if p ∧ q then n else 0) ≤ if p then n else 0 := by
  by_cases hp : p
  · by_cases hq : q
    · simp [hp, hq]
    · simp [hq]
  · simp [hp]

theorem accept_custody (hnative : s.nativeAssets c = true)
    (hok : Orderly s (.accept req)) (h : s.onAccept rt req = (s', none)) :
    s'.nativeAssets c = true ∧
      s.custody c ≤ s'.custody c + givenOut c s (.accept req) := by
  cases hr : s.incoming req with
  | error e =>
    simp only [State.onAccept, hr] at h
    cases h
  | ok r =>
    obtain ⟨hfree, honce⟩ := hok r hr
    obtain ⟨hkept, hflow⟩ := accept_flow hr hfree h c
    refine ⟨by rw [hkept]; exact hnative, ?_⟩
    have hgiven : givenOut c s (.accept req : Call AccountId) =
        if c = r.localAssetId then r.amount else 0 := by
      simp only [givenOut, hr, Incoming.amountOf]
    rw [hgiven]
    rcases hflow with ⟨-, hflow⟩ | ⟨hmint, hflow⟩
    · have hle := hflow.custody_le
      exact hle.trans (Nat.add_le_add_left (ite_and_le _ _ _) _)
    · have hle := hflow.custody_le
      refine hle.trans (Nat.add_le_add_left ?_ _)
      rcases honce with hzero | hself
      · simp [hzero]
      · rw [if_neg (fun hall => hall.2 (hself.mpr hmint)), Nat.zero_add]

theorem timeout_custody {t : Timeout} (hnative : s.nativeAssets c = true)
    (h : s.onTimeout t = .ok s') :
    s'.nativeAssets c = true ∧
      s.custody c ≤ s'.custody c + givenOut c s (.timeout t : Call AccountId) := by
  cases t with
  | get | response => cases h
  | post req =>
    simp only [State.onTimeout, bind_eq_ok, pure_eq_ok] at h
    obtain ⟨body, hbody, r, hr, s₁, hrelease, rfl⟩ := h
    obtain ⟨hflow, ledger, rfl⟩ := release_flow hrelease c
    refine ⟨hnative, ?_⟩
    have hgiven : givenOut c s (.timeout (.post req) : Call AccountId) =
        if c = r.localAssetId then r.amount else 0 := by
      simp only [givenOut, hbody, bind, Except.bind, hr, Incoming.amountOf]
    rw [hgiven]
    have hle := hflow.custody_le
    exact hle.trans (Nat.add_le_add_left (ite_and_le _ _ _) _)

theorem step_custody {call : Call AccountId} (hmoves : call.Moves)
    (hnative : s.nativeAssets c = true) (hok : Orderly s call) (h : step rt s call = .ok s') :
    s'.nativeAssets c = true ∧
      s.custody c + teleported c s call ≤ s'.custody c + givenOut c s call := by
  cases call with
  | teleport origin params =>
    cases origin with
    | signed who =>
      simp only [step, bind_eq_ok, pure_eq_ok] at h
      obtain ⟨⟨commitment, s₁⟩, hteleport, rfl⟩ := h
      exact doTeleport_custody hnative hok hok hteleport
    | control | admin => cases h
  | sendAndCall d sender recipient dest amount timeout data payer fee =>
    simp only [step, bind_eq_ok, pure_eq_ok] at h
    obtain ⟨⟨commitment, s₁⟩, hteleport, rfl⟩ := h
    exact doTeleport_custody hnative hok.1 hok.2 hteleport
  | accept req => exact accept_custody hnative hok (Attempt.commit_eq_ok.mp h)
  | timeout t => exact timeout_custody hnative h
  | setTokenGatewayAddresses | createErc6160Asset | updateErc6160Asset
  | setWhitelistAddresses => exact hmoves.elim

/-- A request accepted without a call is released once exactly where the gateway is the beneficiary
of what is minted and of nothing else; and over a run of such requests, of teleports and of
timeouts, the gateway keeps what was teleported out and not given out again. -/
theorem custody_kept (rt : Runtime cfg) :
    (∀ (s s' : State cfg) (req : PostRequest) (r : Incoming), s.incoming req = .ok r →
      r.CallFree s req → s.onAccept rt req = (s', none) →
      (ReleasedOnce s s' r.localAssetId r.amount ↔ r.Once s req)) ∧
    ∀ (s : State cfg) (calls : List (Call AccountId)) (c : CurrencyId), s.nativeAssets c = true →
      (∀ call ∈ calls, call.Moves) → Meets (step rt) Orderly s calls →
      s.custody c + total (step rt) (teleported c) s calls ≤
        (run (step rt) s calls).custody c + total (step rt) (givenOut c) s calls := by
  refine ⟨fun s s' req r hr hfree h => accept_releasedOnce_iff hr hfree h, ?_⟩
  intro s calls c hnative hmoves hmeets
  have hscope : Meets (step rt) (fun _ call => call.Moves) s calls :=
    meets_of_forall calls (fun call hcall _ => hmoves call hcall) s
  refine add_total_le_run (I := fun s => s.nativeAssets c = true) (f := fun s => s.custody c) ?_
    hnative (hscope.and hmeets)
  intro s call s' hnative hok h
  exact step_custody hok.1 hnative hok.2 h

instance (s s' : State cfg) (c : CurrencyId) (n : ℕ) : Decidable (ReleasedOnce s s' c n) :=
  inferInstanceAs (Decidable (_ = _))

namespace Sample

def contract : Word := .ofNat 5

/-- DOT can be minted from, at the order of the contract. -/
def mintStart : State config :=
  { start with
    slpx := { start.slpx with
      minting := { start.slpx.minting with
        tokenToVToken := fun c => if c = dot then some (.vToken .DOT) else none } }
    whitelistAddresses := fun _ => [contract.bytes.drop 12] }

def orderData : Calldata := ⟨(Word.ofNat 1).bytes ++ (Word.ofNat 0).bytes, by decide⟩

def orderBody (beneficiary : Word) : BodyWithCall :=
  ⟨⟨.ofNat (40 * 10 ^ 8), dotId, false, contract, beneficiary⟩, orderData⟩

def order (beneficiary : Word) : PostRequest where
  source := .evm 1
  dest := .polkadot 2030
  nonce := 0
  sender := [1]
  body := 0 :: Standard.encodeBodyWithCall (orderBody beneficiary)

def ordered : Incoming := ⟨(orderBody gateway).request, dot, 18, 40⟩

end Sample

theorem minted_request_is_released_twice :
    let result := Sample.mintStart.onAccept Sample.runtime (Sample.order Sample.alice)
    result.2.isNone = true ∧ Sample.mintStart.custody Sample.dot = 100 ∧
      result.1.custody Sample.dot = 20 ∧
      ¬ReleasedOnce Sample.mintStart result.1 Sample.dot 40 := by
  decide +kernel

theorem custody_kept_sample :
    let s := Sample.mintStart
    let s' := (s.onAccept Sample.runtime (Sample.order Sample.gateway)).1
    let calls := [.accept (Sample.order Sample.gateway)]
    (ReleasedOnce s s' Sample.dot 40 ↔ Sample.ordered.Once s (Sample.order Sample.gateway)) ∧
      s.custody Sample.dot + total (step Sample.runtime) (teleported Sample.dot) s calls ≤
        (run (step Sample.runtime) s calls).custody Sample.dot +
          total (step Sample.runtime) (givenOut Sample.dot) s calls := by
  have hr : Sample.mintStart.incoming (Sample.order Sample.gateway) = .ok Sample.ordered := by
    decide +kernel
  have hdone :
      (Sample.mintStart.onAccept Sample.runtime (Sample.order Sample.gateway)).2 = none := by
    decide +kernel
  have hfree : Sample.ordered.CallFree Sample.mintStart (Sample.order Sample.gateway) := by
    intro callData hdata
    obtain rfl := Option.some.inj hdata
    decide +kernel
  have honce : Sample.ordered.Once Sample.mintStart (Sample.order Sample.gateway) :=
    Or.inr (iff_of_true rfl ⟨_, (1, 0), rfl, by decide +kernel⟩)
  obtain ⟨hiff, hkept⟩ := custody_kept Sample.runtime
  refine ⟨hiff _ _ _ Sample.ordered hr hfree (by rw [← hdone]), ?_⟩
  refine hkept Sample.mintStart _ Sample.dot rfl ?_ ⟨fun _ _ => ?_, trivial⟩
  · intro call hcall
    obtain rfl := List.mem_singleton.mp hcall
    trivial
  · intro r hincoming
    obtain rfl := Except.ok.inj (hr.symm.trans hincoming)
    exact ⟨hfree, honce⟩

end Bifrost.TokenGateway
