import Bifrost.TokenGateway.Custody

/-!
# Teleports that time out

The refund reads the asset and the amount back from the message. The amount survives the two
conversions; the asset is looked up under its id, and belongs to whoever registered that id last.
-/

namespace Bifrost.TokenGateway

open Result Machine Relation
set_option autoImplicit false

/-! The registry. -/

structure Registry where
  supportedAssets : CurrencyId → Option H256
  nativeAssets : CurrencyId → Bool
  localAssets : H256 → Option CurrencyId
  decimals : CurrencyId → Option ℕ

namespace Registry

def register (R : Registry) (assetId : H256) (localId : CurrencyId) (native : Bool) :
    Registry where
  supportedAssets := Function.update R.supportedAssets localId (some assetId)
  nativeAssets := Function.update R.nativeAssets localId native
  localAssets := Function.update R.localAssets assetId (some localId)
  decimals := Function.update R.decimals localId (some 18)

/-- Every asset has the decimals of an ERC6160 asset. -/
structure Regular (R : Registry) : Prop where
  eighteen : ∀ {c n}, R.decimals c = some n → n = 18
  known : ∀ {id c}, R.localAssets id = some c → R.decimals c = some 18

/-- The id of an asset stands for it. -/
def Inverse (R : Registry) : Prop :=
  ∀ {c id}, R.supportedAssets c = some id → R.localAssets id = some c

end Registry

variable {R R' : Registry}

def Registration (R R' : Registry) : Prop :=
  ∃ assetId localId native, R' = R.register assetId localId native

/-- A registration of an id that is no other asset's. -/
def FreshRegistration (R R' : Registry) : Prop :=
  ∃ assetId localId native, (∀ c, R.localAssets assetId = some c → c = localId) ∧
    R' = R.register assetId localId native

theorem Registry.Regular.register (hR : R.Regular) (h : Registration R R') : R'.Regular := by
  obtain ⟨assetId, localId, native, rfl⟩ := h
  constructor
  · intro c n hn
    simp only [Registry.register, Function.update_apply] at hn
    split at hn
    · exact (Option.some.inj hn).symm
    · exact hR.eighteen hn
  · intro id c hc
    simp only [Registry.register, Function.update_apply] at hc ⊢
    split
    · rfl
    · rename_i hne
      split at hc
      · exact absurd (Option.some.inj hc).symm hne
      · exact hR.known hc

theorem Registry.localAssets_of_fresh {id : H256} {c : CurrencyId}
    (hid : R.localAssets id = some c) (h : FreshRegistration R R') :
    R'.localAssets id = some c := by
  obtain ⟨assetId, localId, native, hfresh, rfl⟩ := h
  simp only [Registry.register, Function.update_apply]
  split
  · rename_i heq
    subst heq
    rw [hfresh c hid]
  · exact hid

theorem Registry.Inverse.register (hR : R.Inverse) (h : FreshRegistration R R') : R'.Inverse := by
  intro c id hid
  have hkept : ∀ c', R.localAssets id = some c' → R'.localAssets id = some c' :=
    fun c' hc' => localAssets_of_fresh hc' h
  obtain ⟨assetId, localId, native, hfresh, rfl⟩ := h
  simp only [Registry.register, Function.update_apply] at hid
  split at hid
  · rename_i heq
    obtain rfl := Option.some.inj hid
    simp [Registry.register, heq]
  · exact hkept c (hR hid)

theorem registrations_keep {P : Registry → Registry → Prop} {I : Registry → Prop}
    (hI : ∀ R R', P R R' → I R → I R') (h : ReflTransGen P R R') (hR : I R) : I R' := by
  induction h with
  | refl => exact hR
  | tail _ hstep ih => exact hI _ _ hstep ih

variable {AccountId : Type} [DecidableEq AccountId] {cfg : Config AccountId}

def State.registry (s : State cfg) : Registry :=
  ⟨s.supportedAssets, s.nativeAssets, s.localAssets, s.decimals⟩

/-- Only registrations write the registry, also where a call is attached to a request. -/
def Runtime.OnlyRegisters (rt : Runtime cfg) : Prop :=
  ∀ origin call s s', rt.dispatch origin call s = some s' →
    ReflTransGen Registration s.registry s'.registry

/-- What the call registers, or a call attached to it, is as `P` says. -/
def Registers (rt : Runtime cfg) (P : Registry → Registry → Prop) (s : State cfg) :
    Call AccountId → Prop
  | .createErc6160Asset _ asset native =>
    P s.registry (s.registry.register (cfg.keccak asset.symbol) asset.localId native)
  | .accept req => ∀ r callData call, s.incoming req = .ok r → r.body.data = some callData →
    rt.decode callData = some call → ∀ origin s₁ s₂, s₁.registry = s.registry →
      rt.dispatch origin call s₁ = some s₂ → ReflTransGen P s.registry s₂.registry
  | _ => True

variable {rt : Runtime cfg} {P : Registry → Registry → Prop} {s s' : State cfg}

@[simp] theorem depositEvent_registry (s : State cfg) (e : Event AccountId) :
    (s.depositEvent e).registry = s.registry := rfl

@[simp] theorem setLedger_registry (s : State cfg) (L : cfg.slpx.minting.currency.Ledger) :
    (s.setLedger L).registry = s.registry := rfl

theorem dispatch_registry {post : DispatchPost} {payer : AccountId} {fee : ℕ} {e : Error}
    {commitment : H256} (h : s.dispatch post payer fee e = .ok (commitment, s')) :
    s'.registry = s.registry := by
  obtain ⟨ledger, -, rfl⟩ := dispatch_ok h
  rfl

theorem tellGovernor_registry {encoded : Bytes} (h : s.tellGovernor encoded = .ok s') :
    s'.registry = s.registry := by
  simp only [State.tellGovernor, bind_eq_ok, pure_eq_ok] at h
  obtain ⟨dest, -, ⟨commitment, s₁⟩, hdispatch, rfl⟩ := h
  rw [depositEvent_registry, dispatch_registry hdispatch]

theorem doTeleport_registry {c : CurrencyId} {sender payer : AccountId}
    {recipient commitment : H256} {dest : StateMachine} {amount : Balance} {timeout fee : ℕ}
    {data : Option Calldata}
    (h : s.doTeleport c sender recipient dest amount timeout data payer fee =
      .ok (commitment, s')) : s'.registry = s.registry := by
  obtain ⟨assetId, ercDecimals, address, L, L', -, -, -, -, rfl⟩ := doTeleport_ok h
  rfl

theorem release_registry {req : PostRequest} {c : CurrencyId} {b : AccountId} {n : ℕ}
    (h : s.release req c b n = .ok s') : s'.registry = s.registry := by
  obtain ⟨-, ledger, rfl⟩ := release_flow h c
  rfl

theorem setWhitelist_registry {addresses : List (StateMachine × List Bytes)}
    (h : addresses.foldlM State.setWhitelist s = .ok s') : s'.registry = s.registry := by
  refine foldlM_invariant (I := fun t : State cfg => t.registry = s.registry) ?_ rfl h
  intro entry _ t t' ht hstep
  simp only [State.setWhitelist, bind_eq_ok, ensure_eq_ok, pure_eq_ok] at hstep
  obtain ⟨-, -, rfl⟩ := hstep
  exact ht

theorem insertAddress_registry (addresses : List (StateMachine × Bytes)) (s : State cfg) :
    (addresses.foldl State.insertAddress s).registry = s.registry := by
  induction addresses generalizing s with
  | nil => rfl
  | cons entry rest ih => exact ih (s.insertAddress entry)

theorem handleData_registry {req : PostRequest} {r : Incoming} (hr : s.incoming req = .ok r)
    (hP : Registers rt P s (.accept req)) {s₁ s₂ : State cfg} (hs₁ : s₁.registry = s.registry)
    (h : State.handleData rt s₁ req r = (s₂, none)) :
    ReflTransGen P s.registry s₂.registry := by
  unfold State.handleData at h
  cases hdata : r.body.data with
  | none =>
    simp only [hdata] at h
    obtain rfl := congrArg Prod.fst h
    rw [hs₁]
  | some callData =>
    simp only [hdata] at h
    cases horder : s₁.mintOrder req r.body callData with
    | some order =>
      simp only [horder, State.mintOrdered] at h
      split at h
      · cases h
      · split at h
        · obtain rfl := congrArg Prod.fst h
          rw [← hs₁]
          exact .refl
        · cases h
    | none =>
      simp only [horder, State.dispatchCall] at h
      split at h
      · cases h
      · rename_i call hcall
        split at h
        · cases h
        · rename_i s₃ hdispatch
          obtain rfl := congrArg Prod.fst h
          exact hP r callData call hr hdata hcall _ s₁ s₃ hs₁ hdispatch

theorem accept_registry {req : PostRequest} (hP : Registers rt P s (.accept req))
    (h : s.onAccept rt req = (s', none)) : ReflTransGen P s.registry s'.registry := by
  rcases onAccept_cases rt s req with ⟨-, e, heq⟩ | ⟨r, s₁, hreleased, hcase⟩
  · rw [heq] at h
    cases h
  cases hr : s.incoming req with
  | error e =>
    simp only [State.released, hr] at hreleased
    cases hreleased
  | ok r' =>
    obtain ⟨rfl, hrelease⟩ := released_of_incoming hr hreleased
    rcases hcase with ⟨s₂, e, -, heq⟩ | ⟨s₂, hdone, heq⟩
    · rw [heq] at h
      cases h
    · rw [heq] at h
      obtain rfl := congrArg Prod.fst h
      rw [depositEvent_registry]
      exact handleData_registry hr hP (release_registry hrelease) hdone

theorem step_registry {call : Call AccountId} (hP : Registers rt P s call)
    (h : step rt s call = .ok s') : ReflTransGen P s.registry s'.registry := by
  have hsame : s'.registry = s.registry → ReflTransGen P s.registry s'.registry := by
    intro heq
    rw [heq]
  cases call with
  | teleport origin params =>
    cases origin with
    | signed who =>
      simp only [step, bind_eq_ok, pure_eq_ok] at h
      obtain ⟨⟨commitment, s₁⟩, hteleport, rfl⟩ := h
      exact hsame (doTeleport_registry hteleport)
    | control | admin => cases h
  | sendAndCall d sender recipient dest amount timeout data payer fee =>
    simp only [step, bind_eq_ok, pure_eq_ok] at h
    obtain ⟨⟨commitment, s₁⟩, hteleport, rfl⟩ := h
    exact hsame (doTeleport_registry hteleport)
  | setTokenGatewayAddresses origin addresses =>
    simp only [step, bind_eq_ok, pure_eq_ok] at h
    obtain ⟨-, -, rfl⟩ := h
    exact hsame (insertAddress_registry addresses s)
  | createErc6160Asset origin asset native =>
    simp only [step, State.createErc6160Asset, bind_eq_ok] at h
    obtain ⟨-, -, ledger, -, htell⟩ := h
    rw [tellGovernor_registry htell]
    exact .single hP
  | updateErc6160Asset origin encoded =>
    simp only [step, State.updateErc6160Asset, bind_eq_ok] at h
    obtain ⟨-, -, ledger, -, htell⟩ := h
    exact hsame (tellGovernor_registry (s := s.setLedger ledger) htell)
  | setWhitelistAddresses origin addresses =>
    simp only [step, bind_eq_ok] at h
    obtain ⟨-, -, hset⟩ := h
    exact hsame (setWhitelist_registry hset)
  | accept req => exact accept_registry hP (Attempt.commit_eq_ok.mp h)
  | timeout t =>
    cases t with
    | get | response => cases h
    | post req =>
      simp only [step, State.onTimeout, bind_eq_ok, pure_eq_ok] at h
      obtain ⟨body, -, r, -, s₁, hrelease, rfl⟩ := h
      rw [depositEvent_registry, release_registry hrelease]

theorem run_registry {calls : List (Call AccountId)}
    (hP : Meets (step rt) (Registers rt P) s calls) :
    ReflTransGen P s.registry (run (step rt) s calls).registry := by
  refine run_invariant (I := fun t => ReflTransGen P s.registry t.registry) ?_ calls .refl hP
  intro t call t' ht hcall h
  exact ht.trans (step_registry hcall h)

theorem registers_of_onlyRegisters (hrt : rt.OnlyRegisters) (s : State cfg)
    (call : Call AccountId) : Registers rt Registration s call := by
  cases call with
  | createErc6160Asset origin asset native => exact ⟨_, _, _, rfl⟩
  | accept req =>
    intro r callData call _ _ _ origin s₁ s₂ hs₁ hdispatch
    rw [← hs₁]
    exact hrt origin call s₁ s₂ hdispatch
  | teleport | sendAndCall | setTokenGatewayAddresses | updateErc6160Asset
  | setWhitelistAddresses | timeout => trivial

theorem run_regular (hrt : rt.OnlyRegisters) (calls : List (Call AccountId))
    (hs : s.registry.Regular) : (run (step rt) s calls).registry.Regular := by
  have hP : Meets (step rt) (Registers rt Registration) s calls :=
    meets_of_forall calls (fun call _ t => registers_of_onlyRegisters hrt t call) s
  exact registrations_keep (fun _ _ h hR => hR.register h) (run_registry hP) hs

/-! The amount. -/

theorem scale_eq {ercDecimals : ℕ} (h : ercDecimals ≤ 38) (decimals : ℕ) :
    scale ercDecimals decimals = 10 ^ (ercDecimals - decimals) := by
  have hpow : (10 : ℕ) ^ (ercDecimals - decimals) ≤ 10 ^ 38 :=
    Nat.pow_le_pow_right (by omega) (by omega)
  exact Nat.mod_eq_of_lt (lt_of_le_of_lt hpow (by norm_num))

theorem convertToBalance_convertToErc20 {n ercDecimals : ℕ} (hn : n < 2 ^ 128)
    (h : ercDecimals ≤ 38) (decimals : ℕ) :
    convertToBalance (Word.ofNat (convertToErc20 n ercDecimals decimals)).toNat ercDecimals
      decimals = .ok n := by
  have hscale := scale_eq h decimals
  have hpos : 0 < scale ercDecimals decimals := by
    rw [hscale]
    exact Nat.pow_pos (by omega)
  have hle : scale ercDecimals decimals ≤ 10 ^ 38 := by
    rw [hscale]
    exact Nat.pow_le_pow_right (by omega) (by omega)
  have hword : convertToErc20 n ercDecimals decimals < 2 ^ 256 := by
    calc n * scale ercDecimals decimals
        ≤ 2 ^ 128 * 10 ^ 38 := Nat.mul_le_mul hn.le hle
      _ < 2 ^ 256 := by norm_num
  have hdiv : convertToErc20 n ercDecimals decimals / scale ercDecimals decimals = n :=
    Nat.mul_div_cancel n hpos
  have hmax : n ≤ u128Max := Nat.le_pred_of_lt hn
  simp only [convertToBalance, bind_eq_ok, ensure_eq_ok, pure_eq_ok]
  rw [Word.toNat_ofNat hword, hdiv]
  exact ⟨⟨⟩, hpos.ne', ⟨⟩, hmax, rfl⟩

theorem convertToBalance_zero {ercDecimals decimals : ℕ} (h : ercDecimals ≤ 38) :
    convertToBalance 0 ercDecimals decimals = .ok 0 := by
  have hscale : scale ercDecimals decimals ≠ 0 := by
    rw [scale_eq h decimals]
    exact (Nat.pow_pos (by omega)).ne'
  simp only [convertToBalance, bind_eq_ok, ensure_eq_ok, pure_eq_ok, Nat.zero_div]
  exact ⟨⟨⟩, hscale, ⟨⟩, Nat.zero_le _, trivial⟩

/-! The refund. -/

def State.balance (s : State cfg) (c : CurrencyId) (x : AccountId) : ℕ :=
  cfg.slpx.minting.currency.freeBalance s.ledger c x

/-- The request can time out, and then the account has the amount of the currency more, and of the
others what it had. -/
def GivesBack (s : State cfg) (req : PostRequest) (c : CurrencyId) (x : AccountId) (n : ℕ) :
    Prop :=
  ∃ s', s.onTimeout (.post req) = .ok s' ∧
    ∀ d, s'.balance d x = s.balance d x + if d = c then n else 0

/-- The gateway has the amount and may pay it, or it may be deposited. -/
def State.CanPay (s : State cfg) (c : CurrencyId) (x : AccountId) (n : ℕ) : Prop :=
  ∃ L, (if s.nativeAssets c then
    cfg.slpx.minting.currency.transfer s.ledger c cfg.palletAccount x n
  else cfg.slpx.minting.currency.deposit s.ledger c x n) = .ok L

/-- The gateway does not pay itself. -/
def State.Other (s : State cfg) (c : CurrencyId) (x : AccountId) : Prop :=
  s.nativeAssets c = true → x ≠ cfg.palletAccount

/-- The id stands for the currency, and it can be paid. -/
def State.Refundable (s : State cfg) (assetId : H256) (c : CurrencyId) (x : AccountId)
    (n : ℕ) : Prop :=
  ∃ d, s.localAssets assetId = some d ∧ (n = 0 ∨ d = c ∧ s.Other d x) ∧ s.CanPay d x n

theorem release_eq_ok_iff (req : PostRequest) {c : CurrencyId} {x : AccountId} {n : ℕ} :
    (∃ s', s.release req c x n = .ok s') ↔ s.CanPay c x n := by
  unfold State.release State.CanPay
  cases hnative : s.nativeAssets c with
  | true =>
    simp only [if_true, bind_eq_ok, mapErr_eq_ok, pure_eq_ok]
    constructor
    · rintro ⟨s', L, hL, -⟩
      exact ⟨L, hL⟩
    · rintro ⟨L, hL⟩
      exact ⟨_, L, hL, rfl⟩
  | false =>
    simp only [Bool.false_eq_true, if_false, bind_eq_ok, mapErr_eq_ok, pure_eq_ok]
    constructor
    · rintro ⟨s', L, hL, -⟩
      exact ⟨L, hL⟩
    · rintro ⟨L, hL⟩
      exact ⟨_, L, hL, rfl⟩

theorem release_balance {req : PostRequest} {c : CurrencyId} {x : AccountId} {n : ℕ}
    (h : s.release req c x n = .ok s') (d : CurrencyId) :
    (s.Other c x → s'.balance d x = s.balance d x + if d = c then n else 0) ∧
      (¬s.Other c x → s'.balance d x = s.balance d x) := by
  unfold State.release at h
  simp only at h
  split at h
  · rename_i hnative
    simp only [bind_eq_ok, mapErr_eq_ok, pure_eq_ok] at h
    obtain ⟨L, hL, rfl⟩ := h
    constructor
    · intro hother
      exact cfg.slpx.minting.currency.transfer_in hL (Ne.symm (hother hnative)) d
    · intro hself
      have heq : x = cfg.palletAccount := by
        by_contra hne
        exact hself fun _ => hne
      exact cfg.slpx.minting.currency.transfer_frame hL (Or.inl heq.symm)
  · rename_i hnative
    simp only [bind_eq_ok, mapErr_eq_ok, pure_eq_ok] at h
    obtain ⟨L, hL, rfl⟩ := h
    constructor
    · intro _
      have hcredit := cfg.slpx.deposit_credits hL d x
      simp only [and_true] at hcredit
      exact hcredit
    · intro hself
      exact absurd (fun h => absurd h hnative) hself

theorem decodeRequest_teleportBody (cfg : Config AccountId) (assetId : H256) (redeem : Bool)
    (sender : AccountId) (recipient : H256) (n : ℕ) (data : Option Calldata) :
    State.decodeRequest cfg (State.teleportBody cfg assetId redeem sender recipient n data) =
      .ok ⟨⟨.ofNat n, assetId, redeem, cfg.encode sender, recipient⟩, data.map (·.val)⟩ := by
  cases data with
  | none =>
    simp only [State.teleportBody, State.decodeRequest, cfg.abi.decodeRequest_encodeBody,
      Body.request, okOr, Option.map_none]
  | some data =>
    simp only [State.teleportBody, State.decodeRequest, cfg.abi.decodeRequest_encodeBodyWithCall,
      BodyWithCall.request, okOr, Option.map_some]

section Timeout

variable {req : PostRequest} {assetId : H256} {redeem : Bool} {sender : AccountId}
  {recipient : H256} {data : Option Calldata} {c : CurrencyId} {n : ℕ}

theorem onTimeout_teleportBody (hreg : s.registry.Regular)
    (hbody : req.body = State.teleportBody cfg assetId redeem sender recipient
      (convertToErc20 n 18 (cfg.localDecimals c)) data) :
    s.onTimeout (.post req) = .ok s' ↔ ∃ d m s₁, s.localAssets assetId = some d ∧
      convertToBalance (Word.ofNat (convertToErc20 n 18 (cfg.localDecimals c))).toNat 18
        (cfg.localDecimals d) = .ok m ∧
      s.release req d sender m = .ok s₁ ∧
      s' = s₁.depositEvent (.assetRefunded sender m req.dest) := by
  simp only [State.onTimeout, hbody, decodeRequest_teleportBody, State.resolve, bind_eq_ok,
    okOr_eq_ok, mapErr_eq_ok, pure_eq_ok, Except.ok.injEq]
  constructor
  · rintro ⟨body, rfl, r, ⟨d, hd, ercDecimals, herc, m, hm, rfl⟩, s₁, hrelease, rfl⟩
    have h18 : ercDecimals = 18 := hreg.eighteen herc
    subst h18
    simp only [cfg.accountOf_encode] at hrelease ⊢
    exact ⟨d, m, s₁, hd, hm, hrelease, rfl⟩
  · rintro ⟨d, m, s₁, hd, hm, hrelease, rfl⟩
    refine ⟨_, rfl, _, ⟨d, hd, 18, hreg.known hd, m, hm, rfl⟩, s₁, ?_, ?_⟩
    · simp only [cfg.accountOf_encode]
      exact hrelease
    · simp only [cfg.accountOf_encode]

/-- A timeout gives the amount back exactly where its id still stands for the currency, and the
gateway pays somebody else; of nothing there is nothing to give. -/
theorem givesBack_iff (hreg : s.registry.Regular) (hn : n < 2 ^ 128)
    (hbody : req.body = State.teleportBody cfg assetId redeem sender recipient
      (convertToErc20 n 18 (cfg.localDecimals c)) data) :
    GivesBack s req c sender n ↔ s.Refundable assetId c sender n := by
  have hsame := convertToBalance_convertToErc20 hn (show 18 ≤ 38 by omega) (cfg.localDecimals c)
  constructor
  · rintro ⟨s', h, hall⟩
    obtain ⟨d, m, s₁, hd, hm, hrelease, rfl⟩ := (onTimeout_teleportBody hreg hbody).mp h
    have hbalance := release_balance hrelease c
    have hpaid : s₁.balance c sender = s.balance c sender + n := by
      have hc := hall c
      rwa [if_pos rfl] at hc
    by_cases hzero : n = 0
    · subst hzero
      have hm0 : m = 0 := by
        have hnone : convertToErc20 0 18 (cfg.localDecimals c) = 0 := Nat.zero_mul _
        rw [hnone, Word.toNat_ofNat (by norm_num), convertToBalance_zero (by omega)] at hm
        exact (Except.ok.inj hm).symm
      subst hm0
      exact ⟨d, hd, Or.inl rfl, (release_eq_ok_iff req).mp ⟨s₁, hrelease⟩⟩
    · have hother : s.Other d sender := by
        by_contra hself
        have hkept := hbalance.2 hself
        omega
      have hdc : c = d := by
        by_contra hne
        have hkept := hbalance.1 hother
        rw [if_neg hne] at hkept
        omega
      subst hdc
      obtain rfl := Except.ok.inj (hsame.symm.trans hm)
      exact ⟨c, hd, Or.inr ⟨rfl, hother⟩, (release_eq_ok_iff req).mp ⟨s₁, hrelease⟩⟩
  · rintro ⟨d, hd, hcase, hpay⟩
    obtain ⟨s₁, hrelease⟩ := (release_eq_ok_iff req).mpr hpay
    have hm : convertToBalance (Word.ofNat (convertToErc20 n 18 (cfg.localDecimals c))).toNat 18
        (cfg.localDecimals d) = .ok n := by
      rcases hcase with rfl | ⟨rfl, -⟩
      · have hnone : convertToErc20 0 18 (cfg.localDecimals c) = 0 := Nat.zero_mul _
        rw [hnone, Word.toNat_ofNat (by norm_num), convertToBalance_zero (by omega)]
      · exact hsame
    refine ⟨_, (onTimeout_teleportBody hreg hbody).mpr ⟨d, n, s₁, hd, hm, hrelease, rfl⟩, ?_⟩
    intro e
    have hbalance := release_balance hrelease e
    change s₁.balance e sender = _
    rcases hcase with rfl | ⟨rfl, hother⟩
    · by_cases hother : s.Other d sender
      · rw [hbalance.1 hother]
        simp
      · rw [hbalance.2 hother]
        simp
    · exact hbalance.1 hother

end Timeout

def genesis (slpx : Slpx.State cfg.slpx) : State cfg where
  slpx := slpx
  supportedAssets := fun _ => none
  nativeAssets := fun _ => false
  localAssets := fun _ => none
  decimals := fun _ => none
  tokenGatewayAddresses := fun _ => none
  whitelistAddresses := fun _ => []
  accountNonce := fun _ => 0
  requests := []
  events := []

theorem genesis_regular (slpx : Slpx.State cfg.slpx) : (genesis slpx).registry.Regular :=
  ⟨nofun, nofun⟩

/-- The request of a teleport that times out after any run gives the amount back exactly where its
asset's id stands for the currency again, or nothing was sent, and it can be paid; and where no id
is ever registered for a second asset, the id does stand for it. -/
theorem timeout_gives_back (hrt : rt.OnlyRegisters) (slpx : Slpx.State cfg.slpx)
    (earlier later : List (Call AccountId)) {c : CurrencyId} {sender payer : AccountId}
    {recipient commitment : H256} {dest : StateMachine} {amount : Balance} {timeout fee : ℕ}
    {data : Option Calldata} {s₁ : State cfg}
    (h : (run (step rt) (genesis slpx) earlier).doTeleport c sender recipient dest amount timeout
      data payer fee = .ok (commitment, s₁)) :
    let s := run (step rt) (genesis slpx) earlier
    let s₂ := run (step rt) s₁ later
    ∃ assetId post, s.supportedAssets c = some assetId ∧
      s₁.requests = s.requests ++ [(commitment, post)] ∧
      ∀ req : PostRequest, req.body = post.body →
        (GivesBack s₂ req c sender amount.val ↔ s₂.Refundable assetId c sender amount.val) ∧
        (Meets (step rt) (Registers rt FreshRegistration) (genesis slpx) earlier →
          Meets (step rt) (Registers rt FreshRegistration) s₁ later →
          s₂.localAssets assetId = some c ∧
            (s₂.Other c sender → s₂.CanPay c sender amount.val →
              GivesBack s₂ req c sender amount.val)) := by
  intro s s₂
  have hregular : s.registry.Regular := run_regular hrt earlier (genesis_regular slpx)
  have hkept : s₁.registry = s.registry := doTeleport_registry h
  have hregular₂ : s₂.registry.Regular := by
    apply run_regular hrt later
    rw [hkept]
    exact hregular
  obtain ⟨assetId, ercDecimals, address, L, L', hasset, herc, -, -, rfl⟩ := doTeleport_ok h
  have h18 : ercDecimals = 18 := hregular.eighteen herc
  subst h18
  refine ⟨assetId, _, hasset, rfl, fun req hbody => ?_⟩
  have hiff : GivesBack s₂ req c sender amount.val ↔
      s₂.Refundable assetId c sender amount.val :=
    givesBack_iff hregular₂ amount.isLt hbody
  refine ⟨hiff, fun hearlier hlater => ?_⟩
  have hinverse : s.registry.Inverse :=
    registrations_keep (I := Registry.Inverse) (fun _ _ hstep hR => hR.register hstep)
      (run_registry hearlier) nofun
  have hid : s₂.localAssets assetId = some c := by
    refine registrations_keep (I := fun R => R.localAssets assetId = some c)
      (fun _ _ hstep hR => Registry.localAssets_of_fresh hR hstep) (run_registry hlater) ?_
    rw [hkept]
    exact hinverse hasset
  refine ⟨hid, fun hother hpay => ?_⟩
  exact hiff.mpr ⟨c, hid, Or.inr ⟨rfl, hother⟩, hpay⟩

namespace Sample

def ksm : CurrencyId := .token .KSM

def savings : Slpx.State slpx :=
  Slpx.genesis (VtokenMinting.genesis _ ⟨fun c x => if c = dot ∧ x = alice then 100 else 0,
    fun c => if c = dot then 100 else 0⟩) ⟨.one, 10⟩

def opening : List (Call Word) :=
  [.createErc6160Asset .control ⟨dot, [68, 79, 84], []⟩ true,
    .setTokenGatewayAddresses .admin [(.evm 1, [1])]]

def opened : State config := run (step runtime) (genesis savings) opening

def sendDot (s : State config) : Except Fault (H256 × State config) :=
  s.doTeleport dot alice (.ofNat 5) (.evm 1) ⟨40, by omega⟩ 3600 none alice 0

def sent : H256 × State config :=
  match sendDot opened with
  | .ok result => result
  | .error _ => (.ofNat 0, opened)

theorem sendDot_opened : sendDot opened = .ok sent := by
  have hok : (sendDot opened).isOk = true := by decide +kernel
  unfold sent
  cases h : sendDot opened with
  | ok result => rfl
  | error e =>
    rw [h] at hok
    cases hok

def lastRequest (s : State config) : PostRequest where
  source := .polkadot 2030
  dest := .evm 1
  nonce := 0
  sender := [1]
  body := (s.requests.getLast?.map fun request => request.2.body).getD []

def overwrite : Call Word := .createErc6160Asset .control ⟨ksm, [68, 79, 84], []⟩ false

def another : Call Word :=
  .teleport (.signed alice) ⟨dot, .evm 1, .ofNat 5, ⟨7, by omega⟩, 3600, 0, none⟩

end Sample

/-- A second asset under the symbol of the first one takes over its refund. -/
theorem refund_pays_another_currency :
    let req := Sample.lastRequest Sample.sent.2
    let s := exec (step Sample.runtime) Sample.sent.2 Sample.overwrite
    let s' := exec (step Sample.runtime) s (.timeout (.post req))
    Sample.sendDot Sample.opened = .ok Sample.sent ∧
      Sample.opened.balance Sample.dot Sample.alice = 100 ∧
      s.balance Sample.dot Sample.alice = 60 ∧ s.balance Sample.ksm Sample.alice = 0 ∧
      s'.balance Sample.dot Sample.alice = 60 ∧ s'.balance Sample.ksm Sample.alice = 4000 ∧
      ¬GivesBack s req Sample.dot Sample.alice 40 := by
  intro req s s'
  refine ⟨Sample.sendDot_opened, by decide +kernel, by decide +kernel, by decide +kernel,
    by decide +kernel, by decide +kernel, ?_⟩
  rintro ⟨t, ht, hall⟩
  have hstep : step Sample.runtime s (.timeout (.post req)) = .ok t := ht
  have ht' : s' = t := exec_ok hstep
  have hdot : s'.balance Sample.dot Sample.alice = s.balance Sample.dot Sample.alice + 40 := by
    rw [ht']
    exact hall Sample.dot
  revert hdot
  decide +kernel

theorem timeout_gives_back_sample :
    let s₂ := run (step Sample.runtime) Sample.sent.2 [Sample.another]
    ∃ post, Sample.sent.2.requests = Sample.opened.requests ++ [(Sample.sent.1, post)] ∧
      ∀ req : PostRequest, req.body = post.body → GivesBack s₂ req Sample.dot Sample.alice 40 := by
  intro s₂
  have hrt : Sample.runtime.OnlyRegisters := fun _ call => nomatch call
  obtain ⟨assetId, post, -, hrequests, hall⟩ := timeout_gives_back hrt Sample.savings
    Sample.opening [Sample.another] Sample.sendDot_opened
  refine ⟨post, hrequests, fun req hbody => ?_⟩
  obtain ⟨-, hgives⟩ := hall req hbody
  have hopening : Meets (step Sample.runtime) (Registers Sample.runtime FreshRegistration)
      (genesis Sample.savings) Sample.opening :=
    ⟨fun _ _ => ⟨_, _, _, nofun, rfl⟩, fun _ _ => trivial, trivial⟩
  have hanother : Meets (step Sample.runtime) (Registers Sample.runtime FreshRegistration)
      Sample.sent.2 [Sample.another] := ⟨fun _ _ => trivial, trivial⟩
  obtain ⟨-, hpaid⟩ := hgives hopening hanother
  have hpay : s₂.CanPay Sample.dot Sample.alice 40 := exists_of_toBool (by decide +kernel)
  exact hpaid (fun _ => by decide) hpay

end Bifrost.TokenGateway
