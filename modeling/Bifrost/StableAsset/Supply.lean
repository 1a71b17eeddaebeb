import Bifrost.StableAsset.Transitions

/-!
# The saved supply of a pool and the issuance of its asset

`collect_fee` brings the saved supply to `D` without a burn where it finds `D` lower. Where it
does not, every operation moves the supply by what it mints and burns, and in a run of such
operations the two agree.
-/

namespace Bifrost.StableAsset

open Result Machine
set_option autoImplicit false

section Agreement

variable {AccountId : Type} {cfg : Config AccountId} {s s' s₁ : State cfg}
  {info info' info₁ : PoolInfo AccountId} {who : AccountId} {minted burned : ℕ}

def SupplyAgrees (s : State cfg) : Prop :=
  ∀ poolId info, s.pools poolId = some info →
    info.totalSupply = cfg.currencies.totalIssuance s.ledger info.poolAsset

/-- No pool asset belongs to two pools. -/
def OwnAssets (s : State cfg) : Prop :=
  ∀ poolId poolId' info info', s.pools poolId = some info → s.pools poolId' = some info' →
    info.poolAsset = info'.poolAsset → poolId = poolId'

/-- The yield, paid in the pool asset, does not count among the balances of the pool. -/
def PoolInfo.SeparateYield (info : PoolInfo AccountId) : Prop :=
  info.poolAsset ∉ info.assets ∨ info.yieldRecipient ≠ info.accountId

instance [DecidableEq AccountId] (info : PoolInfo AccountId) : Decidable info.SeparateYield :=
  inferInstanceAs (Decidable (_ ∨ _))

/-- `collect_fee` does not find `D` below the supply. -/
def FeeCovered (s : State cfg) (info : PoolInfo AccountId) : Prop :=
  Ensures (getPendingFeeAmount s info) fun r => info.totalSupply ≤ r.totalSupply

instance (s : State cfg) (info : PoolInfo AccountId) : Decidable (FeeCovered s info) :=
  inferInstanceAs (Decidable (Ensures _ _))

/-- A supply that moved by what was minted and burned. -/
def Matched (s s' : State cfg) (info info' : PoolInfo AccountId) : Prop :=
  cfg.currencies.totalIssuance s'.ledger info.poolAsset + info.totalSupply =
    cfg.currencies.totalIssuance s.ledger info.poolAsset + info'.totalSupply

theorem Issues.matched (h : Issues s s' info.poolAsset minted burned)
    (hsupply : info'.totalSupply + burned = info.totalSupply + minted) :
    Matched s s' info info' := by
  have hissuance := h.issuance info.poolAsset
  simp only [if_true] at hissuance
  unfold Matched
  omega

theorem collectYield_issues (h : collectYield s info = .ok (s', info')) :
    Issues s s' info.poolAsset (info'.totalSupply - info.totalSupply) 0 ∧
      info.totalSupply ≤ info'.totalSupply := by
  obtain ⟨balances, d, -, hle, rfl, ⟨rfl, rfl⟩ | hdeposit⟩ := collectYield_ok h
  · rw [Nat.sub_self]
    exact ⟨Issues.refl s' info.poolAsset, hle⟩
  · exact ⟨Issues.of_deposit hdeposit, hle⟩

theorem deposit_currentBalances {n : ℕ} (hsep : info.SeparateYield)
    (h : s.deposit info.poolAsset info.yieldRecipient n = .ok s') :
    s'.currentBalances info = s.currentBalances info := by
  obtain ⟨L, hL, rfl⟩ := deposit_ok h
  have hfree : ∀ asset ∈ info.assets, cfg.currencies.freeBalance L asset info.accountId =
      cfg.currencies.freeBalance s.ledger asset info.accountId := by
    intro asset hasset
    apply cfg.currencies.deposit_frame hL
    rcases hsep with hout | hother
    · left
      rintro rfl
      exact hout hasset
    · exact Or.inr fun heq => hother heq.symm
  unfold State.currentBalances
  apply mapM_congr
  rintro ⟨asset, precision⟩ hmem
  simp only [State.balanceOf]
  rw [hfree asset (List.of_mem_zip hmem).1]

/-- Right after the yield is collected, the pool account holds the saved balances and their `D`
is the saved supply. -/
theorem collectYield_valued (hsep : info.SeparateYield)
    (h : collectYield s info = .ok (s', info')) :
    s'.Valued info' info'.balances info'.totalSupply := by
  obtain ⟨balances, d, ⟨hbalances, hd⟩, -, rfl, ⟨-, rfl⟩ | hdeposit⟩ := collectYield_ok h
  · exact ⟨hbalances, hd⟩
  · obtain ⟨L, -, rfl⟩ := deposit_ok hdeposit
    exact ⟨(deposit_currentBalances hsep hdeposit).trans hbalances, hd⟩

theorem on_issues {op : Operation} (hsep : info.SeparateYield)
    (h : op.on s info who = .ok (s', info')) :
    ∃ s₁ info₁ minted burned, collectYield s info = .ok (s₁, info₁) ∧
      Issues s₁ s' info₁.poolAsset minted burned ∧
      info' = { info₁ with balances := info'.balances, totalSupply := info'.totalSupply } ∧
      info'.totalSupply + burned = info₁.totalSupply + minted := by
  have hvalue : ∀ {s₁ info₁ balances d}, collectYield s info = .ok (s₁, info₁) →
      s₁.Valued info₁ balances d → d = info₁.totalSupply := by
    rintro s₁ info₁ balances d hyield ⟨hbalances, hd⟩
    obtain ⟨hbalances', hd'⟩ := collectYield_valued hsep hyield
    rw [hbalances, Option.some_inj] at hbalances'
    rw [hbalances', hd', Except.ok.injEq] at hd
    exact hd.symm
  cases op with
  | mint amounts minMintAmount =>
    obtain ⟨s₁, info₁, r, hyield, hr, -, rfl, hissues⟩ := mintOn_ok h
    obtain ⟨balances, d, hvalued, -, -, -, hsupply, -⟩ := getMintAmount_ok hr
    refine ⟨s₁, info₁, _, _, hyield, hissues, rfl, ?_⟩
    have hd := hvalue hyield hvalued
    simp only
    omega
  | swap i j dx minDy assetLength =>
    obtain ⟨r, assetI, assetJ, s₁, s₂, hyield, -, -, -, -, hin, hout⟩ := swapOn_ok h
    have hissues := (Issues.of_transfer hin info'.poolAsset).trans (Issues.of_transfer hout _)
    exact ⟨s₁, info', _, _, hyield, hissues, rfl, rfl⟩
  | redeemProportion amount mins =>
    obtain ⟨s₁, info₁, r, hyield, hr, rfl, hissues⟩ := redeemProportionOn_ok h
    obtain ⟨balances, d, hvalued, -, -, -, -, -, hsupply⟩ := getRedeemProportionAmount_ok hr
    refine ⟨s₁, info₁, _, _, hyield, hissues, rfl, ?_⟩
    have hd := hvalue hyield hvalued
    simp only
    omega
  | redeemSingle amount i minAmount assetLength =>
    obtain ⟨s₁, info₁, r, hyield, hr, rfl, hissues⟩ := redeemSingleOn_ok h
    obtain ⟨balances, d, _, _, _, hvalued, -, -, -, -, hsupply, -⟩ := getRedeemSingleAmount_ok hr
    refine ⟨s₁, info₁, _, _, hyield, hissues, rfl, ?_⟩
    have hd := hvalue hyield hvalued
    simp only
    omega
  | redeemMulti amounts maxRedeemAmount =>
    obtain ⟨s₁, info₁, r, hyield, hr, -, rfl, hissues⟩ := redeemMultiOn_ok h
    obtain ⟨balances, d, hvalued, -, -, -, hsupply, -⟩ := getRedeemMultiAmount_ok hr
    refine ⟨s₁, info₁, _, _, hyield, hissues, rfl, ?_⟩
    have hd := hvalue hyield hvalued
    simp only
    omega

theorem collectYield_pool (h : collectYield s info = .ok (s', info')) :
    info' = { info with balances := info'.balances, totalSupply := info'.totalSupply } := by
  obtain ⟨balances, d, -, -, rfl, -⟩ := collectYield_ok h
  rfl

theorem on_matched {op : Operation} (hsep : info.SeparateYield)
    (h : op.on s info who = .ok (s', info')) :
    info' = { info with balances := info'.balances, totalSupply := info'.totalSupply } ∧
      ∃ minted burned, Issues s s' info.poolAsset minted burned ∧
        info'.totalSupply + burned = info.totalSupply + minted := by
  obtain ⟨s₁, info₁, minted, burned, hyield, hissues, hpool, hsupply⟩ := on_issues hsep h
  have hpool₁ := collectYield_pool hyield
  obtain ⟨hyielded, hle⟩ := collectYield_issues hyield
  have hasset : info₁.poolAsset = info.poolAsset := by rw [hpool₁]
  rw [hasset] at hissues
  constructor
  · rw [hpool, hpool₁]
  · refine ⟨_, _, hyielded.trans hissues, ?_⟩
    omega

/-- The fee is issued where `D` is above the supply; where it is below, nothing is burned. -/
theorem collectFee_matched_iff (h : collectFee s info = .ok (s', info')) :
    Matched s s' info info' ↔ FeeCovered s info := by
  simp only [collectFee, bind_eq_ok, pure_eq_ok, Prod.mk.injEq] at h
  obtain ⟨r, hr, _, hdeposit, rfl, rfl⟩ := h
  obtain ⟨-, -, hfee⟩ := getPendingFeeAmount_ok hr
  have hissues := (Issues.of_depositNonzero hdeposit).issuance info.poolAsset
  simp only [if_true] at hissues
  have hcovered : FeeCovered s info ↔ info.totalSupply ≤ r.totalSupply := by
    unfold FeeCovered
    rw [hr]
    exact Iff.rfl
  rw [hcovered]
  unfold Matched
  simp only
  omega

theorem collectFee_issues (h : collectFee s info = .ok (s', info')) :
    info' = { info with balances := info'.balances, totalSupply := info'.totalSupply } ∧
      Issues s s' info.poolAsset (info'.totalSupply - info.totalSupply) 0 := by
  simp only [collectFee, bind_eq_ok, pure_eq_ok, Prod.mk.injEq] at h
  obtain ⟨r, hr, _, hdeposit, rfl, rfl⟩ := h
  obtain ⟨-, -, hfee⟩ := getPendingFeeAmount_ok hr
  rw [hfee] at hdeposit
  exact ⟨rfl, Issues.of_depositNonzero hdeposit⟩

theorem operate_agrees_iff {op : Operation}
    (hsep : info.SeparateYield)
    (hsupply : info.totalSupply = cfg.currencies.totalIssuance s.ledger info.poolAsset)
    (hon : op.on s info who = .ok (s₁, info₁)) (hfee : collectFee s₁ info₁ = .ok (s', info')) :
    info'.totalSupply = cfg.currencies.totalIssuance s'.ledger info'.poolAsset ↔
      FeeCovered s₁ info₁ := by
  obtain ⟨hpool, minted, burned, hissues, hmoved⟩ := on_matched hsep hon
  have hmatched := hissues.matched hmoved
  obtain ⟨hpool', -⟩ := collectFee_issues hfee
  rw [← collectFee_matched_iff hfee]
  have hasset : info₁.poolAsset = info.poolAsset := by rw [hpool]
  have hasset' : info'.poolAsset = info.poolAsset := by rw [hpool', hasset]
  unfold Matched at hmatched ⊢
  rw [hasset', hasset]
  omega

/-! Runs. -/

/-- What the agreement asks of a call: a pool is created for an asset of its own that is not
issued yet, no one else issues a pool asset, and an operation's fee is covered. -/
def KeepsSupply (s : State cfg) : Call cfg → Prop
  | .createPool poolAsset _ _ _ _ _ _ _ _ =>
    cfg.currencies.totalIssuance s.ledger poolAsset = 0 ∧
      ∀ poolId info, s.pools poolId = some info → info.poolAsset ≠ poolAsset
  | .operate who poolId op => ∀ info ∈ s.pools poolId,
    info.SeparateYield ∧ Ensures (op.on s info who) fun r => FeeCovered r.1 r.2
  | .environment ledger => ∀ poolId info, s.pools poolId = some info →
    cfg.currencies.totalIssuance ledger info.poolAsset =
      cfg.currencies.totalIssuance s.ledger info.poolAsset
  | _ => True

structure SupplyKept (s : State cfg) : Prop where
  agrees : SupplyAgrees s
  own : OwnAssets s

theorem SupplyKept.write {poolId : ℕ} (hs : SupplyKept s) (hinfo : s.pools poolId = some info)
    (hasset : info'.poolAsset = info.poolAsset)
    (hsupply : info'.totalSupply = cfg.currencies.totalIssuance s'.ledger info.poolAsset)
    (hothers : ∀ d, d ≠ info.poolAsset → cfg.currencies.totalIssuance s'.ledger d =
      cfg.currencies.totalIssuance s.ledger d)
    (hpools : s'.pools = Function.update s.pools poolId (some info')) : SupplyKept s' := by
  have hread : ∀ id i, s'.pools id = some i →
      ∃ i₀, s.pools id = some i₀ ∧ i.poolAsset = i₀.poolAsset ∧
        (id = poolId ∧ i = info' ∨ id ≠ poolId ∧ i = i₀) := by
    intro id i hi
    rw [hpools] at hi
    by_cases hid : id = poolId
    · subst hid
      rw [Function.update_self, Option.some_inj] at hi
      exact ⟨info, hinfo, hi ▸ hasset, Or.inl ⟨rfl, hi.symm⟩⟩
    · rw [Function.update_of_ne hid] at hi
      exact ⟨i, hi, rfl, Or.inr ⟨hid, rfl⟩⟩
  constructor
  · intro id i hi
    obtain ⟨i₀, hi₀, -, ⟨-, rfl⟩ | ⟨hid, rfl⟩⟩ := hread id i hi
    · rw [hasset]
      exact hsupply
    · rw [hothers, hs.agrees id i hi₀]
      intro heq
      exact hid (hs.own id poolId i info hi₀ hinfo heq)
  · intro id id' i i' hi hi' heq
    obtain ⟨i₀, hi₀, hasset₀, -⟩ := hread id i hi
    obtain ⟨i₁, hi₁, hasset₁, -⟩ := hread id' i' hi'
    exact hs.own id id' i₀ i₁ hi₀ hi₁ (hasset₀ ▸ hasset₁ ▸ heq)

theorem SupplyKept.mutate {poolId : ℕ} {f : PoolInfo AccountId → Except Fault _}
    (hs : SupplyKept s)
    (hf : ∀ info s₁ info₁, f info = .ok (s₁, info₁) → s₁ = s ∧
      info₁.poolAsset = info.poolAsset ∧ info₁.totalSupply = info.totalSupply)
    (h : s.mutatePool poolId f = .ok s') : SupplyKept s' := by
  obtain ⟨info, s₁, info₁, hinfo, hfinfo, rfl⟩ := mutatePool_ok h
  obtain ⟨rfl, hasset, hsupply⟩ := hf info s₁ info₁ hfinfo
  apply hs.write hinfo hasset
  · rw [hsupply]
    exact hs.agrees poolId info hinfo
  · exact fun _ _ => rfl
  · rfl

theorem operate_supplyKept {poolId : ℕ} {op : Operation} (hs : SupplyKept s)
    (hkeeps : KeepsSupply s (.operate who poolId op)) (h : operate s who poolId op = .ok s') :
    SupplyKept s' := by
  obtain ⟨info, s₁, info₁, s₂, info₂, hinfo, hon, hfee, rfl⟩ := operate_ok h
  obtain ⟨hsep, hcovered⟩ := hkeeps info hinfo
  obtain ⟨hpool, minted, burned, hissues, -⟩ := on_matched hsep hon
  obtain ⟨hpool₂, hissues₂⟩ := collectFee_issues hfee
  have hasset : info₁.poolAsset = info.poolAsset := by rw [hpool]
  have hasset₂ : info₂.poolAsset = info.poolAsset := by rw [hpool₂, hasset]
  have hsupply : info₂.totalSupply =
      cfg.currencies.totalIssuance s₂.ledger info₂.poolAsset :=
    (operate_agrees_iff hsep (hs.agrees poolId info hinfo) hon hfee).mpr (hcovered.of_ok hon)
  rw [hasset] at hissues₂
  have hmoved := hissues.trans hissues₂
  apply hs.write hinfo hasset₂ (hasset₂ ▸ hsupply)
  · intro d hd
    have hissuance := hmoved.issuance d
    simpa [hd] using hissuance
  · rw [hmoved.storage]

theorem createPool_supplyKept {poolAsset : CurrencyId} {assets : List CurrencyId}
    {precisions : List ℕ} {mintFee swapFee redeemFee a : ℕ} {fr yr : AccountId}
    (hs : SupplyKept s)
    (hkeeps : KeepsSupply s (.createPool poolAsset assets precisions mintFee swapFee redeemFee a
      fr yr))
    (h : createPool s poolAsset assets precisions mintFee swapFee redeemFee a fr yr = .ok s') :
    SupplyKept s' := by
  simp only [createPool, bind_eq_ok, ensure_eq_ok, pure_eq_ok] at h
  obtain ⟨_, -, _, -, _, -, _, -, _, hnone, _, -, rfl⟩ := h
  obtain ⟨hzero, hfresh⟩ := hkeeps
  constructor
  · intro id info hinfo
    simp only [Function.update_apply] at hinfo
    split at hinfo
    · rw [Option.some_inj] at hinfo
      subst hinfo
      exact hzero.symm
    · exact hs.agrees id info hinfo
  · intro id id' info info' hinfo hinfo' heq
    simp only [Function.update_apply] at hinfo hinfo'
    split at hinfo
    · split at hinfo'
      · exact (by assumption : id = s.poolCount).trans (by assumption : id' = s.poolCount).symm
      · rw [Option.some_inj] at hinfo
        subst hinfo
        exact absurd heq.symm (hfresh id' info' hinfo')
    · split at hinfo'
      · rw [Option.some_inj] at hinfo'
        subst hinfo'
        exact absurd heq (hfresh id info hinfo)
      · exact hs.own id id' info info' hinfo hinfo' heq

theorem step_supplyKept {a : Call cfg} (hs : SupplyKept s) (hkeeps : KeepsSupply s a)
    (h : step s a = .ok s') : SupplyKept s' := by
  cases a with
  | createPool => exact createPool_supplyKept hs hkeeps h
  | operate => exact operate_supplyKept hs hkeeps h
  | modifyA poolId a futureABlock =>
    apply hs.mutate _ h
    intro info s₁ info₁ hf
    simp only [modifyAOn, bind_eq_ok, ensure_eq_ok, pure_eq_ok, Prod.mk.injEq] at hf
    obtain ⟨_, -, _, -, rfl, rfl⟩ := hf
    exact ⟨rfl, rfl, rfl⟩
  | modifyFees =>
    apply hs.mutate _ h
    intro info s₁ info₁ hf
    simp only [pure_eq_ok, Prod.mk.injEq] at hf
    obtain ⟨rfl, rfl⟩ := hf
    exact ⟨rfl, rfl, rfl⟩
  | modifyRecipients =>
    apply hs.mutate _ h
    intro info s₁ info₁ hf
    simp only [pure_eq_ok, Prod.mk.injEq] at hf
    obtain ⟨rfl, rfl⟩ := hf
    exact ⟨rfl, rfl, rfl⟩
  | setTokenRate =>
    simp only [step, setTokenRate, bind_eq_ok, pure_eq_ok] at h
    obtain ⟨_, -, rfl⟩ := h
    exact ⟨hs.agrees, hs.own⟩
  | environment ledger =>
    simp only [step, pure_eq_ok] at h
    subst h
    refine ⟨?_, hs.own⟩
    intro id info hinfo
    exact (hs.agrees id info hinfo).trans (hkeeps id info hinfo).symm
  | advance blocks =>
    simp only [step, pure_eq_ok] at h
    subst h
    exact ⟨hs.agrees, hs.own⟩

/-- In every run whose fees are covered, the supply a pool has saved is what is issued of its
asset. -/
theorem supply_agrees (ledger : cfg.currencies.Ledger) (blockNumber : ℕ) (as : List (Call cfg))
    (has : Meets step KeepsSupply (genesis cfg ledger blockNumber) as) :
    SupplyAgrees (run step (genesis cfg ledger blockNumber) as) := by
  have hgenesis : SupplyKept (genesis cfg ledger blockNumber) := by
    constructor
    · intro id info hinfo
      cases hinfo
    · intro id id' info info' hinfo
      cases hinfo
  exact (run_invariant (I := SupplyKept) (fun s a s' hs ha h => step_supplyKept hs ha h)
    as hgenesis has).agrees

end Agreement

namespace Sample

def config : Config ℕ where
  currencies := Tokens.currencies ℕ
  feePrecision := 10000000000
  aPrecision := 100
  poolAssetLimit := 5
  subAccount := fun poolId => 1000 + poolId
  validatePoolAsset := fun _ => true

/-- Accounts 0 to 9 hold a million of everything; no pool asset is issued. -/
def wealth : Tokens.Issued ℕ := ⟨fun _ who => if who < 10 then 1000000 else 0, fun _ => 0⟩

def start : State config := genesis config wealth 1

def lpToken : CurrencyId := .stableLpToken 0

def tokens (n : ℕ) : List CurrencyId := (List.range n).map fun i => .token2 (.ofNat i)

def created (precisions : List ℕ) (a : ℕ) : Call config :=
  .createPool lpToken (tokens precisions.length) precisions 0 0 0 a 100 101

def opened : List (Call config) := [created [1, 1] 1000]
def minted : List (Call config) := opened ++ [.operate 1 0 (.mint [100000, 100000] 0)]
def swapped : List (Call config) := minted ++ [.operate 2 0 (.swap 0 1 1000 0 2)]
def redeemed : List (Call config) := swapped ++ [.operate 1 0 (.redeemProportion 50000 [0, 0])]

def small : List (Call config) :=
  [created [10, 100, 1, 10] 10, .operate 1 0 (.mint [2, 5, 1, 2] 0),
    .operate 2 0 (.swap 2 0 1 0 4)]

theorem opened_keeps : Meets step KeepsSupply start opened := by
  refine ⟨fun _ _ => ⟨rfl, ?_⟩, trivial⟩
  intro poolId info hinfo
  cases hinfo

theorem minted_keeps : KeepsSupply (run step start opened)
    (.operate 1 0 (.mint [100000, 100000] 0)) := by
  unfold KeepsSupply
  decide +kernel

theorem swapped_keeps : KeepsSupply (run step start minted)
    (.operate 2 0 (.swap 0 1 1000 0 2)) := by
  unfold KeepsSupply
  decide +kernel

theorem redeemed_keeps : KeepsSupply (run step start swapped)
    (.operate 1 0 (.redeemProportion 50000 [0, 0])) := by
  unfold KeepsSupply
  decide +kernel

end Sample

theorem supply_agrees_sample :
    let s := run step Sample.start Sample.redeemed
    SupplyAgrees s ∧ (s.pools 0).map (fun info => info.totalSupply) = some 150000 := by
  have hminted : Meets step KeepsSupply Sample.start Sample.minted :=
    meets_append Sample.opened_keeps ⟨fun _ _ => Sample.minted_keeps, trivial⟩
  have hswapped : Meets step KeepsSupply Sample.start Sample.swapped :=
    meets_append hminted ⟨fun _ _ => Sample.swapped_keeps, trivial⟩
  have hredeemed : Meets step KeepsSupply Sample.start Sample.redeemed :=
    meets_append hswapped ⟨fun _ _ => Sample.redeemed_keeps, trivial⟩
  constructor
  · exact @supply_agrees ℕ Sample.config Sample.wealth 1 Sample.redeemed hredeemed
  · decide +kernel

/-- The swap leaves the pool with a `D` of 212, and 213 of its asset stay issued. -/
theorem supply_falls_behind :
    let s := run step Sample.start Sample.small
    (s.pools 0).map (fun info => info.totalSupply) = some 212 ∧
      Sample.config.currencies.totalIssuance s.ledger Sample.lpToken = 213 ∧
      ¬ SupplyAgrees s := by
  intro s
  have hpool : (s.pools 0).map (fun info => (info.totalSupply, info.poolAsset)) =
      some (212, Sample.lpToken) := by decide +kernel
  have hsupply : (s.pools 0).map (fun info => info.totalSupply) = some 212 := by decide +kernel
  have hissuance : Sample.config.currencies.totalIssuance s.ledger Sample.lpToken = 213 := by
    decide +kernel
  generalize s = s at *
  refine ⟨hsupply, hissuance, ?_⟩
  intro hagrees
  obtain ⟨info, hinfo, heq⟩ := Option.map_eq_some_iff.mp hpool
  simp only [Prod.mk.injEq] at heq
  have hequal := hagrees 0 info hinfo
  rw [heq.1, heq.2, hissuance] at hequal
  omega

end Bifrost.StableAsset
