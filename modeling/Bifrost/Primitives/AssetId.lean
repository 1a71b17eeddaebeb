import Bifrost.Primitives.Currency

/-!
# The asset ids of zenlink

An `AssetId` packs a currency into a word: the discriminant in the second byte and the index of the
token in the first. The encoder masks the index to its byte, the decoder reads the sub-indices of
an LP token above it, and all native currencies become the one native asset of a chain.
-/

namespace Bifrost

set_option autoImplicit false

namespace TokenSymbol

def toU8 : TokenSymbol → UInt8
  | ASG => 0
  | BNC => 1
  | KUSD => 2
  | DOT => 3
  | KSM => 4
  | ETH => 5
  | KAR => 6
  | ZLK => 7
  | PHA => 8
  | RMRK => 9
  | MOVR => 10

def tryFrom (v : UInt8) : Option TokenSymbol :=
  match v.toNat with
  | 0 => some ASG
  | 1 => some BNC
  | 2 => some KUSD
  | 3 => some DOT
  | 4 => some KSM
  | 5 => some ETH
  | 6 => some KAR
  | 7 => some ZLK
  | 8 => some PHA
  | 9 => some RMRK
  | 10 => some MOVR
  | _ => none

@[simp] theorem tryFrom_toU8 (symbol : TokenSymbol) : tryFrom symbol.toU8 = some symbol := by
  cases symbol <;> rfl

end TokenSymbol

namespace CurrencyId

def isNative : CurrencyId → Bool
  | native _ => true
  | _ => false

def isLptoken : CurrencyId → Bool
  | lpToken .. => true
  | _ => false

def tryFromU64 (id : UInt64) : Option CurrencyId :=
  let discriminant := ((id &&& 0xff00) >>> 8).toUInt8
  let index := (id &&& 0xff).toUInt8
  let pid := ((id &&& 0xffff000000000000) >>> 48).toUInt32
  let lp1 := ((id &&& 0x0000ffff00000000) >>> 32).toUInt32
  let lp2 := ((id &&& 0x00000000ffff0000) >>> 16).toUInt32
  match discriminant.toNat with
  | 0 => (TokenSymbol.tryFrom index).map native
  | 1 => (TokenSymbol.tryFrom index).map vToken
  | 2 => (TokenSymbol.tryFrom index).map token
  | 3 => (TokenSymbol.tryFrom index).map stable
  | 4 => (TokenSymbol.tryFrom index).map vsToken
  | 5 => (TokenSymbol.tryFrom index).map fun symbol => vsBond symbol pid lp1 lp2
  | 6 =>
    let symbol1 := ((id &&& 0x0000000000ff0000) >>> 16).toUInt8
    let type1 := ((id &&& 0x00000000ff000000) >>> 24).toUInt8
    let symbol2 := ((id &&& 0x000000ff00000000) >>> 32).toUInt8
    let type2 := ((id &&& 0x0000ff0000000000) >>> 40).toUInt8
    some (lpToken ((TokenSymbol.tryFrom symbol1).getD .BNC) type1
      ((TokenSymbol.tryFrom symbol2).getD .BNC) type2)
  | 7 => some (foreignAsset ((id &&& 0x0000ffffffff0000) >>> 16).toUInt32)
  | 8 => some (token2 index)
  | 9 => some (vToken2 index)
  | 10 => some (vsToken2 index)
  | 11 => some (vsBond2 index pid lp1 lp2)
  | _ => none

end CurrencyId

structure AssetId where
  chainId : UInt32
  assetType : UInt8
  assetIndex : UInt64
deriving DecidableEq, Repr

namespace AssetId

/-- `NATIVE` and `LOCAL` of `zenlink_protocol`. -/
def nativeType : UInt8 := 0
def localType : UInt8 := 2

/-- The discriminant of a currency and its index; the others may not be in a zenlink pool. -/
def discriminantAndIndex : CurrencyId → Option (UInt64 × UInt64)
  | .native symbol => some (0, symbol.toU8.toUInt64)
  | .vToken symbol => some (1, symbol.toU8.toUInt64)
  | .token symbol => some (2, symbol.toU8.toUInt64)
  | .stable symbol => some (3, symbol.toU8.toUInt64)
  | .vsToken symbol => some (4, symbol.toU8.toUInt64)
  | .lpToken symbol0 index0 symbol1 index1 =>
    let currencyIndex0 :=
      (((index0.toUInt64 <<< 8) &&& 0xff00) + (symbol0.toU8.toUInt64 &&& 0xff)) <<< 16
    let currencyIndex1 :=
      (((index1.toUInt64 <<< 8) &&& 0xff00) + (symbol1.toU8.toUInt64 &&& 0xff)) <<< 32
    some (6, currencyIndex0 + currencyIndex1)
  | .token2 id => some (8, id.toUInt64)
  | .vToken2 id => some (9, id.toUInt64)
  | .vsToken2 id => some (10, id.toUInt64)
  | .vsBond .. | .foreignAsset _ | .vsBond2 .. | .stableLpToken _ | .blp _ | .lend _ => none

def tryConvertFrom (id : CurrencyId) (paraId : UInt32) : Option AssetId := do
  let (discriminant, index) ← discriminantAndIndex id
  let assetIndex := ((discriminant <<< 8) &&& 0xff00) + (index &&& 0xff)
  if id.isNative then some ⟨paraId, nativeType, 0⟩
  else some ⟨paraId, localType, assetIndex⟩

def tryInto (a : AssetId) : Option CurrencyId :=
  let discriminant := ((a.assetIndex &&& 0xff00) >>> 8).toUInt32
  let index := (0xff &&& a.assetIndex).toUInt8
  match discriminant.toNat with
  | 0 => (TokenSymbol.tryFrom index).map .native
  | 1 => (TokenSymbol.tryFrom index).map .vToken
  | 2 => (TokenSymbol.tryFrom index).map .token
  | 3 => (TokenSymbol.tryFrom index).map .stable
  | 4 => (TokenSymbol.tryFrom index).map .vsToken
  | 6 => CurrencyId.tryFromU64 a.assetIndex
  | 8 => some (.token2 index)
  | 9 => some (.vToken2 index)
  | 10 => some (.vsToken2 index)
  | _ => none

/-! What is packed is read back. -/

theorem and_low (x : UInt64) : (x &&& 0xff).toNat = x.toNat % 256 := by
  rw [UInt64.toNat_and]
  exact Nat.and_two_pow_sub_one_eq_mod x.toNat 8

theorem shiftRight_and_high (x : UInt64) : ((x &&& 0xff00) >>> 8).toNat = x.toNat / 256 % 256 := by
  rw [UInt64.toNat_shiftRight, UInt64.toNat_and]
  change (x.toNat &&& 0xff00) >>> 8 = _
  rw [Nat.shiftRight_and_distrib, Nat.shiftRight_eq_div_pow]
  exact Nat.and_two_pow_sub_one_eq_mod _ 8

theorem and_high_shiftLeft {d : UInt64} (hd : d.toNat < 256) :
    ((d <<< 8) &&& 0xff00).toNat = d.toNat * 256 := by
  have hshift : (d <<< 8).toNat = d.toNat <<< 8 := by
    rw [UInt64.toNat_shiftLeft]
    change d.toNat <<< 8 % 2 ^ 64 = _
    rw [Nat.shiftLeft_eq, Nat.mod_eq_of_lt (by omega)]
  rw [UInt64.toNat_and, hshift]
  change d.toNat <<< 8 &&& 0xff <<< 8 = _
  rw [← Nat.shiftLeft_and_distrib, Nat.shiftLeft_eq]
  congr 1
  exact (Nat.and_two_pow_sub_one_eq_mod _ 8).trans (Nat.mod_eq_of_lt hd)

theorem packed_toNat {d : UInt64} (hd : d.toNat < 256) (i : UInt8) :
    (((d <<< 8) &&& 0xff00) + (i.toUInt64 &&& 0xff)).toNat = d.toNat * 256 + i.toNat := by
  have hi := i.toNat_lt
  rw [UInt64.toNat_add, and_high_shiftLeft hd, and_low, UInt8.toNat_toUInt64]
  omega

theorem unpack {d : UInt64} (hd : d.toNat < 256) (i : UInt8) (paraId : UInt32) :
    let a : AssetId := ⟨paraId, localType, ((d <<< 8) &&& 0xff00) + (i.toUInt64 &&& 0xff)⟩
    ((a.assetIndex &&& 0xff00) >>> 8).toUInt32.toNat = d.toNat ∧
      (0xff &&& a.assetIndex).toUInt8 = i := by
  intro a
  have hi := i.toNat_lt
  have hword : a.assetIndex.toNat = d.toNat * 256 + i.toNat := packed_toNat hd i
  constructor
  · rw [UInt64.toNat_toUInt32, shiftRight_and_high, hword]
    omega
  · rw [UInt64.and_comm, ← UInt8.toNat_inj, UInt64.toNat_toUInt8, and_low, hword]
    omega

theorem tryInto_local {d : UInt64} (hd : d.toNat < 256) (i : UInt8) (paraId : UInt32) :
    tryInto ⟨paraId, localType, ((d <<< 8) &&& 0xff00) + (i.toUInt64 &&& 0xff)⟩ =
      match d.toNat with
      | 0 => (TokenSymbol.tryFrom i).map .native
      | 1 => (TokenSymbol.tryFrom i).map .vToken
      | 2 => (TokenSymbol.tryFrom i).map .token
      | 3 => (TokenSymbol.tryFrom i).map .stable
      | 4 => (TokenSymbol.tryFrom i).map .vsToken
      | 6 => CurrencyId.tryFromU64 (((d <<< 8) &&& 0xff00) + (i.toUInt64 &&& 0xff))
      | 8 => some (.token2 i)
      | 9 => some (.vToken2 i)
      | 10 => some (.vsToken2 i)
      | _ => none := by
  obtain ⟨hd', hi⟩ := unpack hd i paraId
  simp only at hd' hi
  unfold tryInto
  simp only [hd', hi]

theorem tryInto_of_byte {id : CurrencyId} {paraId : UInt32} {a : AssetId}
    (hnative : id.isNative = false) (hlp : id.isLptoken = false)
    (h : tryConvertFrom id paraId = some a) :
    a.chainId = paraId ∧ a.assetType = localType ∧ a.tryInto = some id := by
  cases id with
  | native symbol => cases hnative
  | lpToken symbol0 index0 symbol1 index1 => cases hlp
  | vToken symbol | token symbol | stable symbol | vsToken symbol =>
    cases h
    exact ⟨rfl, rfl, (tryInto_local (by decide) symbol.toU8 paraId).trans (by simp)⟩
  | token2 id | vToken2 id | vsToken2 id =>
    cases h
    exact ⟨rfl, rfl, tryInto_local (by decide) id paraId⟩
  | vsBond | foreignAsset | vsBond2 | stableLpToken | blp | lend => cases h

theorem tryConvertFrom_native (symbol : TokenSymbol) (paraId : UInt32) :
    tryConvertFrom (.native symbol) paraId = some ⟨paraId, nativeType, 0⟩ := rfl

theorem assetType_of {id : CurrencyId} {paraId : UInt32} {a : AssetId}
    (h : tryConvertFrom id paraId = some a) :
    a.assetType = if id.isNative then nativeType else localType := by
  unfold tryConvertFrom at h
  simp only [Option.bind_eq_bind, Option.bind_eq_some_iff] at h
  obtain ⟨⟨discriminant, index⟩, -, h⟩ := h
  split at h
  next hnative =>
    cases h
    rw [if_pos hnative]
  next hlocal =>
    cases h
    rw [if_neg hlocal]

/-- A currency with its index in a byte is read back from its asset; the native currencies share
the native asset of a chain, and no two others but LP tokens share one. -/
theorem asset_ids_read_back :
    (∀ id paraId a, tryConvertFrom id paraId = some a → id.isNative = false →
      id.isLptoken = false → a.tryInto = some id) ∧
    (∀ symbol paraId, tryConvertFrom (.native symbol) paraId = some ⟨paraId, nativeType, 0⟩) ∧
    ∀ id id' paraId paraId' a, tryConvertFrom id paraId = some a →
      tryConvertFrom id' paraId' = some a → id.isLptoken = false → id'.isLptoken = false →
      id = id' ∨ id.isNative = true ∧ id'.isNative = true := by
  refine ⟨fun id paraId a h hnative hlp => (tryInto_of_byte hnative hlp h).2.2,
    tryConvertFrom_native, ?_⟩
  intro id id' paraId paraId' a h h' hlp hlp'
  have htype := (assetType_of h).symm.trans (assetType_of h')
  cases hnative : id.isNative with
  | true =>
    refine .inr ⟨rfl, ?_⟩
    cases hnative' : id'.isNative with
    | true => rfl
    | false =>
      rw [hnative, hnative'] at htype
      exact absurd htype (by decide)
  | false =>
    cases hnative' : id'.isNative with
    | true =>
      rw [hnative, hnative'] at htype
      exact absurd htype (by decide)
    | false =>
      have hback := (tryInto_of_byte hnative hlp h).2.2
      have hback' := (tryInto_of_byte hnative' hlp' h').2.2
      exact .inl (Option.some_inj.mp (hback.symm.trans hback'))

theorem asset_ids_read_back_vdot :
    tryConvertFrom (.vToken2 0) 2030 = some ⟨2030, localType, 0x900⟩ ∧
      tryInto ⟨2030, localType, 0x900⟩ = some (.vToken2 0) :=
  ⟨by decide, asset_ids_read_back.1 (.vToken2 0) 2030 _ (by decide) rfl rfl⟩

/-- BNC is read back as ASG, and the LP token of BNC and vBNC has the asset of any other. -/
theorem asset_ids_shared :
    (tryConvertFrom (.native .BNC) 2001 = some ⟨2001, nativeType, 0⟩ ∧
      tryInto ⟨2001, nativeType, 0⟩ = some (.native .ASG)) ∧
    tryConvertFrom (.lpToken .ASG 0 .BNC 1) 2001 = some ⟨2001, localType, 0x600⟩ ∧
      tryConvertFrom (.lpToken .KUSD 0 .DOT 1) 2001 = some ⟨2001, localType, 0x600⟩ ∧
      tryInto ⟨2001, localType, 0x600⟩ = some (.lpToken .ASG 0 .ASG 0) := by
  decide

end AssetId

end Bifrost
