import Bifrost.Lib.Words

/-!
# The message of the token gateway

The two forms of a transfer as they cross the chain, with and without call data. Encoding and
decoding come from another crate; `Abi` carries them with what the pallet relies on, that each
undoes the other and that no message has both forms. The standard encoding is one such.
-/

namespace Bifrost.TokenGateway

set_option autoImplicit false

abbrev H256 := Word

abbrev Calldata := { l : Bytes // l.length < 2 ^ 256 }

structure Body where
  amount : Word
  assetId : H256
  redeem : Bool
  sender : H256
  recipient : H256
deriving DecidableEq

structure BodyWithCall extends Body where
  data : Calldata
deriving DecidableEq

structure RequestBody extends Body where
  data : Option Bytes
deriving DecidableEq

def Body.request (b : Body) : RequestBody := { b with data := none }

def BodyWithCall.request (b : BodyWithCall) : RequestBody :=
  { b.toBody with data := some b.data.val }

structure Abi where
  encodeBody : Body → Bytes
  encodeBodyWithCall : BodyWithCall → Bytes
  decodeBody : Bytes → Option Body
  decodeBodyWithCall : Bytes → Option BodyWithCall
  decodeBody_encode : ∀ b, decodeBody (encodeBody b) = some b
  decodeBodyWithCall_encode : ∀ b, decodeBodyWithCall (encodeBodyWithCall b) = some b
  encodeBody_decode : ∀ {l b}, decodeBody l = some b → encodeBody b = l
  encodeBody_ne : ∀ b c, encodeBody b ≠ encodeBodyWithCall c

namespace Abi

variable (abi : Abi)

/-- The form without call data is tried first. -/
def decodeRequest (l : Bytes) : Option RequestBody :=
  match abi.decodeBody l with
  | some b => some b.request
  | none => (abi.decodeBodyWithCall l).map BodyWithCall.request

theorem decodeRequest_encodeBody (b : Body) :
    abi.decodeRequest (abi.encodeBody b) = some b.request := by
  simp only [decodeRequest, abi.decodeBody_encode]

theorem decodeRequest_encodeBodyWithCall (b : BodyWithCall) :
    abi.decodeRequest (abi.encodeBodyWithCall b) = some b.request := by
  have hnone : abi.decodeBody (abi.encodeBodyWithCall b) = none := by
    cases h : abi.decodeBody (abi.encodeBodyWithCall b) with
    | none => rfl
    | some c => exact absurd (abi.encodeBody_decode h) (abi.encodeBody_ne c b)
  simp only [decodeRequest, hnone, abi.decodeBodyWithCall_encode, Option.map_some]

end Abi

/-! The standard encoding: five words, or an offset, the same words, and the bytes padded. -/

namespace Standard

def boolWord (b : Bool) : Word := Word.ofNat b.toNat

def encodeFields (b : Body) (rest : Bytes) : Bytes :=
  b.amount.bytes ++ (b.assetId.bytes ++ ((boolWord b.redeem).bytes ++
    (b.sender.bytes ++ (b.recipient.bytes ++ rest))))

def encodeBody (b : Body) : Bytes := encodeFields b []

def padding (n : ℕ) : Bytes := List.replicate ((32 - n % 32) % 32) 0

def encodeBodyWithCall (b : BodyWithCall) : Bytes :=
  (Word.ofNat 32).bytes ++ encodeFields b.toBody ((Word.ofNat 192).bytes ++
    ((Word.ofNat b.data.val.length).bytes ++ (b.data.val ++ padding b.data.val.length)))

/-- The words at the front, read one after the other. -/
def parseBody (l : Bytes) : Option Body := do
  let amount ← Word.ofPrefix l
  let assetId ← Word.ofPrefix (l.drop 32)
  let redeem ← Word.ofPrefix ((l.drop 32).drop 32)
  let sender ← Word.ofPrefix (((l.drop 32).drop 32).drop 32)
  let recipient ← Word.ofPrefix ((((l.drop 32).drop 32).drop 32).drop 32)
  pure ⟨amount, assetId, redeem = boolWord true, sender, recipient⟩

def toCalldata (l : Bytes) : Option Calldata :=
  if h : l.length < 2 ^ 256 then some ⟨l, h⟩ else none

theorem toCalldata_val (c : Calldata) : toCalldata c.val = some c := dif_pos c.property

def parseBodyWithCall (l : Bytes) : Option BodyWithCall := do
  let body ← parseBody (l.drop 32)
  let length ← Word.ofPrefix (l.drop 224)
  let data ← toCalldata ((l.drop 256).take length.toNat)
  pure { body with data }

/-- What is read is taken only if it is encoded as what was read. -/
def strict {α : Type} (encode : α → Bytes) (parse : Bytes → Option α) (l : Bytes) : Option α :=
  (parse l).filter fun a => encode a = l

theorem strict_encode {α : Type} {encode : α → Bytes} {parse : Bytes → Option α}
    (h : ∀ a, parse (encode a) = some a) (a : α) : strict encode parse (encode a) = some a := by
  simp [strict, h]

theorem encode_of_strict {α : Type} {encode : α → Bytes} {parse : Bytes → Option α} {l : Bytes}
    {a : α} (h : strict encode parse l = some a) : encode a = l := by
  simp only [strict, Option.filter_eq_some_iff, decide_eq_true_eq] at h
  exact h.2

theorem parseBody_encodeFields (b : Body) (rest : Bytes) :
    parseBody (encodeFields b rest) = some b := by
  have hredeem : decide (boolWord b.redeem = boolWord true) = b.redeem := by
    cases b.redeem with
    | true => rfl
    | false => rfl
  simp only [parseBody, encodeFields, Word.ofPrefix_append, Word.drop_append]
  simp [hredeem]

theorem drop_encodeFields (b : Body) (rest : Bytes) : (encodeFields b rest).drop 160 = rest := by
  have hdrop : ∀ l : Bytes, l.drop 160 =
      ((((l.drop 32).drop 32).drop 32).drop 32).drop 32 := by
    intro l
    simp [List.drop_drop]
  rw [hdrop]
  simp only [encodeFields, Word.drop_append]

theorem parseBodyWithCall_encode (b : BodyWithCall) :
    parseBodyWithCall (encodeBodyWithCall b) = some b := by
  have hlength : (encodeBodyWithCall b).drop 224 = (Word.ofNat b.data.val.length).bytes ++
      (b.data.val ++ padding b.data.val.length) := by
    have hdrop : (encodeBodyWithCall b).drop 224 =
        (((encodeBodyWithCall b).drop 32).drop 160).drop 32 := by
      simp [List.drop_drop]
    rw [hdrop, encodeBodyWithCall, Word.drop_append, drop_encodeFields, Word.drop_append]
  have hdata : (encodeBodyWithCall b).drop 256 = b.data.val ++ padding b.data.val.length := by
    have hdrop : (encodeBodyWithCall b).drop 256 =
        ((encodeBodyWithCall b).drop 224).drop 32 := by
      simp [List.drop_drop]
    rw [hdrop, hlength, Word.drop_append]
  have hbody : parseBody ((encodeBodyWithCall b).drop 32) = some b.toBody := by
    rw [encodeBodyWithCall, Word.drop_append, parseBody_encodeFields]
  have htake : ((encodeBodyWithCall b).drop 256).take
      (Word.ofNat b.data.val.length).toNat = b.data.val := by
    rw [hdata, Word.toNat_ofNat b.data.property, List.take_left]
  simp only [parseBodyWithCall, hbody, hlength, Word.ofPrefix_append, Option.bind_eq_bind,
    Option.bind_some, htake, toCalldata_val, Option.pure_def]

theorem length_encodeFields (b : Body) (rest : Bytes) :
    (encodeFields b rest).length = 160 + rest.length := by
  simp only [encodeFields, List.length_append, Word.length_eq]
  omega

end Standard

/-- The standard encoding. -/
def Abi.standard : Abi where
  encodeBody := Standard.encodeBody
  encodeBodyWithCall := Standard.encodeBodyWithCall
  decodeBody := Standard.strict Standard.encodeBody Standard.parseBody
  decodeBodyWithCall := Standard.strict Standard.encodeBodyWithCall Standard.parseBodyWithCall
  decodeBody_encode := Standard.strict_encode fun b => Standard.parseBody_encodeFields b []
  decodeBodyWithCall_encode := Standard.strict_encode Standard.parseBodyWithCall_encode
  encodeBody_decode := Standard.encode_of_strict
  encodeBody_ne := by
    intro b c heq
    have hlength := congrArg List.length heq
    simp only [Standard.encodeBody, Standard.encodeBodyWithCall, List.length_append,
      Standard.length_encodeFields, Word.length_eq, List.length_nil] at hlength
    omega

end Bifrost.TokenGateway
