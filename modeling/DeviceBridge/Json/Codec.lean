import DeviceBridge.Json.Reader
import DeviceBridge.Json.Writer

/-!
# DeviceBridge.Json.Codec

Types that are written as JSON and read back. A record is an object with its fields by name, in any
order and among others that nobody asks for, but each at most once; an array of its fields in order
is accepted as well, and fields at its end may be missing. What a field means when it is missing is
up to the record.
-/

namespace DeviceBridge.Json

/-- A type with a written form. -/
class Codec (α : Type) where
  encode : α → Document
  decode : Document → Except Error α

export Codec (encode decode)

/-! ## Basic types -/

instance : Codec Value where
  encode := Value.toDocument
  decode d :=
    match d.toValue? with
    | some v => .ok v
    | none => .error .mismatch

instance : Codec String where
  encode := .string
  decode
    | .string s => .ok s
    | _ => .error .mismatch

instance : Codec Bool where
  encode := .bool
  decode
    | .bool b => .ok b
    | _ => .error .mismatch

/-- The whole number below `bound` that a document writes. -/
def decodeNat (bound : Nat) : Document → Except Error Nat
  | .number (.integer n) =>
    if 0 ≤ n.val ∧ n.val < bound then .ok n.val.toNat else .error .mismatch
  | _ => .error .mismatch

instance : Codec UInt8 where
  encode n := .integer (.ofUInt64 n.toUInt64)
  decode d := (decodeNat UInt8.size d).map UInt8.ofNat

instance : Codec UInt16 where
  encode n := .integer (.ofUInt64 n.toUInt64)
  decode d := (decodeNat UInt16.size d).map UInt16.ofNat

instance : Codec UInt32 where
  encode n := .integer (.ofUInt64 n.toUInt64)
  decode d := (decodeNat UInt32.size d).map UInt32.ofNat

instance : Codec UInt64 where
  encode n := .integer (.ofUInt64 n)
  decode d := (decodeNat UInt64.size d).map UInt64.ofNat

instance : Codec Int64 where
  encode n := .integer (.ofInt64 n)
  decode
    | .number (.integer n) =>
      if n.val < 0x8000_0000_0000_0000 then .ok (.ofInt n.val) else .error .mismatch
    | _ => .error .mismatch

/-- Absence is written as `null`. -/
instance {α : Type} [Codec α] : Codec (Option α) where
  encode
    | some x => encode x
    | none => .null
  decode
    | .null => .ok none
    | d => (decode d).map some

instance {α : Type} [Codec α] : Codec (List α) where
  encode xs := .array (xs.map encode)
  decode
    | .array ds => ds.mapM decode
    | _ => .error .mismatch

/-- A map from text: an object, where of equal keys the last counts. -/
instance {α : Type} [Codec α] : Codec (Dictionary String α) where
  encode xs := .record (xs.map fun (k, v) => (k, encode v))
  decode
    | .object ms => do
      let entries ← ms.mapM fun (k, d) =>
        match k with
        | some k => (decode d).map (k, ·)
        | none => .error .mismatch
      return Dictionary.ofList entries
    | _ => .error .mismatch

/-! ## Tags -/

/-- The tag in a document: text, or an object with the tag as its only key and `null` at it. -/
def Document.tag? : Document → Option String
  | .string s | .object [(some s, .null)] => some s
  | _ => none

/-! ## Records -/

/-- The fields found in a document, by name. -/
abbrev Fields := List (String × Document)

/-- The members of an object whose keys are text. -/
def namedMembers? : List (Option String × Document) → Option Fields
  | [] => some []
  | (k, d) :: ms => do return (← k, d) :: (← namedMembers? ms)

/-- The fields of a record with the given names. -/
def Document.fields (names : List String) : Document → Except Error Fields
  | .object members =>
    match namedMembers? members with
    | none => .error .mismatch
    | some fs =>
      let known := fs.filter fun f => f.1 ∈ names
      if (known.map Prod.fst).Nodup then .ok known else .error .mismatch
  | .array items =>
    if items.length ≤ names.length then .ok (names.zip items) else .error .mismatch
  | _ => .error .mismatch

namespace Fields

/-- A field that has to be there. -/
def required {α : Type} [Codec α] (fs : Fields) (name : String) : Except Error α :=
  match fs.lookup name with
  | some d => decode d
  | none => .error .mismatch

/-- A field that stands for `default` when it is missing. -/
def optional {α : Type} [Codec α] (fs : Fields) (name : String) (default : α) : Except Error α :=
  match fs.lookup name with
  | some d => decode d
  | none => .ok default

end Fields

/-! ## Texts -/

/-- Reads a text as the written form of a type. What follows the document makes the text malformed,
but only once the document itself has been accepted. -/
def decodeText {α : Type} [Codec α] (text : String) : Except Error α :=
  match readTokens (tokens text.toList) with
  | .done d => decode d
  | .trailing d => do
    let _ ← (decode d : Except Error α)
    throw .malformed
  | _ => .error .malformed

/-- The compact text of the written form. -/
def encodeText {α : Type} [Codec α] (x : α) : String := (encode x).compact

/-- Reads a value as the written form of a type. -/
def decodeValue {α : Type} [Codec α] (v : Value) : Except Error α := decode v.toDocument

end DeviceBridge.Json
