import DeviceBridge.Json.Codec
import DeviceBridge.Text.Blank
import DeviceBridge.Text.Quoted

/-!
# DeviceBridge.NodeId

Operational ids of remote nodes: 64-bit numbers, written in decimal, and accepted as text in
decimal, hexadecimal, octal or binary, with blanks around them and with a final `n`.
-/

namespace DeviceBridge

/-- The operational id of a node. -/
structure NodeId where
  value : UInt64
deriving DecidableEq, Inhabited

instance : LT NodeId := ⟨fun a b => a.value < b.value⟩

instance : DecidableLT NodeId := fun a b => inferInstanceAs (Decidable (a.value < b.value))

/-- A text that is no node id. -/
structure InvalidNodeId where
  text : String
deriving DecidableEq

namespace InvalidNodeId

/-- The text quoted after the reason. -/
def message (e : InvalidNodeId) : String := "Invalid node id: " ++ Text.quoted e.text

end InvalidNodeId

/-! ## Positional numbers -/

/-- The value of a digit or letter of either case, `0` to `9` and then `a` to `z`. -/
def digitValue? (c : Char) : Option Nat :=
  if '0' ≤ c ∧ c ≤ '9' then some (c.toNat - '0'.toNat)
  else if 'a' ≤ c ∧ c ≤ 'z' then some (c.toNat - 'a'.toNat + 10)
  else if 'A' ≤ c ∧ c ≤ 'Z' then some (c.toNat - 'A'.toNat + 10)
  else none

/-- Reads digits of a radix, most significant first, after the value read so far. -/
def digitsFrom? (radix value : Nat) : List Char → Option Nat
  | [] => some value
  | c :: cs =>
    match digitValue? c with
    | some d => if d < radix then digitsFrom? radix (value * radix + d) cs else none
    | none => none

/-- The number that a non-empty run of digits of a radix writes. -/
def positional? (radix : Nat) (cs : List Char) : Option Nat :=
  if cs = [] then none else digitsFrom? radix 0 cs

namespace NodeId

/-- Removes one `n` at the end. -/
def dropSuffix (cs : List Char) : List Char :=
  if cs.getLast? = some 'n' then cs.dropLast else cs

/-- The radix that the beginning of a number announces, and the digits after it. -/
def splitRadix : List Char → Nat × List Char
  | '0' :: 'x' :: ds | '0' :: 'X' :: ds => (16, ds)
  | '0' :: 'o' :: ds | '0' :: 'O' :: ds => (8, ds)
  | '0' :: 'b' :: ds | '0' :: 'B' :: ds => (2, ds)
  | ds => (10, ds)

/-- The number that a text writes, of any size. -/
def number? (text : List Char) : Option Nat :=
  let (radix, digits) := splitRadix (dropSuffix (Text.trim text))
  positional? radix digits

/-- Reads a node id; a text that is none is handed back. -/
def parse (text : String) : Except InvalidNodeId NodeId :=
  match number? text.toList with
  | some n => if n < UInt64.size then .ok ⟨UInt64.ofNat n⟩ else .error ⟨text⟩
  | none => .error ⟨text⟩

/-- The id in decimal. -/
def display (id : NodeId) : String := String.ofList (Json.decimalDigits id.value.toNat)

/-- Written as a number; read from a number or from text. -/
instance : Json.Codec NodeId where
  encode id := Json.encode id.value
  decode
    | .string s =>
      match parse s with
      | .ok id => .ok id
      | .error e => .error (.rejected e.message)
    | d => (Json.decode d).map NodeId.mk

end NodeId

/-- A node id as a caller names it. -/
inductive NodeRef where
  | node (id : NodeId)
  | number (n : UInt64)
  | text (s : String)
deriving DecidableEq

namespace NodeRef

/-- The id that is meant. -/
def resolve : NodeRef → Except InvalidNodeId NodeId
  | node id => .ok id
  | number n => .ok ⟨n⟩
  | text s => NodeId.parse s

/-- The reference as the caller wrote it. -/
def display : NodeRef → String
  | node id => id.display
  | number n => NodeId.display ⟨n⟩
  | text s => s

end NodeRef

end DeviceBridge
