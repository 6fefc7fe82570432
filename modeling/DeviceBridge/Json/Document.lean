import DeviceBridge.Json.Value

/-!
# DeviceBridge.Json.Document

The content of a JSON text in the order in which it is written. Unlike a value, a document may
repeat the members of an object, and it may hold parts that are well formed but denote no value:
a number beyond the doubles, a string with half of a surrogate pair, an array or object nested too
deeply. Such a part does no harm as long as nobody asks for its value.
-/

namespace DeviceBridge.Json

/-- What a JSON text says, in writing order. -/
inductive Document where
  /-- A well-formed part that denotes no value. -/
  | unrepresentable
  | null
  | bool (b : Bool)
  | number (n : Number)
  | string (s : String)
  | array (items : List Document)
  /-- The members with their keys; a key is `none` where it denotes no text. -/
  | object (members : List (Option String × Document))

namespace Document

instance : Inhabited Document := ⟨.null⟩

/-- A document for a whole number. -/
abbrev integer (n : Integer) : Document := .number (.integer n)

/-- An object with the given members. -/
def record (members : List (String × Document)) : Document :=
  .object (members.map fun (k, d) => (some k, d))

mutual

/-- The value that the document denotes: of repeated members the last counts, and a double that is
no number is `null`. -/
def toValue? : Document → Option Value
  | unrepresentable => none
  | null => some .null
  | bool b => some (.bool b)
  | number (.integer n) => some (.number (.integer n))
  | number (.float x) => some (if x.isFinite then .number (.float x) else .null)
  | string s => some (.string s)
  | array items => (toValues? items).map .array
  | object members => (toMembers? members).map fun ms => .object (Dictionary.ofList ms)

/-- The values of all items. -/
def toValues? : List Document → Option (List Value)
  | [] => some []
  | d :: ds => do return (← toValue? d) :: (← toValues? ds)

/-- The keys and values of all members. -/
def toMembers? : List (Option String × Document) → Option (List (String × Value))
  | [] => some []
  | (k, d) :: ms => do return (← k, ← toValue? d) :: (← toMembers? ms)

end

end Document

mutual

/-- The document that writes a value. -/
def Value.toDocument : Value → Document
  | .null => .null
  | .bool b => .bool b
  | .number n => .number n
  | .string s => .string s
  | .array items => .array (Value.toDocuments items)
  | .object members => .object (Value.toEntries members)

/-- The documents of all items. -/
def Value.toDocuments : List Value → List Document
  | [] => []
  | v :: vs => v.toDocument :: Value.toDocuments vs

/-- The documents of all members. -/
def Value.toEntries : List (String × Value) → List (Option String × Document)
  | [] => []
  | (k, v) :: ms => (some k, v.toDocument) :: Value.toEntries ms

end

end DeviceBridge.Json
