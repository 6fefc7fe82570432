import DeviceBridge.Json.Token

/-!
# DeviceBridge.Json.Reader

Reading a JSON text. The tokens drive an automaton whose memory is the stack of arrays and objects
that are still open, so nesting is not bounded by anything but the text. An array or object inside
more than `nestingLimit - 1` others is read like any other, but denotes no value.
-/

namespace DeviceBridge.Json

/-- Why a text or a document has no value of the wanted type. -/
inductive Error where
  /-- The text is no JSON. -/
  | malformed
  /-- The document has another shape than the type asks for. -/
  | mismatch
  /-- The shape fits, but the type refuses the content, in its own words. -/
  | rejected (message : String)
deriving DecidableEq

/-- How many arrays and objects may lie within each other. -/
def nestingLimit : Nat := 127

/-- An array or object that is still open, with what it holds so far, newest first. -/
inductive Frame where
  | array (items : List Document)
  /-- An object in the middle of the member with the given key. -/
  | object (members : List (Option String × Document)) (key : Option String)

/-- What may come next. -/
inductive Reader where
  | wantValue (stack : List Frame)
  | wantFirstItem (stack : List Frame)
  | afterItem (items : List Document) (stack : List Frame)
  | wantFirstKey (stack : List Frame)
  | wantKey (members : List (Option String × Document)) (stack : List Frame)
  | wantColon (members : List (Option String × Document)) (key : Option String)
      (stack : List Frame)
  | afterMember (members : List (Option String × Document)) (stack : List Frame)
  /-- The document is complete. -/
  | done (d : Document)
  /-- Something follows the complete document. -/
  | trailing (d : Document)
  | failed

namespace Reader

/-- Hands a complete document to the innermost open array or object. -/
def complete (d : Document) : List Frame → Reader
  | [] => done d
  | .array items :: stack => afterItem (d :: items) stack
  | .object members key :: stack => afterMember ((key, d) :: members) stack

/-- Closes an array or object that lies inside the given ones. -/
def close (d : Document) (stack : List Frame) : Reader :=
  complete (if stack.length < nestingLimit then d else .unrepresentable) stack

/-- Reads the token that begins a value. -/
def begin (stack : List Frame) : Token → Reader
  | .scalar d => complete d stack
  | .text (some s) => complete (.string s) stack
  | .text none => complete .unrepresentable stack
  | .openArray => wantFirstItem stack
  | .openObject => wantFirstKey stack
  | _ => failed

/-- Reads one token. -/
def step : Reader → Token → Reader
  | wantValue stack, t => begin stack t
  | wantFirstItem stack, .closeArray => close (.array []) stack
  | wantFirstItem stack, t => begin (.array [] :: stack) t
  | afterItem items stack, .comma => wantValue (.array items :: stack)
  | afterItem items stack, .closeArray => close (.array items.reverse) stack
  | wantFirstKey stack, .closeObject => close (.object []) stack
  | wantFirstKey stack, .text k => wantColon [] k stack
  | wantKey members stack, .text k => wantColon members k stack
  | wantColon members k stack, .colon => wantValue (.object members k :: stack)
  | afterMember members stack, .comma => wantKey members stack
  | afterMember members stack, .closeObject => close (.object members.reverse) stack
  | done d, _ => trailing d
  | trailing d, _ => trailing d
  | _, _ => failed

end Reader

/-- Reads the tokens of a text as far as they go. -/
def readTokens (ts : List Token) : Reader := ts.foldl Reader.step (.wantValue [])

/-- Reads a text as one document. -/
def read (text : String) : Except Error Document :=
  match readTokens (tokens text.toList) with
  | .done d => .ok d
  | _ => .error .malformed

/-- Reads a text as a value. -/
def readValue (text : String) : Except Error Value :=
  match read text with
  | .error e => .error e
  | .ok d =>
    match d.toValue? with
    | some v => .ok v
    | none => .error .mismatch

end DeviceBridge.Json
