import DeviceBridge.Json.Document
import DeviceBridge.Decimal.Shortest

/-!
# DeviceBridge.Json.Writer

Writing JSON: compactly, without any blank, or on lines, indented by two blanks for each level.
Doubles are written with the fewest digits that read back, positionally from `1e-5` up to below
`1e16` and always with a point there, with an exponent that carries its sign elsewhere.
-/

namespace DeviceBridge.Json

/-! ## Doubles -/

/-- How a decimal is laid out: positional notation for the decimal exponents from `lowest` to
`highest` (of the first digit), scientific notation elsewhere. -/
structure Layout where
  lowest : Int
  highest : Int

/-- Numbers from `0.00001` to below `1e16` are written positionally. -/
def floatLayout : Layout := ⟨-5, 15⟩

/-- The digits of a number in decimal notation. -/
def decimalDigits (n : Nat) : List Char := Nat.toDigits 10 n

/-- Lays out a positive decimal. -/
def layOut (f : Layout) (d : Decimal) : List Char :=
  let digits := decimalDigits d.digits
  let first : Int := d.exponent + digits.length - 1
  if first < f.lowest ∨ f.highest < first then
    let mantissa :=
      match digits with
      | [c] => [c]
      | c :: r => c :: '.' :: r
      | [] => []
    mantissa ++ 'e' :: (if first < 0 then '-' else '+') :: decimalDigits first.natAbs
  else if 0 ≤ d.exponent then
    digits ++ List.replicate d.exponent.toNat '0' ++ ['.', '0']
  else if 0 ≤ first then
    digits.take (first.toNat + 1) ++ '.' :: digits.drop (first.toNat + 1)
  else
    '0' :: '.' :: List.replicate (-first - 1).toNat '0' ++ digits

/-- A double as it is written. What is no number is written as `null`. -/
def writeFloat (x : Float) : List Char :=
  if x.isFinite then
    let b := Decimal.Binary.ofBits x.toBits
    let magnitude :=
      if b.m = 0 then ['0', '.', '0'] else layOut floatLayout (Decimal.shortest b).normalize
    if x.toBits >>> 63 = 0 then magnitude else '-' :: magnitude
  else ['n', 'u', 'l', 'l']

/-- A number as it is written. -/
def writeNumber : Number → List Char
  | .integer n => (if n.val < 0 then ['-'] else []) ++ decimalDigits n.val.natAbs
  | .float x => writeFloat x

/-! ## Strings -/

/-- A number below 256 in two lower-case hexadecimal digits. -/
def twoHexDigits (n : Nat) : List Char := [Nat.digitChar (n / 16), Nat.digitChar (n % 16)]

/-- One character as it is written in a string. -/
def writeChar (c : Char) : List Char :=
  if c = '"' ∨ c = '\\' then ['\\', c]
  else if c = '\x08' then ['\\', 'b']
  else if c = '\x0c' then ['\\', 'f']
  else if c = '\n' then ['\\', 'n']
  else if c = '\r' then ['\\', 'r']
  else if c = '\t' then ['\\', 't']
  else if c.toNat < 0x20 then '\\' :: 'u' :: '0' :: '0' :: twoHexDigits c.toNat
  else [c]

/-- A string as it is written. -/
def writeString (s : String) : List Char := '"' :: s.toList.flatMap writeChar ++ ['"']

/-! ## Documents -/

/-- A key as it is written. -/
def writeKey (k : Option String) : List Char := writeString (k.getD "")

namespace Document

mutual

/-- A document without blanks, in front of what follows it. -/
def writeCompact : Document → List Char → List Char
  | unrepresentable, rest | null, rest => 'n' :: 'u' :: 'l' :: 'l' :: rest
  | bool true, rest => 't' :: 'r' :: 'u' :: 'e' :: rest
  | bool false, rest => 'f' :: 'a' :: 'l' :: 's' :: 'e' :: rest
  | number n, rest => writeNumber n ++ rest
  | string s, rest => writeString s ++ rest
  | array items, rest => '[' :: compactItems true items (']' :: rest)
  | object members, rest => '\x7b' :: compactMembers true members ('\x7d' :: rest)

/-- The items of an array, each but the first after a comma. -/
def compactItems (first : Bool) : List Document → List Char → List Char
  | [], rest => rest
  | d :: ds, rest =>
    (if first then [] else [',']) ++ writeCompact d (compactItems false ds rest)

/-- The members of an object, each but the first after a comma. -/
def compactMembers (first : Bool) : List (Option String × Document) → List Char → List Char
  | [], rest => rest
  | (k, d) :: ms, rest =>
    (if first then [] else [',']) ++ writeKey k ++
      ':' :: writeCompact d (compactMembers false ms rest)

end

/-- A line end and the indentation of a level. -/
def lineBreak (level : Nat) : List Char := '\n' :: List.replicate (2 * level) ' '

mutual

/-- A document on lines, in front of what follows it. -/
def writePretty (level : Nat) : Document → List Char → List Char
  | array (d :: ds), rest =>
    '[' :: prettyItems (level + 1) true (d :: ds) (lineBreak level ++ ']' :: rest)
  | object (m :: ms), rest =>
    '\x7b' :: prettyMembers (level + 1) true (m :: ms) (lineBreak level ++ '\x7d' :: rest)
  | array [], rest => '[' :: ']' :: rest
  | object [], rest => '\x7b' :: '\x7d' :: rest
  | unrepresentable, rest | null, rest => 'n' :: 'u' :: 'l' :: 'l' :: rest
  | bool true, rest => 't' :: 'r' :: 'u' :: 'e' :: rest
  | bool false, rest => 'f' :: 'a' :: 'l' :: 's' :: 'e' :: rest
  | number n, rest => writeNumber n ++ rest
  | string s, rest => writeString s ++ rest

/-- The items of an array, one on a line. -/
def prettyItems (level : Nat) (first : Bool) : List Document → List Char → List Char
  | [], rest => rest
  | d :: ds, rest =>
    (if first then [] else [',']) ++ lineBreak level ++
      writePretty level d (prettyItems level false ds rest)

/-- The members of an object, one on a line. -/
def prettyMembers (level : Nat) (first : Bool) :
    List (Option String × Document) → List Char → List Char
  | [], rest => rest
  | (k, d) :: ms, rest =>
    (if first then [] else [',']) ++ lineBreak level ++ writeKey k ++
      ':' :: ' ' :: writePretty level d (prettyMembers level false ms rest)

end

/-- The compact text of a document. -/
def compact (d : Document) : String := String.ofList (d.writeCompact [])

/-- The text of a document on indented lines. -/
def pretty (d : Document) : String := String.ofList (d.writePretty 0 [])

end Document

/-- The compact text of a value. -/
def Value.compact (v : Value) : String := v.toDocument.compact

/-- The text of a value on indented lines. -/
def Value.pretty (v : Value) : String := v.toDocument.pretty

end DeviceBridge.Json
