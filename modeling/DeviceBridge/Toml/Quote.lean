import DeviceBridge.Toml.Scalar

/-!
# DeviceBridge.Toml.Quote

The strings of TOML. Between double quotes, a backslash begins an escape; between single quotes,
every character stands for itself. Three quotes begin a string that may go over several lines. Every
reader gets the text behind the opening quotes and hands back what it read with the rest.
-/

namespace DeviceBridge.Toml

/-- A reading: what was read, and the rest of the text. -/
abbrev Reading (α : Type) := Option (α × List Char)

/-- Whether a character may stand in a string or a comment. A line feed may not. -/
def isText (c : Char) : Bool := c = '\t' ∨ (' ' ≤ c ∧ c ≠ '\x7f')

/-- Whether a character is a blank. -/
def isSpace (c : Char) : Bool := c = ' ' ∨ c = '\t'

/-- The character with a code point that is written in so many hexadecimal digits. -/
def codePoint? (cs : List Char) : Option Char := do
  let ds ← cs.mapM (digitIn? 16)
  let n := positionalValue 16 ds
  if n < 0xd800 ∨ (0xdfff < n ∧ n ≤ 0x10ffff) then some (Char.ofNat n) else none

/-- Reads an escape behind its backslash. -/
def escape? : List Char → Reading Char
  | 'b' :: cs => some ('\x08', cs)
  | 't' :: cs => some ('\t', cs)
  | 'n' :: cs => some ('\n', cs)
  | 'f' :: cs => some ('\x0c', cs)
  | 'r' :: cs => some ('\r', cs)
  | '"' :: cs => some ('"', cs)
  | '\\' :: cs => some ('\\', cs)
  | 'u' :: a :: b :: c :: d :: cs => (codePoint? [a, b, c, d]).map (·, cs)
  | 'U' :: a :: b :: c :: d :: e :: f :: g :: h :: cs =>
    (codePoint? [a, b, c, d, e, f, g, h]).map (·, cs)
  | _ => none

theorem length_escape? {cs : List Char} {c : Char} {rest : List Char}
    (h : escape? cs = some (c, rest)) : rest.length < cs.length := by
  unfold escape? at h
  split at h <;>
    simp only [Option.map_eq_some_iff, Option.some.injEq, Prod.mk.injEq, reduceCtorEq] at h <;>
    simp only [List.length_cons] <;> grind

/-- Reads to the double quote at the end. -/
def basic? (cs : List Char) : Reading (List Char) :=
  match cs with
  | [] => none
  | '"' :: rest => some ([], rest)
  | '\\' :: cs =>
    match _h : escape? cs with
    | some (c, rest) => (basic? rest).map fun (s, rest) => (c :: s, rest)
    | none => none
  | c :: cs => if isText c then (basic? cs).map fun (s, rest) => (c :: s, rest) else none
termination_by cs.length
decreasing_by
  · have := length_escape? _h; simp; omega
  · simp

/-- Reads to the single quote at the end. -/
def literal? : List Char → Reading (List Char)
  | [] => none
  | '\'' :: rest => some ([], rest)
  | c :: cs => if isText c then (literal? cs).map fun (s, rest) => (c :: s, rest) else none

/-- The text after blanks and line ends, if there is a line end before anything else. -/
def afterLineEnd? (cs : List Char) : Option (List Char) :=
  match cs.dropWhile isSpace with
  | '\n' :: rest => some (rest.dropWhile fun c => isSpace c ∨ c = '\n')
  | _ => none

theorem length_dropWhile_le {α : Type} (p : α → Bool) (xs : List α) :
    (xs.dropWhile p).length ≤ xs.length := (List.dropWhile_sublist p).length_le

theorem length_afterLineEnd? {cs rest : List Char} (h : afterLineEnd? cs = some rest) :
    rest.length < cs.length := by
  unfold afterLineEnd? at h
  have hle := length_dropWhile_le isSpace cs
  split at h
  · rename_i r hr
    rw [hr] at hle
    injection h with h
    subst h
    have := length_dropWhile_le (fun c => isSpace c ∨ c = '\n') r
    simp at hle this ⊢
    omega
  · cases h

/-- Reads a run of quotes that ends a string: it has three to five, of which the last three are the
end. -/
def endQuotes? (quote : Char) (cs : List Char) : Reading (List Char) :=
  let run := cs.takeWhile (· = quote)
  if 3 ≤ run.length ∧ run.length ≤ 5 then
    some (List.replicate (run.length - 3) quote, cs.drop run.length)
  else none

/-- Reads to three quotes at the end, over line ends. With escapes, a backslash at the end of a line
takes away all blanks and line ends that follow it. -/
def multiLine? (quote : Char) (escapes : Bool) (cs : List Char) : Reading (List Char) :=
  match cs with
  | [] => none
  | c :: r =>
    if c = quote ∧ [quote, quote] <+: r then endQuotes? quote cs
    else if c = '\\' ∧ escapes then
      match _h : afterLineEnd? r with
      | some rest => multiLine? quote escapes rest
      | none =>
        match _h : escape? r with
        | some (c, rest) => (multiLine? quote escapes rest).map fun (s, rest) => (c :: s, rest)
        | none => none
    else if isText c ∨ c = '\n' then
      (multiLine? quote escapes r).map fun (s, rest) => (c :: s, rest)
    else none
termination_by cs.length
decreasing_by
  · have := length_afterLineEnd? _h; simp; omega
  · have := length_escape? _h; simp; omega
  · simp

/-- Drops a line end right behind the opening quotes. -/
def dropFirstLineEnd : List Char → List Char
  | '\n' :: cs => cs
  | cs => cs

/-- Reads a string of either kind on one line. -/
def singleLine? : List Char → Reading String
  | '"' :: cs => (basic? cs).map fun (s, rest) => (String.ofList s, rest)
  | '\'' :: cs => (literal? cs).map fun (s, rest) => (String.ofList s, rest)
  | _ => none

/-- Reads a string of any kind. -/
def string? : List Char → Reading String
  | '"' :: '"' :: '"' :: cs =>
    (multiLine? '"' true (dropFirstLineEnd cs)).map fun (s, rest) => (String.ofList s, rest)
  | '\'' :: '\'' :: '\'' :: cs =>
    (multiLine? '\'' false (dropFirstLineEnd cs)).map fun (s, rest) => (String.ofList s, rest)
  | cs => singleLine? cs

end DeviceBridge.Toml
