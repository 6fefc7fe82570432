import DeviceBridge.Toml.Quote
import DeviceBridge.Toml.Table

/-!
# DeviceBridge.Toml.Reader

Reading a TOML text. It is a sequence of lines, each with a header or with a key and its value. An
array may go over several lines, an inline table may not. Every reader goes on only with less text
than it was given.
-/

namespace DeviceBridge.Toml

open Json (Document)

/-- How deeply arrays and inline tables may lie within each other, and the most parts of a key. -/
def depthLimit : Nat := 79

/-! ## Between values -/

/-- Skips blanks. -/
def skipSpaces (cs : List Char) : List Char := cs.dropWhile isSpace

/-- Skips blanks, line ends and comments, the first part of the text perhaps being in a comment. -/
def skipLines (comment : Bool) : List Char → List Char
  | [] => []
  | c :: cs =>
    if c = '\n' then skipLines false cs
    else if comment then if isText c then skipLines true cs else c :: cs
    else if isSpace c then skipLines false cs
    else if c = '#' then skipLines true cs
    else c :: cs

theorem length_skipSpaces_le (cs : List Char) : (skipSpaces cs).length ≤ cs.length :=
  length_dropWhile_le _ _

theorem length_skipLines_le (comment : Bool) (cs : List Char) :
    (skipLines comment cs).length ≤ cs.length := by
  induction cs generalizing comment with
  | nil => simp [skipLines]
  | cons c cs ih =>
    unfold skipLines
    have hf := ih false
    have ht := ih true
    repeat' split
    all_goals simp only [List.length_cons]; omega

/-- Skips the rest of a line, which holds nothing but blanks and a comment. -/
def lineEnd? (cs : List Char) : Option (List Char) :=
  let rest :=
    match skipSpaces cs with
    | '#' :: cs => cs.dropWhile isText
    | cs => cs
  match rest with
  | [] => some []
  | '\n' :: rest => some rest
  | _ => none

/-! ## Keys -/

/-- Whether a character may stand in a key without quotes. -/
def isKeyChar (c : Char) : Bool := c.isAlphanum ∨ c = '_' ∨ c = '-'

/-- Reads one part of a key. -/
def keyPart? (cs : List Char) : Reading String :=
  match cs with
  | '"' :: _ | '\'' :: _ => singleLine? cs
  | _ =>
    let name := cs.takeWhile isKeyChar
    if name = [] then none else some (String.ofList name, cs.dropWhile isKeyChar)

/-- Reads the parts of a key, with dots between them. -/
def keyParts? (cs : List Char) : Reading (List String) :=
  match keyPart? (skipSpaces cs) with
  | none => none
  | some (part, rest) =>
    match skipSpaces rest with
    | '.' :: rest =>
      if rest.length < cs.length then
        (keyParts? rest).map fun (parts, rest) => (part :: parts, rest)
      else none
    | rest => some ([part], rest)
termination_by cs.length

/-- Reads a key: the path to its table, and its last part. -/
def key? (cs : List Char) : Reading (List String × String) :=
  match keyParts? cs with
  | none => none
  | some (parts, rest) =>
    if depthLimit < parts.length then none
    else parts.getLast?.map fun last => ((parts.dropLast, last), rest)

/-! ## Values -/

/-- Whether a character may stand in a value without quotes. -/
def isScalarChar (c : Char) : Bool := c.isAlphanum ∨ c ∈ ['_', '-', '+', '.', ':']

/-- Cuts off the text of a value without quotes. A blank may stand between a date and a time. -/
def cutScalar (cs : List Char) : List Char × List Char :=
  let first := cs.takeWhile isScalarChar
  let rest := cs.dropWhile isScalarChar
  match rest with
  | ' ' :: c :: more =>
    if isDate first ∧ c.isDigit then
      (first ++ ' ' :: (c :: more).takeWhile isScalarChar, (c :: more).dropWhile isScalarChar)
    else (first, rest)
  | _ => (first, rest)

mutual

/-- Reads a value in which arrays and inline tables may lie so deeply within each other. -/
def value? (depth : Nat) (cs : List Char) : Reading Document :=
  match cs with
  | '"' :: _ | '\'' :: _ => (string? cs).map fun (s, rest) => (.string s, rest)
  | '[' :: cs =>
    if depth = 0 then none
    else (items? (depth - 1) cs).map fun (ds, rest) => (.array ds, rest)
  | '\x7b' :: cs =>
    if depth = 0 then none
    else
      match skipSpaces cs with
      | '\x7d' :: rest => some (.object [], rest)
      | _ => (pairs? (depth - 1) .empty cs).map fun (t, rest) => (t.toDocument, rest)
  | cs =>
    let (text, rest) := cutScalar cs
    (scalar? text).map (·, rest)
termination_by (cs.length, 0)

/-- Reads the items of an array to its end. A comma may stand behind the last. -/
def items? (depth : Nat) (cs : List Char) : Reading (List Document) :=
  match skipLines false cs with
  | ']' :: rest => some ([], rest)
  | _ =>
    match value? depth (skipLines false cs) with
    | none => none
    | some (d, rest) =>
      match skipLines false rest with
      | ']' :: rest => some ([d], rest)
      | ',' :: rest =>
        if rest.length < cs.length then
          (items? depth rest).map fun (ds, rest) => (d :: ds, rest)
        else none
      | _ => none
termination_by (cs.length, 1)
decreasing_by
  · have := length_skipLines_le false cs
    rcases Nat.lt_or_eq_of_le this with h | h
    · exact Prod.Lex.left _ _ h
    · rw [h]; exact Prod.Lex.right _ (by omega)
  · exact Prod.Lex.left _ _ (by assumption)

/-- Reads the pairs of an inline table to its end, at least one. -/
def pairs? (depth : Nat) (t : Table) (cs : List Char) : Reading Table :=
  match key? cs with
  | some ((path, key), '=' :: rest) =>
    if _h : rest.length < cs.length then
      match value? depth (skipSpaces rest) with
      | none => none
      | some (d, rest) =>
        match t.enter path key d, skipSpaces rest with
        | some t, '\x7d' :: rest => some (t, rest)
        | some t, ',' :: rest => if rest.length < cs.length then pairs? depth t rest else none
        | _, _ => none
    else none
  | _ => none
termination_by (cs.length, 1)
decreasing_by
  · exact Prod.Lex.left _ _ (Nat.lt_of_le_of_lt (length_skipSpaces_le _) _h)
  · exact Prod.Lex.left _ _ (by assumption)

end

/-! ## Lines -/

/-- What a line says. -/
inductive Statement where
  | entry (path : List String) (key : String) (d : Document)
  | table (path : List String) (key : String)
  | arrayItem (path : List String) (key : String)

/-- Reads a header or a key with its value. -/
def statement? (cs : List Char) : Reading Statement :=
  match cs with
  | '[' :: '[' :: cs =>
    match key? cs with
    | some ((path, key), ']' :: ']' :: rest) => some (.arrayItem path key, rest)
    | _ => none
  | '[' :: cs =>
    match key? cs with
    | some ((path, key), ']' :: rest) => some (.table path key, rest)
    | _ => none
  | cs =>
    match key? cs with
    | some ((path, key), '=' :: rest) =>
      (value? depthLimit (skipSpaces rest)).map fun (d, rest) => (.entry path key d, rest)
    | _ => none

/-- Everything read so far, and the path to the table of the last header. -/
structure Draft where
  root : Table := .empty
  header : List String := []

/-- Takes in a line. -/
def Draft.add (d : Draft) : Statement → Option Draft
  | .entry path key v =>
    (d.root.changeAt false (·.enter path key v) d.header).map ({ d with root := · })
  | .table path key => (d.root.define path key).map (⟨·, path ++ [key]⟩)
  | .arrayItem path key => (d.root.append path key).map (⟨·, path ++ [key]⟩)

/-- Reads all lines. -/
def lines? (d : Draft) (cs : List Char) : Option Draft :=
  match skipLines false cs with
  | [] => some d
  | start =>
    match statement? start with
    | none => none
    | some (s, rest) =>
      match d.add s, lineEnd? rest with
      | some d, some rest => if rest.length < cs.length then lines? d rest else none
      | _, _ => none
termination_by cs.length

/-- Writes every line end as a line feed alone. -/
def unifyLineEnds : List Char → List Char
  | '\r' :: '\n' :: cs => '\n' :: unifyLineEnds cs
  | c :: cs => c :: unifyLineEnds cs
  | [] => []

/-- Drops a byte order mark in front. -/
def dropMark : List Char → List Char
  | '\ufeff' :: cs => cs
  | cs => cs

/-- Reads a text as one object. -/
def read (text : String) : Option Document :=
  (lines? {} (unifyLineEnds (dropMark text.toList))).map fun d => d.root.toDocument

end DeviceBridge.Toml
