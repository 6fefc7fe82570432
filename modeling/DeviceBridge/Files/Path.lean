import DeviceBridge.Json.Codec

/-!
# DeviceBridge.Files.Path

Paths as they are written, and what their text says: a path is a sequence of pieces between
slashes. An empty piece or a lone dot in the middle or at the end says nothing, but it stays in the
text until something is cut off.
-/

namespace DeviceBridge.Files

open Json (encode decode)

/-- A path as it is written. -/
structure Path where
  text : String
deriving DecidableEq

instance : Json.Codec Path where
  encode p := encode p.text
  decode d := (decode d).map Path.mk

/-! ## Pieces -/

/-- Parts a text at its slashes: there is one piece more than there are slashes. -/
def splitSlashes : List Char → List (List Char)
  | [] => [[]]
  | c :: cs =>
    if c = '/' then [] :: splitSlashes cs
    else
      match splitSlashes cs with
      | p :: ps => (c :: p) :: ps
      | [] => [[c]]

/-- Puts slashes between pieces. -/
def joinSlashes : List (List Char) → List Char
  | [] => []
  | [p] => p
  | p :: ps => p ++ '/' :: joinSlashes ps

/-- Whether a piece says nothing where it is not the first. -/
def isIdle (piece : List Char) : Bool := piece = [] ∨ piece = ['.']

/-- Drops the idle pieces at the end. -/
def dropIdle (pieces : List (List Char)) : List (List Char) :=
  (pieces.reverse.dropWhile isIdle).reverse

theorem splitSlashes_ne_nil (cs : List Char) : splitSlashes cs ≠ [] := by
  cases cs with
  | nil => simp [splitSlashes]
  | cons c cs => unfold splitSlashes; split <;> (try split) <;> simp

/-- Nothing is lost by parting a text. -/
theorem joinSlashes_splitSlashes (cs : List Char) : joinSlashes (splitSlashes cs) = cs := by
  induction cs with
  | nil => rfl
  | cons c cs ih =>
    obtain ⟨p, ps, h⟩ := List.exists_cons_of_ne_nil (splitSlashes_ne_nil cs)
    rw [h] at ih
    unfold splitSlashes
    by_cases hc : c = '/'
    · simp [hc, h, joinSlashes, ih]
    · cases ps <;> simp_all [joinSlashes]

/-- What a path says: where it starts, and its steps. -/
structure Steps where
  absolute : Bool
  pieces : List (List Char)
deriving DecidableEq

namespace Path

/-- The pieces of the text. -/
def pieces (p : Path) : List (List Char) := splitSlashes p.text.toList

/-- The steps that a path says. A leading dot is kept, as it says that the path has a start. -/
def steps (p : Path) : Steps :=
  match p.pieces with
  | [] => ⟨false, []⟩
  | [first] => ⟨false, if first = [] then [] else [first]⟩
  | first :: rest =>
    if first = [] then ⟨true, rest.filter (!isIdle ·)⟩
    else ⟨false, first :: rest.filter (!isIdle ·)⟩

/-- Whether two paths say the same. -/
def same (p q : Path) : Bool := p.steps = q.steps

/-! ## Extending and cutting -/

/-- The path of a name inside a directory. -/
def join (dir : Path) (name : String) : Path :=
  match dir.text.toList.getLast? with
  | none => ⟨name⟩
  | some '/' => ⟨dir.text ++ name⟩
  | some _ => ⟨dir.text ++ "/" ++ name⟩

/-- The path without its last step; the root and the empty path have none. -/
def parent? (p : Path) : Option Path :=
  match p.pieces with
  | [] => none
  | first :: rest =>
    match dropIdle rest with
    | [] => if first = [] then none else some ⟨""⟩
    | kept =>
      match first, dropIdle kept.dropLast with
      | [], [] => some ⟨"/"⟩
      | first, remaining => some ⟨String.ofList (joinSlashes (first :: remaining))⟩

/-- The name at the end of a path; the root, `.` and `..` are no names. -/
def fileName? (p : Path) : Option (List Char) :=
  match p.pieces with
  | [] => none
  | first :: rest =>
    let last := ((dropIdle rest).getLast?).getD first
    if last = [] ∨ last = ['.'] ∨ last = ['.', '.'] then none else some last

/-- A name without its last dot and what follows; a dot at the beginning does not count. -/
def dropExtension (name : List Char) : List Char :=
  match name.reverse.dropWhile (· ≠ '.') with
  | _ :: c :: cs => (c :: cs).reverse
  | _ => name

/-- The name at the end of a path, without its extension. -/
def stem? (p : Path) : Option String := p.fileName?.map fun n => String.ofList (dropExtension n)

/-- The path with another extension to the name at its end. A path without a name stays as it is. -/
def withExtension (p : Path) (extension : String) : Path :=
  match p.pieces, p.fileName? with
  | first :: rest, some name =>
    let dir := (first :: dropIdle rest).dropLast
    ⟨String.ofList (joinSlashes (dir ++ [dropExtension name ++ '.' :: extension.toList]))⟩
  | _, _ => p

end Path

end DeviceBridge.Files
