import DeviceBridge.Dictionary
import DeviceBridge.Files.Error
import DeviceBridge.Files.Path

/-!
# DeviceBridge.Files.Tree

Files and directories, each at its location, which is the list of names that leads to it from the
working directory or from the root of the system. `Tree.locate` goes along a path. The root and the
working directory are always there, and so are the directories above it.

By which names the root leads to the working directory is not known. Paths that begin at the root,
and those that first lead above the working directory, are taken not to lead back into it.
-/

namespace DeviceBridge.Files

/-- The names that lead to a file or directory: from the working directory, where each `..` at the
beginning leads to the directory above, or from the root of the system, whose name comes first
then. -/
abbrev Location := List String

/-- The root of the system. No piece of a path is its name. -/
def systemRoot : Location := ["/"]

/-- Whether a location is the working directory or one above it. -/
def isWorking (l : Location) : Bool := l.all (· = "..")

/-- Whether a location is where paths begin or above that. -/
def isBase (l : Location) : Bool := l = systemRoot ∨ isWorking l

/-- The directory above; above the root there is the root. -/
def above (l : Location) : Location :=
  if l = systemRoot then l else if isWorking l then l ++ [".."] else l.dropLast

/-- What a file holds. -/
inductive Content where
  | text (s : String)
  /-- Bytes that are no text. -/
  | binary (bytes : List UInt8)
deriving DecidableEq

/-- The content that some bytes are. -/
def Content.ofBytes (bytes : ByteArray) : Content :=
  match String.fromUTF8? bytes with
  | some s => .text s
  | none => .binary bytes.toList

/-- What lies at a location. -/
inductive Entry where
  | directory
  | file (c : Content)
deriving DecidableEq

/-- All files and directories but those where paths begin and above. -/
abbrev Tree := Dictionary Location Entry

/-- Whether there is a file or a directory. -/
inductive Kind where
  | file
  | directory
deriving DecidableEq

/-- The most bytes that a name may have. -/
def nameLimit : Nat := 255

/-- One more than the most bytes that a path may have. -/
def pathLimit : Nat := 4096

namespace Tree

/-! ## Locations -/

/-- What lies at a location. -/
def entry? (t : Tree) (l : Location) : Option Entry :=
  if isBase l then some .directory else t.get? l

/-- Whether something lies below a location. -/
def occupied (t : Tree) (l : Location) : Bool := t.any fun e => l <+: e.1 ∧ e.1 ≠ l

/-- Goes one piece of a path further, from a directory. The piece may lead to where nothing is. -/
def enter (t : Tree) (l : Location) (piece : List Char) : Except FileError Location :=
  match t.entry? l with
  | none => .error .notFound
  | some (.file _) => .error .notADirectory
  | some .directory =>
    if isIdle piece then .ok l
    else if piece = ['.', '.'] then .ok (above l)
    else
      let name := String.ofList piece
      if name.utf8ByteSize ≤ nameLimit then .ok (l ++ [name]) else .error .nameTooLong

/-- What is wrong with a path whatever there is: it holds a NUL, or it is too long. -/
def pathFault? (p : Path) : Option FileError :=
  if '\x00' ∈ p.text.toList then some .invalidPath
  else if p.text.utf8ByteSize < pathLimit then none
  else some .nameTooLong

/-- Whether a path begins at the root of the system. -/
def isAbsolute (p : Path) : Bool := p.text.toList.head? = some '/'

/-- Where a path begins. -/
def start (p : Path) : Location := if isAbsolute p then systemRoot else []

/-- Where a path leads. -/
def locate (t : Tree) (p : Path) : Except FileError Location :=
  match pathFault? p with
  | some e => .error e
  | none => if p.text = "" then .error .notFound else p.pieces.foldlM t.enter (start p)

/-! ## Looking -/

/-- What is found at the end of a path. -/
def find (t : Tree) (p : Path) : Except FileError Entry := do
  match t.entry? (← t.locate p) with
  | some e => .ok e
  | none => .error .notFound

/-- Whether a path leads to a file or to a directory. -/
def stat (t : Tree) (p : Path) : Except FileError Kind := do
  match ← t.find p with
  | .directory => .ok .directory
  | .file _ => .ok .file

/-- The text of a file. -/
def read (t : Tree) (p : Path) : Except FileError String := do
  match ← t.find p with
  | .directory => .error .isADirectory
  | .file (.text s) => .ok s
  | .file (.binary _) => .error .notText

/-! ## Changing -/

/-- Makes the directory that one more piece of a path leads to, unless it is there, and tells where
it is. -/
def makeDir (t : Tree) (l : Location) (piece : List Char) : Except FileError (Location × Tree) := do
  let m ← t.enter l piece
  match t.entry? m with
  | none => .ok (m, t.insert m .directory)
  | some .directory => .ok (m, t)
  | some (.file _) => .error .alreadyExists

/-- Writes a file in a directory that is there, in place of a former file. -/
def write (t : Tree) (p : Path) (c : Content) : Except FileError Tree := do
  let l ← t.locate p
  match t.entry? l with
  | some .directory => .error .isADirectory
  | _ => .ok (t.insert l (.file c))

/-- Takes away a location and all below it. -/
def prune (t : Tree) (l : Location) : Tree := t.filter fun e => ¬ l <+: e.1

/-- Takes away what lies at or below a location as far as `gone` says. A directory stays as long as
something in it does. -/
def thin (t : Tree) (l : Location) (gone : Location → Bool) : Tree :=
  t.filter fun e => ¬ (l <+: e.1 ∧ t.all fun f => ¬ e.1 <+: f.1 ∨ gone f.1)

/-- Takes away a directory with all that it holds. -/
def removeTree (t : Tree) (p : Path) : Except FileError Tree := do
  let l ← t.locate p
  match t.entry? l with
  | none => .error .notFound
  | some (.file _) => .error .notADirectory
  | some .directory => if isBase l then .error .denied else .ok (t.prune l)

/-- Takes all at and below a location to another one. -/
def move (t : Tree) (source target : Location) : Tree :=
  (t.filter fun e => source <+: e.1).foldl
    (fun t e => t.insert (target ++ e.1.drop source.length) e.2) ((t.prune target).prune source)

/-- Renames. A file takes the place of a former file, and a directory that of an empty one. -/
def rename (t : Tree) (source target : Path) : Except FileError Tree := do
  let s ← t.locate source
  let d ← t.locate target
  match t.entry? s, t.entry? d with
  | none, _ => .error .notFound
  | some (.file _), some .directory => .error .isADirectory
  | some .directory, some (.file _) => .error .notADirectory
  | some .directory, some .directory =>
    if s = d then .ok t
    else if isBase s ∨ isBase d then .error .denied
    else if s <+: d then .error .invalidPath
    else if t.occupied d then .error .directoryNotEmpty
    else .ok (t.move s d)
  | some .directory, none =>
    if isBase s then .error .denied
    else if s <+: d then .error .invalidPath
    else .ok (t.move s d)
  | some (.file _), _ => if s = d then .ok t else .ok (t.move s d)

end Tree

end DeviceBridge.Files
