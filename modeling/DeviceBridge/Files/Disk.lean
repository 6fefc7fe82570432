import DeviceBridge.Files.Tree

/-!
# DeviceBridge.Files.Disk

A tree under a sequence of accesses, any of which may fail. An access that fails without a fault of
the disk changes nothing; a fault may leave a file half written or a directory half removed. A
process that is cut off is one for which every access from some point on fails without effect.
-/

namespace DeviceBridge.Files

/-- A failing of the disk. It never claims that something is missing. -/
structure Fault where
  error : FileError
  ne_notFound : error ≠ .notFound
  /-- What a file holds after its writing was broken off, unless it was not touched at all. -/
  torn : Option Content := none
  /-- What was gone of a directory when its removal was broken off. -/
  gone : Location → Bool := fun _ => false

/-- A tree, the faults to come, and the number of accesses so far. -/
structure Disk where
  tree : Tree := []
  /-- The fault of an access, by its number. -/
  faults : Nat → Option Fault := fun _ => none
  accesses : Nat := 0

instance : Inhabited Disk := ⟨{}⟩

/-- A sequence of accesses. -/
abbrev Access (α : Type) := EStateM FileError Disk α

namespace Disk

/-- One access: it does its work on the tree, or a fault strikes and leaves its own traces. -/
def access {α : Type} (work : Tree → Except FileError (α × Tree)) (trace : Fault → Tree → Tree) :
    Access α := fun d =>
  match d.faults d.accesses with
  | some f => .error f.error { d with accesses := d.accesses + 1, tree := trace f d.tree }
  | none =>
    match work d.tree with
    | .ok (a, t) => .ok a { d with accesses := d.accesses + 1, tree := t }
    | .error e => .error e { d with accesses := d.accesses + 1 }

/-- An access that changes nothing. -/
def look {α : Type} (view : Tree → Except FileError α) : Access α :=
  access (fun t => (view t).map (·, t)) fun _ t => t

/-- The text of a file. -/
def read (p : Path) : Access String := look (·.read p)

/-- Whether a path leads to a file or to a directory. -/
def stat (p : Path) : Access Kind := look (·.stat p)

/-- Tells that something is missing by its result. -/
def ifPresent {α : Type} (x : Access α) : Access (Option α) := fun d =>
  match x d with
  | .ok a d => .ok (some a) d
  | .error .notFound d => .ok none d
  | .error e d => .error e d

/-- Whether a path leads to something. -/
def isPresent (p : Path) : Access Bool := do return (← ifPresent (stat p)).isSome

/-- Makes the directories that the pieces of a path lead to, one after the other. -/
def makeDirsFrom (l : Location) : List (List Char) → Access Unit
  | [] => pure ()
  | piece :: rest => do
    let m ← access (fun t => t.makeDir l piece) fun _ t => t
    makeDirsFrom m rest

/-- Makes a directory and all on the way to it that is missing. -/
def makeDirs (p : Path) : Access Unit :=
  match Tree.pathFault? p with
  | some e => throw e
  | none =>
    if p.text = "" then pure () else makeDirsFrom (Tree.start p) p.pieces

/-- Writes a file. Cut off, it may hold anything. -/
def write (p : Path) (c : Content) : Access Unit :=
  access (fun t => (t.write p c).map ((), ·)) fun f t =>
    match f.torn with
    | some c =>
      match t.write p c with
      | .ok t => t
      | .error _ => t
    | none => t

/-- Renames at one stroke. -/
def rename (source target : Path) : Access Unit :=
  access (fun t => (t.rename source target).map ((), ·)) fun _ t => t

/-- Takes away a directory with all that it holds. Cut off, any part of it may be left. -/
def removeTree (p : Path) : Access Unit :=
  access (fun t => (t.removeTree p).map ((), ·)) fun f t =>
    match t.removeTree p, t.locate p with
    | .ok _, .ok l => t.thin l f.gone
    | _, _ => t

end Disk

end DeviceBridge.Files
