import DeviceBridge.Files.Disk
import DeviceBridge.Json.Codec
import DeviceBridge.Storage.Name

/-!
# DeviceBridge.Storage.Context

Values under keys, kept in files. A namespace is a directory below the root of the storage; each
context in it is one JSON document, an object that holds the values of the context. A document is
read anew for every question and written as a whole: first beside its place, then renamed into it,
so that no document is ever seen half written.
-/

namespace DeviceBridge

open Json (Value Object Codec)
open Files (Path Disk)

/-- A sequence of accesses to the storage. -/
abbrev Storing (α : Type) := EStateM StorageError Disk α

namespace Storing

/-- Accesses to the disk; what fails there is a refusal of the storage. -/
def ofDisk {α : Type} (x : Files.Access α) : Storing α := fun d =>
  match x d with
  | .ok a d => .ok a d
  | .error e d => .error (.io e) d

/-- What the storage refuses without a look at the disk. -/
def ofExcept {α : Type} : Except StorageError α → Storing α
  | .ok a => pure a
  | .error e => throw e

/-- What is read out of a document. -/
def ofJson {α : Type} : Except Json.Error α → Storing α
  | .ok a => pure a
  | .error e => throw (.json e)

end Storing

/-- The documents of one node. -/
structure Namespace where
  root : Path
  name : StorageName
deriving DecidableEq

/-- A document of a namespace. -/
structure Context where
  space : Namespace
  name : StorageName
deriving DecidableEq

namespace Namespace

/-- The namespace with a name below a root. -/
def parse (root : Path) (name : String) : Except StorageError Namespace :=
  (StorageName.parse name).map (⟨root, ·⟩)

/-- The directory of a namespace. -/
def dir (n : Namespace) : Path := n.root.join n.name.text

/-- The context with a name. -/
def context (n : Namespace) (name : String) : Except StorageError Context :=
  (StorageName.parse name).map (⟨n, ·⟩)

/-- Forgets all documents of a namespace. -/
def erase (n : Namespace) : Storing Unit :=
  .ofDisk do let _ ← Disk.ifPresent (Disk.removeTree n.dir)

end Namespace

namespace Context

/-- The document of a context. -/
def path (c : Context) : Path := c.space.dir.join (c.name.text ++ ".json")

/-- Where the document is written before it takes its place. -/
def draft (c : Context) : Path := c.path.withExtension "json.tmp"

/-- All values of a context. A document that is missing holds none. -/
def load (c : Context) : Storing Object := do
  match ← Storing.ofDisk (Disk.ifPresent (Disk.read c.path)) with
  | none => return []
  | some text =>
    match ← Storing.ofJson (Json.readValue text) with
    | .object entries => return entries
    | _ => throw (.notAnObject c.path)

/-- Replaces all values of a context. -/
def save (c : Context) (entries : Object) : Storing Unit :=
  .ofDisk do
    Disk.makeDirs c.space.dir
    Disk.write c.draft (.text (Value.object entries).pretty)
    Disk.rename c.draft c.path

/-- The value at a key. -/
def find? (c : Context) (key : String) : Storing (Option Value) := do
  return (← c.load).get? key

/-- The value at a key, read as a type. -/
def get? (α : Type) [Codec α] (c : Context) (key : String) : Storing (Option α) := do
  match ← c.find? key with
  | some v => return some (← Storing.ofJson (Json.decodeValue v))
  | none => return none

/-- Whether there is a value at a key. -/
def has (c : Context) (key : String) : Storing Bool := do
  return (← c.load).contains key

/-- Sets the value at a key. -/
def set (c : Context) (key : String) (value : Value) : Storing Unit := do
  c.save ((← c.load).insert key value)

/-- Removes the value at a key and tells whether there was one. -/
def delete (c : Context) (key : String) : Storing Bool := do
  let entries ← c.load
  if entries.contains key then
    c.save (entries.erase key)
    return true
  else return false

/-- The keys of a context in order. -/
def keys (c : Context) : Storing (List String) := do
  return (← c.load).keys

end Context

end DeviceBridge
