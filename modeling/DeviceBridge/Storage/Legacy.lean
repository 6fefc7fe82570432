import DeviceBridge.Storage.Context

/-!
# DeviceBridge.Storage.Legacy

Older installations kept all contexts of a namespace in a single file, an object with a member for
each. Such a file is converted once into a namespace, which takes the file's name without its
extension: the documents are written into a directory beside it, and the directory is renamed when
it is complete. The file itself stays as it is.
-/

namespace DeviceBridge

open Json (Value Object)
open Files (Path Disk)

/-- Where the storage for a location is. -/
structure Conversion where
  /-- The root of the storage. -/
  outputDir : Path
  /-- The name of the namespace. -/
  id : String
  /-- Whether a file has just been converted. -/
  converted : Bool
deriving DecidableEq

namespace Legacy

/-- The directory of a location and the name of the namespace in it. -/
def split (location : Path) : Except StorageError (Path × String) :=
  match location.stem? with
  | none => .error (.invalidName location.text)
  | some id =>
    match location.parent? with
    | some dir => if dir.text = "" then .ok (⟨"."⟩, id) else .ok (dir, id)
    | none => .ok (⟨"."⟩, id)

/-- The contents of a context. A value outside of any context becomes one that holds it under its
own name. -/
def contents (name : String) : Value → Object
  | .object entries => entries
  | v => [(name, v)]

/-- The name of the directory in which the documents are collected. -/
def stagingName (id : String) : String := id ++ ".converting"

/-- Writes all contexts into a namespace, once all of their names are known to be good. -/
def writeContexts (space : Namespace) (contexts : Object) : Storing Unit := do
  contexts.forM fun (name, _) => discard (Storing.ofExcept (StorageName.parse name))
  contexts.forM fun (name, value) => do
    let c ← Storing.ofExcept (space.context name)
    c.save (contents name value)

/-- Takes the namespace away again if something fails, however that goes. -/
def orDiscard {α : Type} (space : Namespace) (x : Storing α) : Storing α := fun d =>
  match x d with
  | .ok a d => .ok a d
  | .error e d =>
    match Disk.removeTree space.dir d with
    | .ok _ d | .error _ d => .error e d

/-- The contexts in a file. -/
def readContexts (location : Path) : Storing Object := do
  let text ← Storing.ofDisk (Disk.read location)
  match ← Storing.ofJson (Json.readValue text) with
  | .object contexts => return contexts
  | _ => throw (.notAnObject location)

/-- Writes all contexts into a namespace and renames its directory when it is complete. -/
def build (staging : Namespace) (target : Path) (contexts : Object) : Storing Unit := do
  orDiscard staging (writeContexts staging contexts)
  Storing.ofDisk do
    Disk.makeDirs staging.dir
    Disk.rename staging.dir target

/-- Converts a file into the directory with the given path, which does not exist. -/
def convertFile (location outputDir target : Path) (id : String) : Storing Unit := do
  let contexts ← readContexts location
  let staging ← Storing.ofExcept (Namespace.parse outputDir (stagingName id))
  if ← Storing.ofDisk (Disk.isPresent staging.dir) then
    Storing.ofDisk (Disk.removeTree staging.dir)
  build staging target contexts

/-- Finds the storage for a location. A file there is converted, unless its namespace exists. -/
def convert (location : Path) : Storing Conversion := do
  let (outputDir, id) ← Storing.ofExcept (split location)
  let kept : Conversion := ⟨outputDir, id, false⟩
  match ← Storing.ofDisk (Disk.ifPresent (Disk.stat location)) with
  | some .file =>
    let target := outputDir.join id
    if ← Storing.ofDisk (Disk.isPresent target) then return kept
    convertFile location outputDir target id
    return { kept with converted := true }
  | _ => return kept

end Legacy

end DeviceBridge
