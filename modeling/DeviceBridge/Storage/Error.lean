import DeviceBridge.Files.Error
import DeviceBridge.Files.Path
import DeviceBridge.Json.Reader

/-!
# DeviceBridge.Storage.Error

Why the storage refused.
-/

namespace DeviceBridge

/-- The reason in words. -/
def Json.Error.message : Json.Error → String
  | malformed => "malformed text"
  | mismatch => "unexpected content"
  | rejected text => text

/-- Why the storage refused. -/
inductive StorageError where
  | io (e : Files.FileError)
  | json (e : Json.Error)
  | invalidName (name : String)
  | notAnObject (path : Files.Path)
deriving DecidableEq

namespace StorageError

/-- The refusal in words. -/
def message : StorageError → String
  | io e => "IO error: " ++ e.message
  | json e => "JSON error: " ++ e.message
  | invalidName name => "Invalid storage name: " ++ Text.quoted name
  | notAnObject path => "Storage document " ++ path.text ++ " is not a JSON object"

/-- What lies behind the refusal, in words, the nearest first. -/
def causes : StorageError → List String
  | io e => [e.message]
  | json e => [e.message]
  | invalidName _ | notAnObject _ => []

/-- The refusal as it stands in a diagnosis. -/
def describe : StorageError → String
  | io e => "IoError(" ++ e.describe ++ ")"
  | json e => "JsonError(Error(" ++ Text.quoted e.message ++ "))"
  | invalidName name => "InvalidName(" ++ Text.quoted name ++ ")"
  | notAnObject path => "NotAnObject(" ++ Text.quoted path.text ++ ")"

end StorageError

end DeviceBridge
