import DeviceBridge.Text.Quoted

/-!
# DeviceBridge.Files.Error

Why an access to a file failed.
-/

namespace DeviceBridge.Files

/-- Why an access to a file failed. -/
inductive FileError where
  | notFound
  | notADirectory
  | isADirectory
  | directoryNotEmpty
  | alreadyExists
  | nameTooLong
  | invalidPath
  | notText
  | denied
  /-- A failure told in words of its own. -/
  | other (text : String)
deriving DecidableEq

namespace FileError

/-- The failure in words. -/
def message : FileError → String
  | notFound => "No such file or directory"
  | notADirectory => "Not a directory"
  | isADirectory => "Is a directory"
  | directoryNotEmpty => "Directory not empty"
  | alreadyExists => "File exists"
  | nameTooLong => "File name too long"
  | invalidPath => "file name contained an unexpected NUL byte"
  | notText => "stream did not contain valid UTF-8"
  | denied => "Permission denied"
  | other text => text

/-- The failure as it stands in a diagnosis. -/
def describe (e : FileError) : String :=
  let kind :=
    match e with
    | notFound => "NotFound"
    | notADirectory => "NotADirectory"
    | isADirectory => "IsADirectory"
    | directoryNotEmpty => "DirectoryNotEmpty"
    | alreadyExists => "AlreadyExists"
    | nameTooLong => "InvalidFilename"
    | invalidPath => "InvalidInput"
    | notText => "InvalidData"
    | denied => "PermissionDenied"
    | other _ => "Other"
  "Custom \x7b kind: " ++ kind ++ ", error: " ++ Text.quoted e.message ++ " \x7d"

end FileError

end DeviceBridge.Files
