import DeviceBridge.Files.Tree

/-!
# DeviceBridge.Files.Change

What has to be done to a tree to make it another one: first all that is in the way is removed, what
lies deeper before what it lies in, then the rest is made, directories before what lies in them.
-/

namespace DeviceBridge.Files

/-- A single change of a tree. -/
inductive Change where
  /-- Removes a file or an empty directory. -/
  | remove (l : Location) (kind : Kind)
  | makeDir (l : Location)
  /-- Writes a file, in place of a former one. -/
  | write (l : Location) (c : Content)
deriving DecidableEq

namespace Tree

/-- Whether an entry is a file or a directory. -/
def kindOf : Entry → Kind
  | .directory => .directory
  | .file _ => .file

/-- What has to be removed. -/
def removals (old new : Tree) : List Change :=
  old.reverse.filterMap fun (l, e) =>
    if (new.get? l).map kindOf = some (kindOf e) then none else some (.remove l (kindOf e))

/-- What has to be made. -/
def creations (old new : Tree) : List Change :=
  new.filterMap fun (l, e) =>
    if old.get? l = some e then none
    else
      match e with
      | .directory => some (.makeDir l)
      | .file c => some (.write l c)

/-- The changes that make one tree another. -/
def changes (old new : Tree) : List Change := removals old new ++ creations old new

end Tree

end DeviceBridge.Files
