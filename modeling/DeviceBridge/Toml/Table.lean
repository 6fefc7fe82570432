import DeviceBridge.Json.Document

/-!
# DeviceBridge.Toml.Table

Tables while they are being written. A table remembers how it came to be, as that decides who may
still add to it: a header may only define what earlier headers have merely passed through, and
dotted keys may only add to tables that dotted keys have made.
-/

namespace DeviceBridge.Toml

open Json (Document)

mutual

/-- What stands under a key. -/
inductive Node where
  | value (d : Document)
  | table (t : Table)
  /-- An array of tables, newest first. -/
  | tables (newest : Table) (earlier : List Table)

/-- A table: whether it is only passed through so far, whether dotted keys have made it, and what it
holds. -/
inductive Table where
  | mk (implicit dotted : Bool) (entries : List (String × Node))

end

namespace Table

/-- Whether no header has defined the table. -/
def implicit : Table → Bool
  | mk i _ _ => i

/-- Whether dotted keys have made the table. -/
def dotted : Table → Bool
  | mk _ d _ => d

/-- What the table holds, in the order in which it was written. -/
def entries : Table → List (String × Node)
  | mk _ _ es => es

/-- A table that a header defines, without anything in it. -/
def empty : Table := mk false false []

instance : Inhabited Table := ⟨empty⟩

/-- What stands under a key. -/
def find? (t : Table) (key : String) : Option Node := t.entries.lookup key

/-- Puts something under a key, in place of what stands there. -/
def put (t : Table) (key : String) (n : Node) : Table :=
  let entries :=
    if (t.find? key).isSome then t.entries.map fun e => if e.1 = key then (key, n) else e
    else t.entries ++ [(key, n)]
  mk t.implicit t.dotted entries

/-- Goes along a path, makes the tables that are missing, and changes the one at its end. Along
headers the way leads through any table and through the newest of an array; along dotted keys it
does not lead through tables that a header has defined. -/
def changeAt (dotted : Bool) (f : Table → Option Table) : List String → Table → Option Table
  | [], t => f t
  | key :: path, t =>
    match t.find? key with
    | none => (changeAt dotted f path (mk true dotted [])).map fun u => t.put key (.table u)
    | some (.value _) => none
    | some (.table u) =>
      if dotted && !u.implicit then none
      else (changeAt dotted f path u).map fun u => t.put key (.table u)
    | some (.tables u us) =>
      (changeAt dotted f path u).map fun u => t.put key (.tables u us)

/-- Writes a value under a dotted key. The key must be free, and a table that dotted keys have not
made takes no value through a dotted key. -/
def enter (path : List String) (key : String) (d : Document) (t : Table) : Option Table :=
  changeAt true
    (fun u =>
      if u.dotted = path.isEmpty ∨ (u.find? key).isSome then none
      else some (u.put key (.value d))) path t

/-- Defines the table with a header. -/
def define (path : List String) (key : String) (t : Table) : Option Table :=
  changeAt false
    (fun u =>
      match u.find? key with
      | none => some (u.put key (.table empty))
      | some (.table v) =>
        if v.implicit && !v.dotted then some (u.put key (.table (mk false false v.entries)))
        else none
      | some _ => none) path t

/-- Adds a table to the array with a header. -/
def append (path : List String) (key : String) (t : Table) : Option Table :=
  changeAt false
    (fun u =>
      match u.find? key with
      | none => some (u.put key (.tables empty []))
      | some (.tables v vs) => some (u.put key (.tables empty (v :: vs)))
      | some _ => none) path t

end Table

mutual

/-- What stands under a key, as a document. -/
def Node.toDocument : Node → Document
  | .value d => d
  | .table t => t.toDocument
  | .tables t ts => .array (Table.toDocuments ts [t.toDocument])

/-- A table as a document. -/
def Table.toDocument : Table → Document
  | .mk _ _ es => .object (Table.toMembers es)

/-- An array of tables as documents, the newest first, in front of those that are newer still. -/
def Table.toDocuments : List Table → List Document → List Document
  | [], ds => ds
  | t :: ts, ds => Table.toDocuments ts (t.toDocument :: ds)

/-- What a table holds, as members of an object. -/
def Table.toMembers : List (String × Node) → List (Option String × Document)
  | [] => []
  | (k, n) :: es => (some k, n.toDocument) :: Table.toMembers es

end

end DeviceBridge.Toml
