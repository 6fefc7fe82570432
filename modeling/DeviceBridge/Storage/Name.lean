import DeviceBridge.Storage.Error

/-!
# DeviceBridge.Storage.Name

The names of namespaces and contexts. A name becomes a file name, so it is not empty, no `.` or
`..`, and holds no slash, no backslash and no control character.
-/

namespace DeviceBridge

/-- Whether a character is a control character of Unicode (category `Cc`). -/
def Text.isControl (c : Char) : Bool := c.toNat < 0x20 ∨ 0x7f ≤ c.toNat ∧ c.toNat < 0xa0

/-- Whether a text can be the name of a namespace or a context. -/
def isStorageName (name : List Char) : Bool :=
  name ≠ [] ∧ name ≠ ['.'] ∧ name ≠ ['.', '.'] ∧
    name.all fun c => c ≠ '/' ∧ c ≠ '\\' ∧ ¬ Text.isControl c

/-- The name of a namespace or a context. -/
structure StorageName where
  text : String
  valid : isStorageName text.toList = true
deriving DecidableEq

namespace StorageName

/-- A text as a name. -/
def parse (text : String) : Except StorageError StorageName :=
  if h : isStorageName text.toList = true then .ok ⟨text, h⟩ else .error (.invalidName text)

@[ext] theorem ext {m n : StorageName} (h : m.text = n.text) : m = n := by
  cases m; cases n; simp_all

/-- Every name is found by its text. -/
@[simp] theorem parse_text (n : StorageName) : parse n.text = .ok n := by
  simp [parse, n.valid]

end StorageName

end DeviceBridge
