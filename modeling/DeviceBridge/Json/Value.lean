import DeviceBridge.Dictionary

/-!
# DeviceBridge.Json.Value

JSON values. Whole numbers are kept exactly as far as 64 bits reach (signed below zero, unsigned
above); every other number is a double. The members of an object stand in the order of their keys,
compared code point by code point, each key once.
-/

namespace DeviceBridge.Json

/-- A whole number that is kept exactly: at least `-2^63` and below `2^64`. -/
structure Integer where
  val : Int
  lower : -0x8000_0000_0000_0000 ≤ val
  upper : val < 0x1_0000_0000_0000_0000
deriving DecidableEq

namespace Integer

/-- The number, if it is in range. -/
def ofInt? (i : Int) : Option Integer :=
  if h : -0x8000_0000_0000_0000 ≤ i ∧ i < 0x1_0000_0000_0000_0000 then some ⟨i, h.1, h.2⟩ else none

/-- An unsigned word is in range. -/
def ofUInt64 (n : UInt64) : Integer :=
  ⟨n.toNat, by omega, by have := n.toNat_lt; omega⟩

/-- A signed word is in range. -/
def ofInt64 (n : Int64) : Integer :=
  ⟨n.toInt, by have := n.le_toInt; omega, by have := n.toInt_lt; omega⟩

@[ext] theorem ext {m n : Integer} (h : m.val = n.val) : m = n := by
  cases m; cases n; simp_all

end Integer

/-- A number: whole and exact, or a double. -/
inductive Number where
  | integer (n : Integer)
  | float (x : Float)

/-- A JSON value. -/
inductive Value where
  | null
  | bool (b : Bool)
  | number (n : Number)
  | string (s : String)
  | array (items : List Value)
  | object (members : List (String × Value))

/-- The members of an object, by key. -/
abbrev Object := Dictionary String Value

instance : Inhabited Value := ⟨.null⟩

end DeviceBridge.Json
