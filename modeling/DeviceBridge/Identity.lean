import DeviceBridge.Json.Codec

/-!
# DeviceBridge.Identity

The unique id under which a bridge is known to its controllers. A fresh one is a random id of
version 4: 32 hexadecimal digits, of which the thirteenth is `4` and the seventeenth one of
`8`, `9`, `a` and `b`.
-/

namespace DeviceBridge

open Json (encode decode)

/-- The id of the bridge's node, which also names its storage. -/
def defaultNodeId : String := "bridge-0"

/-- The unique id of a bridge. -/
structure UniqueId where
  text : String
deriving DecidableEq

instance : Json.Codec UniqueId where
  encode id := encode id.text
  decode d := (decode d).map UniqueId.mk

/-- 128 random bits. -/
structure RandomBits where
  high : UInt64
  low : UInt64
deriving DecidableEq

namespace UniqueId

/-- The value of a hexadecimal digit of a word, counted from the highest. -/
def hexDigit (w : UInt64) (i : Nat) : Nat := (w.toNat >>> (4 * (15 - i))) % 16

/-- A word in sixteen hexadecimal digits. -/
def hexWord (w : UInt64) : List Char := (List.range 16).map fun i => Nat.digitChar (hexDigit w i)

/-- A fresh id from random bits, of which six are fixed by the version. -/
def random (bits : RandomBits) : UniqueId :=
  let high := (bits.high &&& 0xffffffffffff0fff) ||| 0x4000
  let low := (bits.low &&& 0x3fffffffffffffff) ||| 0x8000000000000000
  ⟨String.ofList (hexWord high ++ hexWord low)⟩

/-- The id of all bridges from the time before ids were kept. -/
def legacy : UniqueId := ⟨defaultNodeId⟩

end UniqueId

end DeviceBridge
