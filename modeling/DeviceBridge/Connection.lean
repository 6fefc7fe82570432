import DeviceBridge.Json.Codec

/-!
# DeviceBridge.Connection

What a caller may ask for when a controller connects to a node.
-/

namespace DeviceBridge

open Json (encode decode)

/-- A span of time: whole nanoseconds, less than `2^64` seconds. -/
structure Duration where
  nanoseconds : Nat
  bound : nanoseconds < 0x1_0000_0000_0000_0000 * 1_000_000_000
deriving DecidableEq

namespace Duration

/-- A span of whole milliseconds. -/
def ofMillis (ms : UInt64) : Duration :=
  ⟨ms.toNat * 1_000_000, by have := ms.toNat_lt; omega⟩

/-- The whole milliseconds of a span, modulo `2^64`. -/
def millis (d : Duration) : UInt64 := UInt64.ofNat (d.nanoseconds / 1_000_000)

/-- Written as a number of milliseconds. -/
instance : Json.Codec Duration where
  encode d := encode d.millis
  decode d := (decode d).map ofMillis

end Duration

/-- Options of a connection. -/
structure ConnectOptions where
  /-- Subscribe to all attributes and events once connected. -/
  autoSubscribe : Bool := false
  /-- Give up the first attempt after this long. -/
  connectTimeout : Option Duration := none
  subscribeMinIntervalFloor : Option Duration := none
  subscribeMaxIntervalCeiling : Option Duration := none
deriving DecidableEq

instance : Json.Codec ConnectOptions where
  encode o := .record [
    ("autoSubscribe", encode o.autoSubscribe), ("connectTimeout", encode o.connectTimeout),
    ("subscribeMinIntervalFloor", encode o.subscribeMinIntervalFloor),
    ("subscribeMaxIntervalCeiling", encode o.subscribeMaxIntervalCeiling)]
  decode d := do
    let fs ← d.fields [
      "autoSubscribe", "connectTimeout", "subscribeMinIntervalFloor",
      "subscribeMaxIntervalCeiling"]
    return {
      autoSubscribe := ← fs.optional "autoSubscribe" false
      connectTimeout := ← fs.optional "connectTimeout" none
      subscribeMinIntervalFloor := ← fs.optional "subscribeMinIntervalFloor" none
      subscribeMaxIntervalCeiling := ← fs.optional "subscribeMaxIntervalCeiling" none }

end DeviceBridge
