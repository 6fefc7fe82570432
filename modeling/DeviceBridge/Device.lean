import DeviceBridge.Json.Codec

/-!
# DeviceBridge.Device

The kinds of devices that the bridge exposes, what each of them serves, and what a device tells
about itself.
-/

namespace DeviceBridge

open Json (encode decode)

/-- A kind of device. -/
inductive DeviceType where
  | onOffLight
  | onOffPlugInUnit
  | dimmableLight
  | thermostat
  | windowCovering
  | doorLock
  | temperatureSensor
  | humiditySensor
  | occupancySensor
  | contactSensor
  | fan
  | colorLight
deriving DecidableEq

/-- A tag that names no kind of device. -/
structure UnknownDeviceType where
  tag : String
deriving DecidableEq

namespace UnknownDeviceType

/-- The tag after the reason. -/
def message (e : UnknownDeviceType) : String := "Unsupported device type " ++ e.tag

end UnknownDeviceType

/-- What an endpoint of a kind announces and serves. -/
structure DeviceProfile where
  /-- The code announced on the endpoint. -/
  code : UInt32
  /-- The clusters that the endpoint serves. -/
  clusters : List String
deriving DecidableEq

namespace DeviceType

/-- All kinds, in the order of their declaration. -/
def all : List DeviceType := [
  onOffLight, onOffPlugInUnit, dimmableLight, thermostat, windowCovering, doorLock,
  temperatureSensor, humiditySensor, occupancySensor, contactSensor, fan, colorLight]

/-- The name of a kind on the wire and in configuration files. -/
def tag : DeviceType → String
  | onOffLight => "OnOffLight"
  | onOffPlugInUnit => "OnOffPlugInUnit"
  | dimmableLight => "DimmableLight"
  | thermostat => "Thermostat"
  | windowCovering => "WindowCovering"
  | doorLock => "DoorLock"
  | temperatureSensor => "TemperatureSensor"
  | humiditySensor => "HumiditySensor"
  | occupancySensor => "OccupancySensor"
  | contactSensor => "ContactSensor"
  | fan => "Fan"
  | colorLight => "ColorLight"

/-- What an endpoint of the kind announces and serves. -/
def profile : DeviceType → DeviceProfile
  | onOffLight => ⟨0x0100, ["onOff"]⟩
  | onOffPlugInUnit => ⟨0x010a, ["onOff"]⟩
  | dimmableLight => ⟨0x0101, ["onOff", "levelControl"]⟩
  | thermostat => ⟨0x0301, ["thermostat"]⟩
  | windowCovering => ⟨0x0202, ["windowCovering"]⟩
  | doorLock => ⟨0x000a, ["doorLock"]⟩
  | temperatureSensor => ⟨0x0302, ["temperatureMeasurement"]⟩
  | humiditySensor => ⟨0x0307, ["relativeHumidityMeasurement"]⟩
  | occupancySensor => ⟨0x0107, ["occupancySensing"]⟩
  | contactSensor => ⟨0x0015, ["booleanState"]⟩
  | fan => ⟨0x002b, ["fanControl"]⟩
  | colorLight => ⟨0x010d, ["onOff", "levelControl", "colorControl"]⟩

/-- The kind with a tag. -/
def ofTag? (tag : String) : Option DeviceType := all.find? fun t => t.tag = tag

/-- The kind with a tag; a tag without a kind is handed back. -/
def parse (tag : String) : Except UnknownDeviceType DeviceType :=
  match ofTag? tag with
  | some t => .ok t
  | none => .error ⟨tag⟩

/-- Every kind is found by its tag. -/
theorem ofTag?_tag (t : DeviceType) : ofTag? t.tag = some t := by
  cases t <;> decide

/-- Written as its tag. -/
instance : Json.Codec DeviceType where
  encode t := .string t.tag
  decode d :=
    match d.tag?.bind ofTag? with
    | some t => .ok t
    | none => .error .mismatch

end DeviceType

/-- The id of a bridged device, chosen by the caller. -/
structure EndpointId where
  text : String
deriving DecidableEq

instance : LT EndpointId := ⟨fun a b => a.text < b.text⟩

instance : DecidableLT EndpointId := fun a b => inferInstanceAs (Decidable (a.text < b.text))

instance : Json.Codec EndpointId where
  encode id := encode id.text
  decode d := (decode d).map EndpointId.mk

/-- What a bridged device tells about itself. -/
structure DeviceInfo where
  nodeLabel : String := ""
  productName : String := ""
  productLabel : String := ""
  serialNumber : String := ""
deriving DecidableEq

instance : Json.Codec DeviceInfo where
  encode i := .record [
    ("nodeLabel", encode i.nodeLabel), ("productName", encode i.productName),
    ("productLabel", encode i.productLabel), ("serialNumber", encode i.serialNumber)]
  decode d := do
    let fs ← d.fields ["nodeLabel", "productName", "productLabel", "serialNumber"]
    return {
      nodeLabel := ← fs.required "nodeLabel"
      productName := ← fs.required "productName"
      productLabel := ← fs.required "productLabel"
      serialNumber := ← fs.required "serialNumber" }

end DeviceBridge
