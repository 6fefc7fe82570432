import DeviceBridge.Bridge.Config
import DeviceBridge.Controller.Config
import DeviceBridge.Device

/-!
# DeviceBridge.Daemon.Config

How the daemon is set up: the bridge, perhaps a controller, and the devices to expose from the
start.
-/

namespace DeviceBridge

open Json (Value encode decode)

/-- A device to expose from the start. -/
structure DeviceConfig where
  /-- The tag of the device's kind. -/
  deviceType : String
  id : String
  nodeLabel : Option String := none
  productName : Option String := none
  productLabel : Option String := none
  serialNumber : Option String := none
  /-- First values, under keys of the form `cluster.attribute`. -/
  attributes : Dictionary String Value := []

namespace DeviceConfig

/-- What the device tells about itself. Gaps are filled from its id and its kind. -/
def info (c : DeviceConfig) : DeviceInfo :=
  let productName := c.productName.getD c.deviceType
  { nodeLabel := c.nodeLabel.getD c.id
    productName := productName
    productLabel := c.productLabel.getD productName
    serialNumber := c.serialNumber.getD c.id }

/-- The names of the settings, in order. -/
def names : List String := [
  "type", "id", "node_label", "product_name", "product_label", "serial_number", "attributes"]

instance : Json.Codec DeviceConfig where
  encode c := .record [
    ("type", encode c.deviceType), ("id", encode c.id), ("node_label", encode c.nodeLabel),
    ("product_name", encode c.productName), ("product_label", encode c.productLabel),
    ("serial_number", encode c.serialNumber), ("attributes", encode c.attributes)]
  decode d := do
    let fs ← d.fields names
    return {
      deviceType := ← fs.required "type"
      id := ← fs.required "id"
      nodeLabel := ← fs.optional "node_label" none
      productName := ← fs.optional "product_name" none
      productLabel := ← fs.optional "product_label" none
      serialNumber := ← fs.optional "serial_number" none
      attributes := ← fs.optional "attributes" [] }

end DeviceConfig

/-- The settings of the daemon. -/
structure DaemonConfig where
  bridge : BridgeConfig := {}
  /-- The controller, which only runs when it is set up. -/
  controller : Option ControllerConfig := none
  devices : List DeviceConfig := []

namespace DaemonConfig

/-- The names of the sections, in order. -/
def names : List String := ["bridge", "controller", "device"]

instance : Json.Codec DaemonConfig where
  encode c := .record [
    ("bridge", encode c.bridge), ("controller", encode c.controller),
    ("device", encode c.devices)]
  decode d := do
    let fs ← d.fields names
    return {
      bridge := ← fs.optional "bridge" {}
      controller := ← fs.optional "controller" none
      devices := ← fs.optional "device" [] }

end DaemonConfig

end DeviceBridge
