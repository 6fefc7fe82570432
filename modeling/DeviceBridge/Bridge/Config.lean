import DeviceBridge.Announcement
import DeviceBridge.Commissioning
import DeviceBridge.Files.Path
import DeviceBridge.Identity

/-!
# DeviceBridge.Bridge.Config

How a bridge is set up. Every setting has a value to fall back on.
-/

namespace DeviceBridge

open Json (encode decode)

/-- The settings of a bridge. -/
structure BridgeConfig where
  /-- The directory into which the bridge's node persists. -/
  storagePath : Files.Path := ⟨"data/bridge"⟩
  /-- The name announced during commissioning. -/
  deviceName : String := "mbridge"
  vendorName : String := "mbridge"
  passcode : UInt32 := 20202021
  discriminator : UInt16 := 3840
  vendorId : UInt16 := 0xfff1
  /-- The product's name, which also serves as its label and as that of the node. -/
  productName : String := "mbridge Bridge"
  productId : UInt16 := 0x8000
  /-- The UDP port of the node. -/
  port : UInt16 := 5540
deriving DecidableEq

namespace BridgeConfig

/-- The serial number that the root endpoint reports. -/
def serialNumber (c : BridgeConfig) : String :=
  c.productName ++ "-" ++ String.ofList (Json.decimalDigits c.productId.toNat)

/-- Whether all settings are those to fall back on, the storage path up to its spelling. -/
def isDefault (c : BridgeConfig) : Bool :=
  let standard : BridgeConfig := {}
  c.storagePath.same standard.storagePath ∧
    { c with storagePath := standard.storagePath } = standard

/-- What the root endpoint tells about the node with a unique id. -/
def basicInformation (c : BridgeConfig) (id : UniqueId) : BasicInformation where
  vendorName := c.vendorName
  vendorId := c.vendorId
  nodeLabel := c.productName
  productName := c.productName
  productLabel := c.productName
  productId := c.productId
  serialNumber := c.serialNumber
  uniqueId := id.text

/-- The names of the settings, in order. -/
def names : List String := [
  "storage_path", "device_name", "vendor_name", "passcode", "discriminator", "vendor_id",
  "product_name", "product_id", "port"]

instance : Json.Codec BridgeConfig where
  encode c := .record [
    ("storage_path", encode c.storagePath), ("device_name", encode c.deviceName),
    ("vendor_name", encode c.vendorName), ("passcode", encode c.passcode),
    ("discriminator", encode c.discriminator), ("vendor_id", encode c.vendorId),
    ("product_name", encode c.productName), ("product_id", encode c.productId),
    ("port", encode c.port)]
  decode d := do
    let fs ← d.fields names
    let standard : BridgeConfig := {}
    return {
      storagePath := ← fs.optional "storage_path" standard.storagePath
      deviceName := ← fs.optional "device_name" standard.deviceName
      vendorName := ← fs.optional "vendor_name" standard.vendorName
      passcode := ← fs.optional "passcode" standard.passcode
      discriminator := ← fs.optional "discriminator" standard.discriminator
      vendorId := ← fs.optional "vendor_id" standard.vendorId
      productName := ← fs.optional "product_name" standard.productName
      productId := ← fs.optional "product_id" standard.productId
      port := ← fs.optional "port" standard.port }

end BridgeConfig

end DeviceBridge
