import DeviceBridge.Json.Codec

/-!
# DeviceBridge.Announcement

What a node announces about itself on the network and in its root endpoint.
-/

namespace DeviceBridge

open Json (encode decode)

/-- The code of an endpoint that bundles others. -/
def aggregatorDeviceType : UInt32 := 0x000e

/-- The announcement of a node on the network. -/
structure ProductDescription where
  name : String
  deviceType : UInt32
deriving DecidableEq

instance : Json.Codec ProductDescription where
  encode p := .record [("name", encode p.name), ("deviceType", encode p.deviceType)]
  decode d := do
    let fs ← d.fields ["name", "deviceType"]
    return {
      name := ← fs.required "name"
      deviceType := ← fs.required "deviceType" }

/-- What the root endpoint tells about the node. -/
structure BasicInformation where
  vendorName : String
  vendorId : UInt16
  nodeLabel : String
  productName : String
  productLabel : String
  productId : UInt16
  serialNumber : String
  uniqueId : String
deriving DecidableEq

instance : Json.Codec BasicInformation where
  encode b := .record [
    ("vendorName", encode b.vendorName), ("vendorId", encode b.vendorId),
    ("nodeLabel", encode b.nodeLabel), ("productName", encode b.productName),
    ("productLabel", encode b.productLabel), ("productId", encode b.productId),
    ("serialNumber", encode b.serialNumber), ("uniqueId", encode b.uniqueId)]
  decode d := do
    let fs ← d.fields [
      "vendorName", "vendorId", "nodeLabel", "productName", "productLabel", "productId",
      "serialNumber", "uniqueId"]
    return {
      vendorName := ← fs.required "vendorName"
      vendorId := ← fs.required "vendorId"
      nodeLabel := ← fs.required "nodeLabel"
      productName := ← fs.required "productName"
      productLabel := ← fs.required "productLabel"
      productId := ← fs.required "productId"
      serialNumber := ← fs.required "serialNumber"
      uniqueId := ← fs.required "uniqueId" }

end DeviceBridge
