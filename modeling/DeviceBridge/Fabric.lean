import DeviceBridge.Json.Codec

/-!
# DeviceBridge.Fabric

The fabrics that a node has joined.
-/

namespace DeviceBridge

open Json (encode decode)

/-- A fabric that a node has joined. -/
structure FabricInfo where
  fabricIndex : UInt8
  fabricId : UInt64
  nodeId : UInt64
  rootVendorId : UInt16
  label : String
deriving DecidableEq

instance : Json.Codec FabricInfo where
  encode f := .record [
    ("fabricIndex", encode f.fabricIndex), ("fabricId", encode f.fabricId),
    ("nodeId", encode f.nodeId), ("rootVendorId", encode f.rootVendorId),
    ("label", encode f.label)]
  decode d := do
    let fs ← d.fields ["fabricIndex", "fabricId", "nodeId", "rootVendorId", "label"]
    return {
      fabricIndex := ← fs.required "fabricIndex"
      fabricId := ← fs.required "fabricId"
      nodeId := ← fs.required "nodeId"
      rootVendorId := ← fs.required "rootVendorId"
      label := ← fs.required "label" }

end DeviceBridge
