import DeviceBridge.Files.Path

/-!
# DeviceBridge.Controller.Config

How a controller is set up. Every setting has a value to fall back on.
-/

namespace DeviceBridge

open Json (encode decode)

/-- The settings of a controller. -/
structure ControllerConfig where
  /-- The storage directory, or a file of older make to convert into one. -/
  storageLocation : Files.Path := ⟨"data/controller"⟩
  nodeNum : UInt32 := 0
  /-- The only network interface to announce on, if there is to be just one. -/
  networkInterface : Option String := none
deriving DecidableEq

namespace ControllerConfig

/-- Whether all settings are those to fall back on, the location up to its spelling. -/
def isDefault (c : ControllerConfig) : Bool :=
  let standard : ControllerConfig := {}
  c.storageLocation.same standard.storageLocation ∧
    { c with storageLocation := standard.storageLocation } = standard

/-- The names of the settings, in order. -/
def names : List String := ["storage_location", "node_num", "network_interface"]

instance : Json.Codec ControllerConfig where
  encode c := .record [
    ("storage_location", encode c.storageLocation), ("node_num", encode c.nodeNum),
    ("network_interface", encode c.networkInterface)]
  decode d := do
    let fs ← d.fields names
    let standard : ControllerConfig := {}
    return {
      storageLocation := ← fs.optional "storage_location" standard.storageLocation
      nodeNum := ← fs.optional "node_num" standard.nodeNum
      networkInterface := ← fs.optional "network_interface" standard.networkInterface }

end ControllerConfig

end DeviceBridge
