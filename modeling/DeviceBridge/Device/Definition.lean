import DeviceBridge.Device
import DeviceBridge.Text.Quoted

/-!
# DeviceBridge.Device.Definition

The endpoint that a device gets when it is attached: its clusters, those of its kind and one with
what it tells about itself, and the first values of their attributes. Values are given under keys
of the form `cluster.attribute`; what does not name a cluster of the kind has no effect, so the
order in which the keys are visited has none either.
-/

namespace DeviceBridge

open Json (Value encode)

/-- Attribute values by name. -/
abbrev Attributes := Dictionary String Value

/-- Attribute values by cluster and name. -/
abbrev ClusterState := Dictionary String Attributes

/-- Parts a key at its first dot; both parts have to hold something. -/
def splitAttributeKey (key : String) : Option (String × String) :=
  let cluster := key.toList.takeWhile (· ≠ '.')
  match key.toList.dropWhile (· ≠ '.') with
  | _ :: name =>
    if cluster = [] ∨ name = [] then none
    else some (String.ofList cluster, String.ofList name)
  | [] => none

/-- The cluster in which every bridged device tells about itself. -/
def bridgedInfoCluster : String := "bridgedDeviceBasicInformation"

/-- An endpoint to attach. -/
structure EndpointDefinition where
  id : String
  deviceType : DeviceType
  info : DeviceInfo
  initialState : ClusterState

namespace ClusterState

/-- The value of an attribute. -/
def value? (state : ClusterState) (cluster name : String) : Option Value :=
  match state.get? cluster with
  | some values => values.get? name
  | none => none

/-- Sets an attribute in a cluster that is there. -/
def set? (state : ClusterState) (cluster name : String) (value : Value) :
    Option ClusterState :=
  match state.get? cluster with
  | some values => some (state.insert cluster (values.insert name value))
  | none => none

/-- The clusters of a kind, without any value. -/
def empty (clusters : List String) : ClusterState :=
  Dictionary.ofList (clusters.map fun c => (c, []))

/-- Takes in the value under a key if the key names a cluster that is there. -/
def seed (state : ClusterState) (entry : String × Value) : ClusterState :=
  match splitAttributeKey entry.1 with
  | some (cluster, name) => (state.set? cluster name entry.2).getD state
  | none => state

/-- The state as an object of objects. -/
def toValue (state : ClusterState) : Value :=
  .object (state.map fun (cluster, values) => (cluster, .object values))

end ClusterState

/-- What a device tells about itself, as attributes. -/
def DeviceInfo.attributes (info : DeviceInfo) : Attributes :=
  Dictionary.ofList [
    ("nodeLabel", .string info.nodeLabel), ("productName", .string info.productName),
    ("productLabel", .string info.productLabel), ("serialNumber", .string info.serialNumber),
    ("reachable", .bool true)]

/-- A device as the bridge knows it. -/
structure Device where
  id : EndpointId
  deviceType : DeviceType
  info : DeviceInfo
deriving DecidableEq

/-- The device as it stands in a diagnosis. -/
def Device.describe (d : Device) : String :=
  "DeviceAdapter \x7b id: EndpointId(" ++ Text.quoted d.id.text ++ "), device_type: " ++
    d.deviceType.tag ++ ", info: DeviceInfo \x7b node_label: " ++ Text.quoted d.info.nodeLabel ++
    ", product_name: " ++ Text.quoted d.info.productName ++ ", product_label: " ++
    Text.quoted d.info.productLabel ++ ", serial_number: " ++ Text.quoted d.info.serialNumber ++
    " \x7d, .. \x7d"

/-- The endpoint of a device. -/
def EndpointDefinition.ofDevice (type : DeviceType) (id : EndpointId) (info : DeviceInfo)
    (attributes : List (String × Value)) : EndpointDefinition where
  id := id.text
  deviceType := type
  info := info
  initialState :=
    (attributes.foldl ClusterState.seed (ClusterState.empty type.profile.clusters)).insert
      bridgedInfoCluster info.attributes

end DeviceBridge
