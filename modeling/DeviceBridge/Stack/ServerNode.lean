import DeviceBridge.Announcement
import DeviceBridge.Commissioning
import DeviceBridge.Device.Definition
import DeviceBridge.Fabric
import DeviceBridge.Stack.Error
import DeviceBridge.Stack.Window
import DeviceBridge.Storage.Context

/-!
# DeviceBridge.Stack.ServerNode

A node that the protocol stack serves: its tree of endpoints (the root, an aggregator and the
bridged devices below it), whether it runs, its commissioning window and the fabrics that it has
joined.
-/

namespace DeviceBridge

open Json (Value)

/-- What a node is made from. -/
structure ServerNodeConfig where
  id : String
  /-- The UDP port on which the node listens. -/
  port : UInt16
  commissioning : CommissioningConfig
  productDescription : ProductDescription
  basicInformation : BasicInformation
  /-- The namespace into which the stack persists the node. -/
  storage : Namespace
deriving DecidableEq

/-- An endpoint below an aggregator, with the present values of its attributes. -/
structure BridgedEndpoint where
  definition : EndpointDefinition
  state : ClusterState

/-- An endpoint that bundles others. -/
structure Aggregator where
  id : String
  endpoints : List BridgedEndpoint := []

namespace Aggregator

/-- The ids of the endpoints, in the order in which they were attached. -/
def endpointIds (a : Aggregator) : List String := a.endpoints.map (·.definition.id)

/-- The endpoint with an id. -/
def endpoint? (a : Aggregator) (id : String) : Option BridgedEndpoint :=
  a.endpoints.find? (·.definition.id = id)

/-- Attaches an endpoint under an id that is free. -/
def add (a : Aggregator) (d : EndpointDefinition) : Except StackError Aggregator :=
  if d.id ∈ a.endpointIds then .error (.endpointExists d.id)
  else .ok { a with endpoints := a.endpoints ++ [⟨d, d.initialState⟩] }

/-- Sets an attribute of an endpoint, in a cluster that it has. -/
def setState (a : Aggregator) (id cluster name : String) (value : Value) :
    Except StackError Aggregator :=
  match a.endpoint? id with
  | none => .ok a
  | some e =>
    match e.state.set? cluster name value with
    | none => .error (.unknownCluster id cluster)
    | some state =>
      .ok { a with
        endpoints := a.endpoints.map fun f =>
          if f.definition.id = id then { f with state := state } else f }

end Aggregator

/-- A node that the stack serves. -/
structure ServerNode where
  config : ServerNodeConfig
  aggregator : Option Aggregator := none
  started : Bool := false
  closed : Bool := false
  erased : Bool := false
  /-- Said to have joined a fabric. -/
  commissioned : Bool := false
  /-- The notification that the open commissioning window owes. -/
  window : Option Nat := none
  notifications : Notifications := {}
  fabrics : List FabricInfo := []

namespace ServerNode

/-! ## Endpoints -/

/-- Attaches an aggregator to a node that has none. -/
def addAggregator (n : ServerNode) (id : String) : Except StackError ServerNode :=
  if n.closed then .error (.closed n.config.id)
  else
    match n.aggregator with
    | some _ => .error (.endpointExists id)
    | none => .ok { n with aggregator := some { id := id } }

/-- Does something to the aggregator. -/
def onAggregator (n : ServerNode) (f : Aggregator → Except StackError Aggregator) :
    Except StackError ServerNode :=
  match n.aggregator with
  | none => .error (.other "no aggregator")
  | some a => (f a).map fun a => { n with aggregator := some a }

/-- The ids of the bridged endpoints, in the order in which they were attached. -/
def endpointIds (n : ServerNode) : List String :=
  match n.aggregator with
  | some a => a.endpointIds
  | none => []

/-- The present values of a bridged endpoint. -/
def endpointState? (n : ServerNode) (id : String) : Option ClusterState :=
  match n.aggregator with
  | some a => (a.endpoint? id).map BridgedEndpoint.state
  | none => none

/-- The tree of endpoints for people to read. -/
def describe (n : ServerNode) : String :=
  let below :=
    match n.aggregator with
    | none => []
    | some a =>
      ("\n  " ++ a.id ++ " (aggregator)") ::
        a.endpoints.map fun e =>
          "\n    " ++ e.definition.id ++ " (" ++ e.definition.deviceType.tag ++ ")"
  n.config.id ++ " (root)" ++ String.join below

/-! ## Running -/

/-- Closes the commissioning window, if one is open. -/
def endWindow (n : ServerNode) : ServerNode :=
  match n.window with
  | some k => { n with window := none, notifications := n.notifications.resolve k }
  | none => n

/-- Starts a node that is not closed. -/
def start (n : ServerNode) : Except StackError ServerNode :=
  if n.closed then .error (.closed n.config.id) else .ok { n with started := true }

/-- Closes a node for good, and its window with it. -/
def close (n : ServerNode) : Except StackError ServerNode :=
  if n.closed then .error (.alreadyClosed n.config.id)
  else .ok { n with closed := true, started := false }.endWindow

/-- Stops a node whose data are about to be erased. A window stays as it is. -/
def stopErased (n : ServerNode) : ServerNode :=
  { n with closed := true, started := false, erased := true, fabrics := [], commissioned := false }

/-! ## Commissioning -/

/-- Opens a commissioning window in place of a former one. The notification that it owes gets the
next number. -/
def openWindow (n : ServerNode) : Except StackError ServerNode :=
  if n.closed then .error (.closed n.config.id)
  else
    .ok { n.endWindow with
      window := some n.notifications.count
      notifications := n.endWindow.notifications.issue }

/-- What the node tells about its commissioning. -/
def commissioning (n : ServerNode) : NodeCommissioning :=
  ⟨n.commissioned, .ofConfig n.config.commissioning⟩

/-- Says whether the node has joined a fabric. -/
def setCommissioned (n : ServerNode) (commissioned : Bool) : ServerNode :=
  { n with commissioned := commissioned }

/-- Joins a fabric. -/
def addFabric (n : ServerNode) (f : FabricInfo) : ServerNode :=
  { n with commissioned := true, fabrics := n.fabrics ++ [f] }

/-- Leaves all fabrics with an index. A node that has left its last fabric is not commissioned. -/
def removeFabric (n : ServerNode) (index : UInt8) : Except StackError ServerNode :=
  let rest := n.fabrics.filter (·.fabricIndex ≠ index)
  if rest.length = n.fabrics.length then .error (.fabricNotFound index)
  else .ok { n with fabrics := rest, commissioned := n.commissioned && !rest.isEmpty }

end ServerNode

end DeviceBridge
