import DeviceBridge.Controller.Config
import DeviceBridge.Controller.Error
import DeviceBridge.Host
import DeviceBridge.Storage.Legacy

/-!
# DeviceBridge.Controller.Node

The controller node: it finds its storage, converting a file of older make on the way, binds a
controller of the protocol stack to it, and reaches the peers of that controller.
-/

namespace DeviceBridge

open Json (Value)

/-- A controller node. -/
structure ControllerNode where
  config : ControllerConfig
  /-- The controller of the stack that the node holds. -/
  controller : Option Nat := none
  /-- The context in which the node keeps its own values. -/
  store : Option Context := none

instance : Inhabited ControllerNode := ⟨{ config := {} }⟩

/-- A controller node where it runs. -/
structure ControllerSite where
  host : Host
  node : ControllerNode

instance : Inhabited ControllerSite := ⟨⟨{}, default⟩⟩

/-- Work of a controller node. -/
abbrev Controlling (α : Type) := EStateM ControllerError ControllerSite α

/-- A node that a controller has connected to. -/
structure Peer where
  id : NodeId
  /-- The top endpoints. -/
  devices : List PeerEndpoint

/-- The first endpoint of a peer with a number, in pre-order. -/
def Peer.endpoint? (p : Peer) (number : UInt16) : Option PeerEndpoint :=
  PeerEndpoint.find? p.devices number

namespace ControllerNode

/-- The name of the context in which the node keeps its own values. -/
def storeName : StorageName := ⟨"Node", by decide⟩

/-- Work on what the node shares. -/
def onHost {α : Type} (x : EStateM ControllerError Host α) : Controlling α := fun s =>
  match x s.host with
  | .ok a h => .ok a { s with host := h }
  | .error e h => .error e { s with host := h }

/-- Work on the storage. -/
def storing {α : Type} (x : Storing α) : Controlling α := onHost (Host.storing .storage x)

/-- Work of the stack on behalf of an operation, in whose name a failure is logged. -/
def delegating {α : Type} (operation : String) (wrap : StackError → ControllerError)
    (x : Hosted α) : Controlling α := onHost fun h =>
  match x h with
  | .ok a h => .ok a h
  | .error e h => .error (wrap e) (h.record operation (.stack e))

/-- Changes a controller of the stack, which is as it was if it refuses. -/
def changing {α : Type} (i : Nat) (f : StackController → Except StackError (α × StackController)) :
    Hosted α := fun h =>
  match h.stack.onController i f with
  | .ok (a, s) => .ok a { h with stack := s }
  | .error e => .error e h

/-- Starts a controller. -/
def starting (i : Nat) : Hosted Unit := changing i fun c => c.start.map ((), ·)

/-- Closes a controller. -/
def closing (i : Nat) : Hosted Unit := changing i fun c => .ok ((), c.close)

/-- Closes a controller, whatever that leads to. -/
def abandon (i : Nat) (s : ControllerSite) : ControllerSite :=
  match closing i s.host with
  | .ok _ h | .error _ h => { s with host := h }

/-! ## Initializing -/

/-- Lets go of the controller and the store of a former initialization. -/
def release (s : ControllerSite) : ControllerSite :=
  let s' : ControllerSite := { s with node := { s.node with controller := none, store := none } }
  match s.node.controller with
  | some i => abandon i s'
  | none => s'

/-- Finds the storage; a failure is logged. -/
def convertStorage : Controlling Conversion := do
  let location := (← get).node.config.storageLocation
  onHost fun h =>
    match Host.storing (ε := StorageError) (fun e => e) (Legacy.convert location) h with
    | .ok c h => .ok c h
    | .error e h => .error (.storage e) (h.record "initialize" (.storage e))

/-- Makes a controller of the stack and tells its number. -/
def construct (c : Conversion) : Controlling Nat := do
  let s ← get
  delegating "initialize" .noController
    (Host.changing (·.createController ⟨c.outputDir, c.id, s.node.config.networkInterface⟩))
  return s.host.stack.controllers.length

/-- Finds the store and starts the controller. -/
def launch (i : Nat) (c : Conversion) : Controlling Context := do
  let space ← storing (.ofExcept (Namespace.parse c.outputDir c.id))
  delegating "initialize" .stack (starting i)
  return ⟨space, storeName⟩

/-- Finds the storage, makes a controller and starts it. A controller of a former initialization is
closed first, and one that does not start is closed again. -/
def setUp : Controlling Unit := do
  modify release
  let c ← convertStorage
  let i ← construct c
  let store ← (fun s =>
    match launch i c s with
    | .ok store s => .ok store s
    | .error e s => .error e (abandon i s) : Controlling Context)
  modify fun s => { s with node := { s.node with controller := some i, store := some store } }

/-- Closes the controller, which stays with the node. -/
def close : Controlling Unit := do
  match (← get).node.controller with
  | some i => delegating "close" .stack (closing i)
  | none => return

/-! ## Using -/

/-- The context of the node's own values. -/
def context : Controlling Context := do
  match (← get).node.store with
  | some c => return c
  | none => throw .storageUninitialized

/-- Connects to a node. -/
def getNode (r : NodeRef) (options : Option ConnectOptions) : Controlling Peer := do
  match (← get).node.controller with
  | none => throw .notInitialized
  | some i =>
    match r.resolve with
    | .error e => throw (.invalidNodeId e)
    | .ok id =>
      match ← delegating "getNode" .stack (changing i (·.connect id options)) with
      | some devices => return ⟨id, devices⟩
      | none => throw (.notConnected r)

/-- The ids of all nodes that the controller has commissioned; before it is initialized, none. -/
def commissionedNodes : Controlling (List NodeId) := do
  let s ← get
  match s.node.controller with
  | none => return []
  | some i =>
    match s.host.stack.controllers[i]? with
    | none => return []
    | some c => return c.commissionedNodes

end ControllerNode

end DeviceBridge
