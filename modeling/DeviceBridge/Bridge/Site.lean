import DeviceBridge.Bridge.Config
import DeviceBridge.Bridge.Error
import DeviceBridge.Event
import DeviceBridge.Host

/-!
# DeviceBridge.Bridge.Site

The bridge: a node of the protocol stack whose endpoints are devices, with the registry of those
devices, an identity that outlives it, and its own view of the commissioning window.

A listener is what waits for the notification of one window. It belongs to the generation of the
window that it was made for, and it stays pending, however long after its notification is resolved,
until it is delivered.
-/

namespace DeviceBridge

/-- A registered device, and the node that serves its endpoint. -/
structure RegisteredDevice where
  device : Device
  node : Nat
deriving DecidableEq

/-- The bridge's view of the commissioning window. -/
structure WindowState where
  isOpen : Bool := false
  /-- How many windows have been opened. That a counter of 64 bits would begin again after `2 ^ 64`
  of them is left out. -/
  generation : Nat := 0
deriving DecidableEq

/-- Something that waits for the notification of one window. -/
structure Listener where
  node : Nat
  notification : Nat
  generation : Nat
deriving DecidableEq

/-- A bridge. -/
structure Bridge where
  config : BridgeConfig
  /-- The node that the bridge holds. -/
  node : Option Nat := none
  devices : Dictionary EndpointId RegisteredDevice := []
  uniqueId : Option UniqueId := none
  window : WindowState := {}
  /-- The pending listeners, oldest first. -/
  listeners : List Listener := []
  /-- What the bridge has told the world, in order. -/
  events : List BridgeEvent := []

instance : Inhabited Bridge := ⟨{ config := {} }⟩

/-- A bridge where it runs. -/
structure Site where
  host : Host
  bridge : Bridge

instance : Inhabited Site := ⟨⟨{}, default⟩⟩

/-- Work of the bridge. -/
abbrev Bridging (α : Type) := EStateM BridgeError Site α

namespace Bridge

/-! ## Names in the storage -/

/-- The namespace of every bridge. -/
def namespaceName : StorageName := ⟨defaultNodeId, by decide⟩

/-- The context in which the bridge keeps its own values. -/
def appContextName : StorageName := ⟨"bridge", by decide⟩

/-- The key of the unique id. -/
def uniqueIdKey : String := "basicInformation.uniqueId"

/-- The key of the time of the last start. -/
def lastStartKey : String := "lastStart"

/-- The id of the endpoint that bundles the devices. -/
def aggregatorId : String := "aggregator"

/-- The namespace of the bridge's node. -/
def storage (b : Bridge) : Namespace := ⟨b.config.storagePath, namespaceName⟩

/-- The context of the bridge's own values. -/
def appContext (b : Bridge) : Context := ⟨b.storage, appContextName⟩

/-- The context of the stack's values. -/
def rootContext (b : Bridge) : Context := ⟨b.storage, Stack.rootContext⟩

/-! ## Work -/

/-- Work on what the bridge shares. -/
def onHost {α : Type} (x : EStateM BridgeError Host α) : Bridging α := fun s =>
  match x s.host with
  | .ok a h => .ok a { s with host := h }
  | .error e h => .error e { s with host := h }

/-- Work on the storage. -/
def storing {α : Type} (x : Storing α) : Bridging α := onHost (Host.storing .storage x)

/-- Work of the stack. -/
def hosted {α : Type} (x : Hosted α) : Bridging α := onHost fun h =>
  match x h with
  | .ok a h => .ok a h
  | .error e h => .error (.stack e) h

/-- Work of the stack on behalf of an operation, in whose name a failure is logged. -/
def delegating {α : Type} (operation : String) (x : Hosted α) : Bridging α := onHost fun h =>
  match x h with
  | .ok a h => .ok a h
  | .error e h => .error (.stack e) (h.record operation (.stack e))

/-- How a failure of an operation is logged; not at all if the work was given up. -/
def logEntries (operation : String) (e : BridgeError) : List LogEntry :=
  if e.givesUp then [] else [⟨operation, .bridge e⟩]

/-- Work in the name of an operation, under which its failure is logged. -/
def logging {α : Type} (operation : String) (x : Bridging α) : Bridging α := fun s =>
  match x s with
  | .ok a s => .ok a s
  | .error e s => .error e { s with host := s.host.recordAll (logEntries operation e) }

/-- Changes the bridge itself. -/
def update (f : Bridge → Bridge) : Bridging Unit := modify fun s => { s with bridge := f s.bridge }

/-- The node that the bridge holds. -/
def heldNode : Bridging Nat := do
  match (← get).bridge.node with
  | some i => return i
  | none => throw .notInitialized

/-! ## The window -/

/-- Closes the window of a generation and tells the world, unless it is closed or a newer one has
been opened. -/
def markWindowClosed (generation : Nat) (b : Bridge) : Bridge :=
  if b.window.isOpen ∧ b.window.generation = generation then
    { b with
      window := { b.window with isOpen := false }
      events := b.events ++ [.commissioningWindowClosed] }
  else b

end Bridge

end DeviceBridge
