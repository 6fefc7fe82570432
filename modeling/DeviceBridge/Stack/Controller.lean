import DeviceBridge.Connection
import DeviceBridge.Endpoint.Search
import DeviceBridge.Files.Path
import DeviceBridge.NodeId
import DeviceBridge.Stack.Error

/-!
# DeviceBridge.Stack.Controller

A controller of the protocol stack, which connects to the peers that were there when it was made.
-/

namespace DeviceBridge

/-- Nodes that can be reached, each with its top endpoints. -/
abbrev Peers := Dictionary NodeId (List PeerEndpoint)

/-- What a controller is bound to. -/
structure ControllerEnvironment where
  /-- The root of the controller's storage. -/
  root : Files.Path
  /-- The namespace of the controller. -/
  id : String
  /-- The only network interface to announce on. -/
  networkInterface : Option String
deriving DecidableEq

/-- A controller of the stack. -/
structure StackController where
  environment : ControllerEnvironment
  peers : Peers
  /-- Why the controller will not start. -/
  startFailure : Option String := none
  started : Bool := false
  closed : Bool := false
  /-- The options of the last connection. -/
  lastOptions : Option ConnectOptions := none

namespace StackController

/-- Starts the controller, also after it was closed. -/
def start (c : StackController) : Except StackError StackController :=
  match c.startFailure with
  | some text => .error (.other text)
  | none => .ok { c with started := true, closed := false }

/-- Closes the controller. -/
def close (c : StackController) : StackController := { c with started := false, closed := true }

/-- Connects to a peer, if there is one with the id. -/
def connect (c : StackController) (id : NodeId) (options : Option ConnectOptions) :
    Except StackError (Option (List PeerEndpoint) × StackController) :=
  if c.started then .ok (c.peers.get? id, { c with lastOptions := options })
  else .error .controllerNotStarted

/-- The ids of all peers. -/
def commissionedNodes (c : StackController) : List NodeId := c.peers.keys

end StackController

end DeviceBridge
