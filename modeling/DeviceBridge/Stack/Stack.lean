import DeviceBridge.Stack.Controller
import DeviceBridge.Stack.ServerNode

/-!
# DeviceBridge.Stack.Stack

The protocol stack as one value: the nodes that it serves, its controllers and the peers that they
reach. Nodes and controllers are never forgotten, and each is named by its number in the order of
creation.
-/

namespace DeviceBridge

/-- The protocol stack. -/
structure Stack where
  nodes : List ServerNode := []
  controllers : List StackController := []
  peers : Peers := []
  /-- Why the next node will not be made. -/
  createFailure : Option String := none
  /-- No controller is made. -/
  refusesControllers : Bool := false
  /-- Why controllers made from now on will not start. -/
  startFailure : Option String := none

instance : Inhabited Stack := ⟨{}⟩

namespace Stack

/-- The context in which the stack keeps the state of a node. -/
def rootContext : StorageName := ⟨"root", by decide⟩

/-- The key that the stack writes into the root context of every node that it makes. -/
def rootNumberKey : String := "__number__"

/-- Does something to a node. -/
def onNode (s : Stack) (i : Nat) (f : ServerNode → Except StackError ServerNode) :
    Except StackError Stack :=
  match s.nodes[i]? with
  | none => .error (.other "no such node")
  | some n => (f n).map fun n => { s with nodes := s.nodes.set i n }

/-- Does something that cannot fail to a node. -/
def updateNode (s : Stack) (i : Nat) (f : ServerNode → ServerNode) : Stack :=
  { s with nodes := s.nodes.modify i f }

/-- Does something to a controller. -/
def onController {α : Type} (s : Stack) (i : Nat)
    (f : StackController → Except StackError (α × StackController)) :
    Except StackError (α × Stack) :=
  match s.controllers[i]? with
  | none => .error (.other "no such controller")
  | some c => (f c).map fun (a, c) => (a, { s with controllers := s.controllers.set i c })

/-- Makes a controller. -/
def createController (s : Stack) (e : ControllerEnvironment) : Except StackError Stack :=
  if s.refusesControllers then .error (.other "controller construction refused")
  else
    .ok { s with
      controllers := s.controllers ++
        [{ environment := e, peers := s.peers, startFailure := s.startFailure }] }

/-- Makes a peer known to controllers made from now on. -/
def addPeer (s : Stack) (id : NodeId) (endpoints : List PeerEndpoint) : Stack :=
  { s with peers := s.peers.insert id endpoints }

/-- A stack that is given up. Its nodes are gone and every open window with them, which counts as
closed. -/
def discard (s : Stack) : Stack := { s with nodes := s.nodes.map ServerNode.endWindow }

/-- Whether the notification of a window of a node is resolved. -/
def isResolved (s : Stack) (node notification : Nat) : Bool :=
  match s.nodes[node]? with
  | some n => n.notifications.isResolved notification
  | none => false

end Stack

end DeviceBridge
