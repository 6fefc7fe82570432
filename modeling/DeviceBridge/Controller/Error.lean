import DeviceBridge.NodeId
import DeviceBridge.Stack.Error

/-!
# DeviceBridge.Controller.Error

Why the controller refused.
-/

namespace DeviceBridge

/-- Why the controller refused. -/
inductive ControllerError where
  | storageUninitialized
  | notInitialized
  | notConnected (node : NodeRef)
  | noController (e : StackError)
  | invalidNodeId (e : InvalidNodeId)
  | stack (e : StackError)
  | storage (e : StorageError)
deriving DecidableEq

/-- A reference as it stands in a diagnosis. -/
def NodeRef.describe : NodeRef → String
  | node id => "Id(NodeId(" ++ id.display ++ "))"
  | number n => "Number(" ++ n.toNat.repr ++ ")"
  | text s => "Text(" ++ Text.quoted s ++ ")"

namespace ControllerError

/-- The refusal in words. -/
def message : ControllerError → String
  | storageUninitialized => "Storage uninitialized"
  | notInitialized => "CommissioningController not initialized"
  | notConnected node => "Node " ++ node.display ++ " not connected"
  | noController _ => "No controller initialized"
  | invalidNodeId e => "Invalid node id: " ++ e.message
  | stack e => "Stack error: " ++ e.message
  | storage e => "Storage error: " ++ e.message

/-- What lies behind the refusal, in words, the nearest first. -/
def causes : ControllerError → List String
  | noController e => e.message :: e.causes
  | invalidNodeId e => [e.message]
  | stack e => e.message :: e.causes
  | storage e => e.message :: e.causes
  | _ => []

/-- The refusal as it stands in a diagnosis. -/
def describe : ControllerError → String
  | storageUninitialized => "StorageUninitialized"
  | notInitialized => "NotInitialized"
  | notConnected node => "NotConnected(" ++ node.describe ++ ")"
  | noController e => "NoController(" ++ e.describe ++ ")"
  | invalidNodeId e => "InvalidNodeId(InvalidNodeId(" ++ Text.quoted e.text ++ "))"
  | stack e => "Stack(" ++ e.describe ++ ")"
  | storage e => "Storage(" ++ e.describe ++ ")"

end ControllerError

end DeviceBridge
