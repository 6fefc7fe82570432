import DeviceBridge.Storage.Error

/-!
# DeviceBridge.Stack.Error

Why the protocol stack refused.
-/

namespace DeviceBridge

/-- Why the protocol stack refused. -/
inductive StackError where
  | alreadyClosed (node : String)
  | closed (node : String)
  | endpointExists (endpoint : String)
  | unknownCluster (endpoint cluster : String)
  | fabricNotFound (index : UInt8)
  | controllerNotStarted
  | storage (e : StorageError)
  /-- A refusal in words of its own. -/
  | other (text : String)
deriving DecidableEq

namespace StackError

/-- The refusal in words. -/
def message : StackError → String
  | alreadyClosed node => "Node " ++ node ++ " is already closed"
  | closed node => "Node " ++ node ++ " is closed"
  | endpointExists endpoint => "Endpoint " ++ endpoint ++ " was already added"
  | unknownCluster endpoint cluster => "Endpoint " ++ endpoint ++ " has no cluster " ++ cluster
  | fabricNotFound index => "Fabric " ++ index.toNat.repr ++ " not found"
  | controllerNotStarted => "Controller is not started"
  | storage e => "Storage error: " ++ e.message
  | other text => text

/-- What lies behind the refusal, in words, the nearest first. -/
def causes : StackError → List String
  | storage e => e.message :: e.causes
  | _ => []

/-- The refusal as it stands in a diagnosis. -/
def describe : StackError → String
  | alreadyClosed node => "AlreadyClosed(" ++ Text.quoted node ++ ")"
  | closed node => "Closed(" ++ Text.quoted node ++ ")"
  | endpointExists endpoint => "EndpointExists(" ++ Text.quoted endpoint ++ ")"
  | unknownCluster endpoint cluster =>
    "UnknownCluster \x7b endpoint: " ++ Text.quoted endpoint ++ ", cluster: " ++
      Text.quoted cluster ++ " \x7d"
  | fabricNotFound index => "FabricNotFound(" ++ index.toNat.repr ++ ")"
  | controllerNotStarted => "ControllerNotStarted"
  | storage e => "Storage(" ++ e.describe ++ ")"
  | other text => "Other(" ++ Text.quoted text ++ ")"

end StackError

end DeviceBridge
