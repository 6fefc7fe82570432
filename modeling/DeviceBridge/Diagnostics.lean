import DeviceBridge.Bridge.Error
import DeviceBridge.Controller.Error

/-!
# DeviceBridge.Diagnostics

What is logged when a delegated operation has failed: the failure under the name of the operation,
each of its causes, and the failure in full.
-/

namespace DeviceBridge

/-- A failure that can be logged. -/
inductive Failure where
  | storage (e : StorageError)
  | stack (e : StackError)
  | bridge (e : BridgeError)
  | controller (e : ControllerError)
  | nodeId (e : InvalidNodeId)
  | deviceType (e : UnknownDeviceType)
deriving DecidableEq

namespace Failure

/-- The failure in words. -/
def message : Failure → String
  | storage e => e.message
  | stack e => e.message
  | bridge e => e.message
  | controller e => e.message
  | nodeId e => e.message
  | deviceType e => e.message

/-- What lies behind the failure, in words, the nearest first. -/
def causes : Failure → List String
  | storage e => e.causes
  | stack e => e.causes
  | bridge e => e.causes
  | controller e => e.causes
  | nodeId _ | deviceType _ => []

/-- The failure in full. -/
def describe : Failure → String
  | storage e => e.describe
  | stack e => e.describe
  | bridge e => e.describe
  | controller e => e.describe
  | nodeId e => "InvalidNodeId(" ++ Text.quoted e.text ++ ")"
  | deviceType e => "UnknownDeviceType(" ++ Text.quoted e.tag ++ ")"

end Failure

/-- A failed operation. -/
structure LogEntry where
  operation : String
  failure : Failure
deriving DecidableEq

/-- A line of the log. -/
structure LogRecord where
  message : String
  operation : String
  /-- How far behind the failure a cause lies. -/
  depth : Option Nat := none
deriving DecidableEq

/-- The lines that a failed operation is logged in. -/
def LogEntry.records (e : LogEntry) : List LogRecord :=
  { message := "Error executing function " ++ e.operation ++ ": " ++ e.failure.message
    operation := e.operation } ::
  e.failure.causes.zipIdx.map (fun (cause, i) =>
    { message := "Caused by: " ++ cause, operation := e.operation, depth := some (i + 1) }) ++
  [{ message := "Full error object: " ++ e.failure.describe, operation := e.operation }]

end DeviceBridge
