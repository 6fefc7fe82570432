import DeviceBridge.Device
import DeviceBridge.Stack.Error

/-!
# DeviceBridge.Bridge.Error

Why the bridge refused.
-/

namespace DeviceBridge

/-- Why the bridge refused. -/
inductive BridgeError where
  | deviceExists (id : EndpointId)
  | aggregatorNotInitialized
  | unsupportedDeviceType (e : UnknownDeviceType)
  | noDevices
  | notInitialized
  | alreadyInitialized
  | stack (e : StackError)
  | storage (e : StorageError)
  /-- A number has left its range. This is no answer: the work is given up where it happens. -/
  | overflow
deriving DecidableEq

namespace BridgeError

/-- Whether the work was given up and not refused. Nobody is left then to log the failure. -/
def givesUp : BridgeError → Bool
  | overflow => true
  | _ => false

/-- The refusal in words. -/
def message : BridgeError → String
  | deviceExists id =>
    "Device " ++ id.text ++ " already exists! Call 'resetEndpoints' first and try again."
  | aggregatorNotInitialized => "Aggregator not initialized, aborting."
  | unsupportedDeviceType e => e.message
  | noDevices => "No devices added, not starting"
  | notInitialized => "Bridge not initialized"
  | alreadyInitialized => "Bridge already initialized, close it first"
  | stack e => "Stack error: " ++ e.message
  | storage e => "Storage error: " ++ e.message
  | overflow => "attempt to add with overflow"

/-- What lies behind the refusal, in words, the nearest first. -/
def causes : BridgeError → List String
  | stack e => e.message :: e.causes
  | storage e => e.message :: e.causes
  | _ => []

/-- The refusal as it stands in a diagnosis. -/
def describe : BridgeError → String
  | deviceExists id => "DeviceExists(EndpointId(" ++ Text.quoted id.text ++ "))"
  | aggregatorNotInitialized => "AggregatorNotInitialized"
  | unsupportedDeviceType e =>
    "UnsupportedDeviceType(UnknownDeviceType(" ++ Text.quoted e.tag ++ "))"
  | noDevices => "NoDevices"
  | notInitialized => "NotInitialized"
  | alreadyInitialized => "AlreadyInitialized"
  | stack e => "Stack(" ++ e.describe ++ ")"
  | storage e => "Storage(" ++ e.describe ++ ")"
  | overflow => "Overflow"

end BridgeError

end DeviceBridge
