import DeviceBridge.Main
import DeviceBridge.Proofs.Bridge.Agreement
import DeviceBridge.Proofs.Bridge.Anew
import DeviceBridge.Proofs.Bridge.Attributes
import DeviceBridge.Proofs.Bridge.Closing
import DeviceBridge.Proofs.Bridge.Failure
import DeviceBridge.Proofs.Bridge.LastStart
import DeviceBridge.Proofs.Bridge.Refusal
import DeviceBridge.Proofs.Controller.Lifecycle
import DeviceBridge.Proofs.Controller.Peers
import DeviceBridge.Proofs.Controller.Survival
import DeviceBridge.Proofs.Daemon.Startup
import DeviceBridge.Proofs.Endpoint.Search
import DeviceBridge.Proofs.Logging
import DeviceBridge.Proofs.NodeId
import DeviceBridge.Proofs.Storage.Confinement
import DeviceBridge.Proofs.Storage.Conversion
import DeviceBridge.Proofs.Storage.Interruption
import DeviceBridge.Proofs.Storage.Refinement
import DeviceBridge.Proofs.Storage.Restart
import DeviceBridge.Proofs.Storage.Sharing
import DeviceBridge.Proofs.Storage.Skipped
import DeviceBridge.Proofs.Wire
