import DeviceBridge.Bridge.Lifecycle
import DeviceBridge.Bridge.Registry
import DeviceBridge.Bridge.Window
import DeviceBridge.Controller.Node
import DeviceBridge.Daemon.Arguments
import DeviceBridge.Daemon.ConfigFile

/-!
# DeviceBridge.Daemon.Startup

The start of the daemon: the bridge is made and gets its devices in the order of the settings, it is
started and opened for commissioning if that is called for, and the controller, if there is to be
one, is set up beside it. The first failure ends the start.
-/

namespace DeviceBridge

open Files (Disk)

/-- Why the daemon did not start; a failure of the bridge or the controller with what was being
done. -/
inductive StartupError where
  | config (e : ConfigError)
  | bridge (context : Option String) (e : BridgeError)
  | controller (context : Option String) (e : ControllerError)
deriving DecidableEq

/-- Whether the start was given up and not refused. -/
def StartupError.givesUp : StartupError → Bool
  | bridge _ e => e.givesUp
  | _ => false

/-- With what the daemon ends. -/
def StartupError.exitCode (e : StartupError) : UInt32 := if e.givesUp then 101 else 1

/-- The failure and what lies behind it, in words, from the outside in. When the start is given up,
nobody is told what was being done. -/
def StartupError.chain : StartupError → List String
  | config (.file e) => [e.message]
  | config .malformed => ["TOML parse error"]
  | bridge context e => if e.givesUp then [e.message] else context.toList ++ e.message :: e.causes
  | controller context e => context.toList ++ e.message :: e.causes

/-- The time and the random bits that a start uses up. -/
structure Circumstances where
  now : Int64
  bits : RandomBits
  resetBits : RandomBits

/-- A daemon that runs: the bridge, and perhaps a controller beside it. -/
structure Daemon where
  site : Site
  controller : Option ControllerNode := none

instance : Inhabited Daemon := ⟨{ site := default }⟩

/-- Work of the daemon. -/
abbrev Serving (α : Type) := EStateM StartupError Daemon α

namespace Daemon

/-- Work of the bridge; a failure is told with what was being done. -/
def bridging {α : Type} (context : Option String) (x : Bridging α) : Serving α := fun d =>
  match x d.site with
  | .ok a s => .ok a { d with site := s }
  | .error e s => .error (.bridge context e) { d with site := s }

/-- Work of a controller node, which becomes that of the daemon. -/
def controlling {α : Type} (context : Option String) (c : ControllerNode) (x : Controlling α) :
    Serving α := fun d =>
  match x ⟨d.site.host, c⟩ with
  | .ok a s => .ok a { site := { d.site with host := s.host }, controller := some s.node }
  | .error e s => .error (.controller context e) { d with site := { d.site with host := s.host } }

/-- Registers a device from the settings. -/
def addDevice (c : DeviceConfig) : Serving Unit :=
  bridging (some ("Failed to add device " ++ c.id))
    (Bridge.addEndpoint c.deviceType ⟨c.id⟩ c.info c.attributes)

/-- Makes the bridge, registers all devices and starts it. -/
def startBridge (config : DaemonConfig) (reset : Bool) (c : Circumstances) : Serving Unit := do
  bridging (some "Failed to initialize bridge") (Bridge.renew reset c.bits c.resetBits)
  config.devices.forM addDevice
  bridging (some "Failed to start bridge") (Bridge.start c.now)

/-- Opens the commissioning window if the bridge is to be commissioned. -/
def invite : Serving Unit := do
  let state ← bridging none Bridge.commissioningState
  if state.commissioningWindowOpen then bridging none Bridge.openWindow

/-- Sets up the controller. -/
def startController (config : ControllerConfig) : Serving Unit :=
  controlling (some "Failed to initialize controller") { config := config } ControllerNode.setUp

/-- Starts everything that the settings ask for. -/
def start (config : DaemonConfig) (reset : Bool) (c : Circumstances) : Serving Unit := do
  startBridge config reset c
  invite
  match config.controller with
  | some config => startController config
  | none => return

/-- The host with a disk, and a bridge that has not been made yet. -/
def fresh (disk : Disk) (config : DaemonConfig) : Daemon where
  site := ⟨{ disk := disk }, { config := config.bridge }⟩

/-- Reads the settings and starts. -/
def launch (o : DaemonOptions) (c : Circumstances) (disk : Disk) :
    EStateM.Result StartupError Daemon Unit :=
  match DaemonConfig.load o.config disk with
  | .error e disk => .error (.config e) (fresh disk {})
  | .ok config disk => start config o.resetStorage c (fresh disk config)

/-- Closes the controller and then the bridge. -/
def stop (d : Daemon) : Daemon :=
  let host :=
    match d.controller with
    | none => d.site.host
    | some c =>
      match ControllerNode.close ⟨d.site.host, c⟩ with
      | .ok _ s | .error _ s => s.host
  match Bridge.close { d.site with host := host } with
  | .ok _ s | .error _ s => { d with site := s }

end Daemon

end DeviceBridge
