import DeviceBridge.Daemon.Config
import DeviceBridge.Files.Disk
import DeviceBridge.Toml.Reader

/-!
# DeviceBridge.Daemon.ConfigFile

The settings of the daemon as a TOML file. Where an array stands for a section, items behind its
last setting are ignored.
-/

namespace DeviceBridge

open Json (Document decode)
open Files (Path Disk)

/-- Why there are no settings. -/
inductive ConfigError where
  | file (e : Files.FileError)
  | malformed
deriving DecidableEq

namespace DaemonConfig

/-- The first items of an array; any other document as it is. -/
def takeItems (n : Nat) : Document → Document
  | .array ds => .array (ds.take n)
  | d => d

/-- A section without surplus items. -/
def trimSection (name : Option String) (d : Document) : Document :=
  if name = some "bridge" then takeItems BridgeConfig.names.length d
  else if name = some "controller" then takeItems ControllerConfig.names.length d
  else if name = some "device" then
    match d with
    | .array ds => .array (ds.map (takeItems DeviceConfig.names.length))
    | d => d
  else d

/-- The settings in a text. -/
def ofToml (text : String) : Except ConfigError DaemonConfig :=
  match Toml.read text with
  | some (.object sections) =>
    match decode (.object (sections.map fun (name, d) => (name, trimSection name d))) with
    | .ok c => .ok c
    | .error _ => .error .malformed
  | _ => .error .malformed

/-- The settings in a file. Without a file, all settings are those to fall back on. -/
def load (path : Path) : EStateM ConfigError Disk DaemonConfig := fun d =>
  match Disk.stat path d with
  | .error _ d => .ok {} d
  | .ok _ d =>
    match Disk.read path d with
    | .error e d => .error (.file e) d
    | .ok text d =>
      match ofToml text with
      | .ok c => .ok c d
      | .error e => .error e d

end DaemonConfig

end DeviceBridge
