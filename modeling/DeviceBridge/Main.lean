import Std.Time.DateTime.Timestamp
import DeviceBridge.Daemon.Startup
import DeviceBridge.Files.Change

/-!
# DeviceBridge.Main

The command line of the daemon. It takes the working directory and the places that the settings name
as they are, lets the daemon start on them, and carries out what the daemon has changed. The daemon
runs until its input ends; the events of the bridge are written as lines of JSON.
-/

namespace DeviceBridge.Main

open Files (Tree Location Entry Content Change Path Disk)

/-- What the daemon says when it is asked for help. -/
def usage : String := String.intercalate "\n" [
  "Bridge devices into an aggregated Matter node", "", "Usage: mbridge [OPTIONS]", "", "Options:",
  "  -c, --config <CONFIG>        Path to configuration file [default: mbridge.toml]",
  "  -l, --log-level <LOG_LEVEL>  Log level (trace, debug, info, warn, error) [default: info]",
  "      --reset-storage          Erase the bridge node storage and start with a new identity",
  "  -h, --help                   Print help",
  "  -V, --version                Print version"]

/-- What the daemon says when it is asked for its version. -/
def version : String := "mbridge 0.1.0"

/-- The path of a location. -/
def pathOf (l : Location) : String :=
  if Files.systemRoot <+: l then "/" ++ "/".intercalate l.tail else "/".intercalate l

/-- Takes in all files and directories below a location. -/
partial def survey (l : Location) : IO Tree := do
  let dir ← IO.FS.realPath (if l = [] then "." else pathOf l)
  let mut tree : Tree := []
  for entry in ← dir.readDir do
    let here := l ++ [entry.fileName]
    match (← entry.path.symlinkMetadata).type with
    | .dir => tree := tree ++ (here, .directory) :: (← survey here)
    | .file =>
      let bytes ← IO.FS.readBinFile entry.path
      tree := tree ++ [(here, .file (Content.ofBytes bytes))]
    | _ => continue
  return tree

/-- What lies at the end of a path. -/
def entryAt (path : String) : IO (Option Entry) := do
  try
    let path ← IO.FS.realPath path
    match (← path.metadata).type with
    | .dir => return some .directory
    | .file => return some (.file (Content.ofBytes (← IO.FS.readBinFile path)))
    | _ => return none
  catch _ => return none

/-- Takes in what a path leads through, and all below its end. -/
def surveyPath (tree : Tree) (p : Path) : IO Tree := do
  let mut tree := tree
  let mut here := Tree.start p
  for piece in p.pieces do
    match tree.enter here piece with
    | .error _ => return tree
    | .ok next =>
      here := next
      if (tree.entry? here).isNone then
        if let some e ← entryAt (pathOf here) then tree := tree.insert here e
  if Files.isBase here ∨ tree.entry? here ≠ some .directory then return tree
  return (← survey here).foldl (fun t e => t.insert e.1 e.2) tree

/-- Where the daemon keeps its files. -/
def places (config : DaemonConfig) : List Path :=
  let bridge : Bridge := { config := config.bridge }
  let storage := bridge.storage.dir
  match config.controller with
  | none => [storage]
  | some c =>
    match Legacy.split c.storageLocation with
    | .error _ => [storage]
    | .ok (dir, id) =>
      [storage, c.storageLocation, dir.join id, dir.join (Legacy.stagingName id)]

/-- Takes in all that the daemon may look at. -/
def surveyAll (o : DaemonOptions) : IO Tree := do
  let tree ← surveyPath (Dictionary.ofList (← survey [])) o.config
  match DaemonConfig.load o.config { tree := tree } with
  | .error .. => return tree
  | .ok config _ => (places config).foldlM surveyPath tree

/-- The bytes of a content. -/
def bytesOf : Content → ByteArray
  | .text s => s.toUTF8
  | .binary bytes => ⟨bytes.toArray⟩

/-- Carries out a change. A file is written beside its place first. -/
def apply : Change → IO Unit
  | .remove l .directory => IO.FS.removeDir (pathOf l)
  | .remove l .file => IO.FS.removeFile (pathOf l)
  | .makeDir l => IO.FS.createDirAll (pathOf l)
  | .write l c => do
    let draft := pathOf l ++ ".new"
    IO.FS.writeBinFile draft (bytesOf c)
    IO.FS.rename draft (pathOf l)

/-- Carries out what has changed. -/
def carryOut (old new : Disk) : IO Unit := (old.tree.changes new.tree).forM apply

/-- A word from eight random bytes. -/
def randomWord : IO UInt64 := do
  let bytes ← IO.getRandomBytes 8
  return bytes.toList.foldl (fun w b => w * 256 + b.toUInt64) 0

/-- Random bits. -/
def randomBits : IO RandomBits := return ⟨← randomWord, ← randomWord⟩

/-- The time in milliseconds. -/
def now : IO Int64 := do
  return Int64.ofInt (← Std.Time.Timestamp.now).toMillisecondsSinceUnixEpoch.val

/-- Reads lines until the input ends. -/
partial def awaitEnd (input : IO.FS.Stream) : IO Unit := do
  unless (← input.getLine).isEmpty do awaitEnd input

/-- Writes a failure with what lies behind it. -/
def report (chain : List String) : IO Unit := do
  for (text, i) in chain.zipIdx do
    IO.eprintln ((if i = 0 then "Error: " else "Caused by: ") ++ text)

/-- Runs the daemon. -/
def run (o : DaemonOptions) : IO UInt32 := do
  let disk : Disk := { tree := ← surveyAll o }
  let circumstances : Circumstances := ⟨← now, ← randomBits, ← randomBits⟩
  match Daemon.launch o circumstances disk with
  | .error e d =>
    carryOut disk d.site.host.disk
    report e.chain
    return e.exitCode
  | .ok _ d =>
    carryOut disk d.site.host.disk
    awaitEnd (← IO.getStdin)
    let stopped := d.stop
    carryOut d.site.host.disk stopped.site.host.disk
    for e in stopped.site.bridge.events do
      IO.println (Json.encodeText e)
    return 0

/-- Does what a command line asks for. -/
def serve (arguments : List String) : IO UInt32 := do
  match Arguments.read arguments with
  | .run o => run o
  | .help => IO.println usage; return 0
  | .version => IO.println version; return 0
  | .misuse => IO.eprintln usage; return 2

end DeviceBridge.Main

/-- The daemon. -/
def main (arguments : List String) : IO UInt32 := DeviceBridge.Main.serve arguments
