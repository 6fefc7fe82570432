import DeviceBridge.Files.Path

/-!
# DeviceBridge.Daemon.Arguments

The command line of the daemon. Each option may be given once, under its long or its short name;
its value stands in the same argument or in the next one. Arguments are read in order, and the first
that settles the matter does: a request for help, one for the version, or a mistake.
-/

namespace DeviceBridge

/-- What the daemon is told when it starts. -/
structure DaemonOptions where
  /-- The file with the settings. -/
  config : Files.Path := ⟨"mbridge.toml"⟩
  logLevel : String := "info"
  /-- Erase the storage of the bridge and give it a new identity. -/
  resetStorage : Bool := false
deriving DecidableEq

/-- What a command line asks for. -/
inductive Invocation where
  | run (o : DaemonOptions)
  | help
  | version
  | misuse
deriving DecidableEq

namespace Arguments

/-- An option that takes a value. -/
inductive Setting where
  | config
  | logLevel
deriving DecidableEq

/-- What a single argument says. -/
inductive Argument where
  /-- A setting, with its value if that stands in the same argument. -/
  | setting (s : Setting) (value : Option (List Char))
  | resetStorage
  | help
  | version
  /-- The end of all options. -/
  | terminator
  | mistake
deriving DecidableEq

/-- The options given so far. -/
structure Given where
  config : Option String := none
  logLevel : Option String := none
  resetStorage : Bool := false
deriving DecidableEq

/-- An argument that begins with two dashes. -/
def longArgument (text : List Char) : Argument :=
  let name := String.ofList (text.takeWhile (· ≠ '='))
  let value :=
    match text.dropWhile (· ≠ '=') with
    | _ :: value => some value
    | [] => none
  match name, value with
  | "", none => .terminator
  | "config", _ => .setting .config value
  | "log-level", _ => .setting .logLevel value
  | "reset-storage", none => .resetStorage
  | "help", none => .help
  | "version", none => .version
  | _, _ => .mistake

/-- The value right behind a short option, with or without an equals sign. -/
def attached : List Char → Option (List Char)
  | [] => none
  | '=' :: value => some value
  | value => some value

/-- What an argument says. -/
def classify : List Char → Argument
  | '-' :: '-' :: text => longArgument text
  | '-' :: 'c' :: rest => .setting .config (attached rest)
  | '-' :: 'l' :: rest => .setting .logLevel (attached rest)
  | '-' :: 'h' :: _ => .help
  | '-' :: 'V' :: _ => .version
  | _ => .mistake

/-- Whether an argument can be the value of the option in front of it. -/
def isValue (text : List Char) : Bool := text = ['-'] ∨ text.head? ≠ some '-'

/-- Takes in a setting that has not been given before. A path is not empty. -/
def Given.set? (g : Given) (s : Setting) (value : List Char) : Option Given :=
  match s with
  | .config =>
    if g.config.isSome ∨ value = [] then none
    else some { g with config := some (String.ofList value) }
  | .logLevel =>
    if g.logLevel.isSome then none else some { g with logLevel := some (String.ofList value) }

/-- The options, where those that are not given have the value to fall back on. -/
def Given.options (g : Given) : DaemonOptions :=
  let standard : DaemonOptions := {}
  { config := (g.config.map Files.Path.mk).getD standard.config
    logLevel := g.logLevel.getD standard.logLevel
    resetStorage := g.resetStorage }

/-- Reads the arguments behind those already taken in. -/
def readFrom (g : Given) : List (List Char) → Invocation
  | [] => .run g.options
  | first :: rest =>
    match classify first with
    | .help => .help
    | .version => .version
    | .mistake => .misuse
    | .terminator => if rest = [] then .run g.options else .misuse
    | .resetStorage =>
      if g.resetStorage then .misuse else readFrom { g with resetStorage := true } rest
    | .setting s (some value) =>
      match g.set? s value with
      | some g => readFrom g rest
      | none => .misuse
    | .setting s none =>
      match rest with
      | [] => .misuse
      | value :: rest =>
        if isValue value then
          match g.set? s value with
          | some g => readFrom g rest
          | none => .misuse
        else .misuse

/-- Reads a command line. -/
def read (arguments : List String) : Invocation := readFrom {} (arguments.map String.toList)

end Arguments

end DeviceBridge
