import DeviceBridge.Diagnostics
import DeviceBridge.Stack.Stack

/-!
# DeviceBridge.Host

What a bridge and a controller share: a disk, a protocol stack and the log of failures.
-/

namespace DeviceBridge

open Files (Disk)

/-- A disk, a protocol stack and a log. -/
structure Host where
  disk : Disk := {}
  stack : Stack := {}
  /-- Failed operations in the order in which they failed. -/
  log : List LogEntry := []

instance : Inhabited Host := ⟨{}⟩

/-- Work of the protocol stack. -/
abbrev Hosted (α : Type) := EStateM StackError Host α

namespace Host

/-- Adds failed operations to the log. -/
def recordAll (h : Host) (entries : List LogEntry) : Host := { h with log := h.log ++ entries }

/-- Adds a failed operation to the log. -/
def record (h : Host) (operation : String) (failure : Failure) : Host :=
  h.recordAll [⟨operation, failure⟩]

/-- Work on the storage, whose refusals are wrapped. -/
def storing {ε α : Type} (wrap : StorageError → ε) (x : Storing α) : EStateM ε Host α := fun h =>
  match x h.disk with
  | .ok a d => .ok a { h with disk := d }
  | .error e d => .error (wrap e) { h with disk := d }

/-- A change of the stack, which is as it was if it refuses. -/
def changing (f : Stack → Except StackError Stack) : Hosted Unit := fun h =>
  match f h.stack with
  | .ok s => .ok () { h with stack := s }
  | .error e => .error e h

/-- Makes a node and tells its number. The stack leaves its mark in the node's namespace. -/
def createNode (config : ServerNodeConfig) : Hosted Nat := do
  let s := (← get).stack
  match s.createFailure with
  | some text =>
    modify fun h => { h with stack := { s with createFailure := none } }
    throw (.other text)
  | none =>
    storing .storage
      (Context.set ⟨config.storage, Stack.rootContext⟩ Stack.rootNumberKey
        (.number (.integer (.ofUInt64 0))))
    modify fun h =>
      { h with stack := { h.stack with nodes := h.stack.nodes ++ [{ config := config }] } }
    return s.nodes.length

/-- Stops a node and erases its namespace. -/
def eraseNode (i : Nat) : Hosted Unit := do
  match (← get).stack.nodes[i]? with
  | none => throw (.other "no such node")
  | some n =>
    modify fun h => { h with stack := h.stack.updateNode i ServerNode.stopErased }
    storing .storage n.config.storage.erase

end Host

end DeviceBridge
