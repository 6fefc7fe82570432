import DeviceBridge.Bridge.Lifecycle
import DeviceBridge.Bridge.Registry
import DeviceBridge.Proofs.Work

/-!
# DeviceBridge.Proofs.Bridge.Site

The work of a bridge is made of work on the disk, work of the stack and changes of the bridge
itself. What holds after each of them follows from what holds after the work that it is made of; the
log is the only other thing that changes.
-/

namespace DeviceBridge

open Files (Disk)

variable {α : Type}

/-! ## Work of the host -/

theorem Host.after_changing {f : Stack → Except StackError Stack} {h : Host}
    {done : Unit → Host → Prop} {failed : StackError → Host → Prop}
    (hok : ∀ s, f h.stack = .ok s → done () { h with stack := s })
    (herror : ∀ e, f h.stack = .error e → failed e h) : After (Host.changing f) h done failed := by
  unfold After Host.changing
  cases hf : f h.stack with
  | ok s => exact hok s hf
  | error e => exact herror e hf

theorem Host.after_storing {ε : Type} {wrap : StorageError → ε} {x : Storing α} {h : Host}
    {done : α → Host → Prop} {failed : ε → Host → Prop}
    (hx : After x h.disk (fun a d => done a { h with disk := d })
      fun e d => failed (wrap e) { h with disk := d }) :
    After (Host.storing wrap x) h done failed :=
  .within wrap (by unfold Host.storing; cases x h.disk <;> rfl) hx

/-- A change of a node concerns that node only. -/
theorem Stack.onNode_eq_ok_iff {s s' : Stack} {i : Nat}
    {f : ServerNode → Except StackError ServerNode} :
    s.onNode i f = .ok s' ↔
      ∃ n n', s.nodes[i]? = some n ∧ f n = .ok n' ∧ s' = { s with nodes := s.nodes.set i n' } := by
  unfold Stack.onNode
  cases hi : s.nodes[i]? with
  | none => simp
  | some n =>
      cases hf : f n with
      | error e => simp [hf, Except.map]
      | ok n' => simp [hf, Except.map, eq_comm]

theorem Stack.onNode_eq_error_iff {s : Stack} {i : Nat}
    {f : ServerNode → Except StackError ServerNode} {e : StackError} :
    s.onNode i f = .error e ↔
      s.nodes[i]? = none ∧ e = .other "no such node" ∨
        ∃ n, s.nodes[i]? = some n ∧ f n = .error e := by
  unfold Stack.onNode
  cases hi : s.nodes[i]? with
  | none => simp [eq_comm]
  | some n => cases hf : f n <;> simp [hf, Except.map]

/-! ## One node in the place of another -/

namespace Site

variable {s : Site} {i : Nat} {n : ServerNode}

/-- The site with a node in a place. -/
def setNode (s : Site) (i : Nat) (n : ServerNode) : Site :=
  { s with host := { s.host with stack := { s.host.stack with
    nodes := s.host.stack.nodes.set i n } } }

theorem getElem?_setNode (hn : s.host.stack.nodes[i]? = some n) (n' : ServerNode) :
    (s.setNode i n').host.stack.nodes[i]? = some n' :=
  List.getElem?_set_self (List.getElem?_eq_some_iff.mp hn).1

theorem setNode_self (hn : s.host.stack.nodes[i]? = some n) : s.setNode i n = s := by
  obtain ⟨hi, rfl⟩ := List.getElem?_eq_some_iff.mp hn
  unfold setNode
  rw [List.set_getElem_self]

theorem setNode_setNode (s : Site) (i : Nat) (n n' : ServerNode) :
    (s.setNode i n).setNode i n' = s.setNode i n' := by
  unfold setNode
  rw [List.set_set]

end Site

namespace Bridge

/-! ## Where a bridge keeps its values -/

section
variable {b b' : Bridge} (h : b'.config = b.config)
include h

theorem storage_congr : b'.storage = b.storage := by
  unfold storage
  rw [h]

theorem appContext_congr : b'.appContext = b.appContext := by
  unfold appContext
  rw [storage_congr h]

theorem rootContext_congr : b'.rootContext = b.rootContext := by
  unfold rootContext
  rw [storage_congr h]

end

/-! ## Work of the bridge -/

variable {s : Site} {done : α → Site → Prop} {failed : BridgeError → Site → Prop}

theorem after_onHost {x : EStateM BridgeError Host α}
    (hx : After x s.host (fun a h => done a { s with host := h })
      fun e h => failed e { s with host := h }) : After (onHost x) s done failed :=
  .within id (by unfold onHost; cases x s.host <;> rfl) hx

theorem after_storing {x : Storing α}
    (hx : After x s.host.disk (fun a d => done a { s with host := { s.host with disk := d } })
      fun e d => failed (.storage e) { s with host := { s.host with disk := d } }) :
    After (storing x) s done failed :=
  after_onHost (Host.after_storing hx)

theorem after_hosted {x : Hosted α}
    (hx : After x s.host (fun a h => done a { s with host := h })
      fun e h => failed (.stack e) { s with host := h }) : After (hosted x) s done failed :=
  after_onHost (.within .stack (by cases x s.host <;> rfl) hx)

theorem after_delegating {operation : String} {x : Hosted α}
    (hx : After x s.host (fun a h => done a { s with host := h })
      fun e h => failed (.stack e) { s with host := h.record operation (.stack e) }) :
    After (delegating operation x) s done failed :=
  after_onHost (.within .stack (by cases x s.host <;> rfl) hx)

theorem after_logging {operation : String} {x : Bridging α}
    (hx : After x s done
      fun e s' => failed e { s' with host := s'.host.recordAll (logEntries operation e) }) :
    After (logging operation x) s done failed :=
  .within id (by unfold logging; cases x s <;> rfl) hx

/-- The storage refuses, and nothing is given up. -/
theorem refused_storing (x : Storing α) : FailsOnly (· ≠ .overflow) (storing x) := fun _ =>
  after_storing (.intro (fun _ _ _ => trivial) fun _ _ _ => nofun)

theorem refused_delegating (operation : String) (x : Hosted α) :
    FailsOnly (· ≠ .overflow) (delegating operation x) := fun _ =>
  after_delegating (.intro (fun _ _ _ => trivial) fun _ _ _ => nofun)

/-- What holds of all work on the storage, and of giving up, holds of keeping a time. -/
theorem keepStart_of {P : Bridging Unit → Prop} (hstoring : ∀ x : Storing Unit, P (storing x))
    (hthrow : P (throw .overflow)) (context : Context) (time : Option Int64) :
    P (keepStart context time) := by
  cases time with
  | some t => exact hstoring _
  | none => exact hthrow

theorem after_update {f : Bridge → Bridge} {done : Unit → Site → Prop}
    (h : done () { s with bridge := f s.bridge }) : After (update f) s done failed :=
  after_modify h

/-- A change that a node accepts is all that happens. -/
theorem delegating_onNode_of_ok {operation : String} {i : Nat} {n n' : ServerNode}
    {f : ServerNode → Except StackError ServerNode} (hn : s.host.stack.nodes[i]? = some n)
    (hf : f n = .ok n') :
    delegating operation (Host.changing (·.onNode i f)) s = .ok () (s.setNode i n') := by
  have hon := Stack.onNode_eq_ok_iff.mpr ⟨n, n', hn, hf, rfl⟩
  unfold delegating onHost Host.changing Site.setNode
  simp only [hon]

/-- A change that a node refuses is logged, and nothing else happens. -/
theorem delegating_onNode_of_error {operation : String} {i : Nat} {n : ServerNode}
    {f : ServerNode → Except StackError ServerNode} {e : StackError}
    (hn : s.host.stack.nodes[i]? = some n) (hf : f n = .error e) :
    delegating operation (Host.changing (·.onNode i f)) s =
      .error (.stack e) { s with host := s.host.record operation (.stack e) } := by
  have hon := Stack.onNode_eq_error_iff.mpr (.inr ⟨n, hn, hf⟩)
  unfold delegating onHost Host.changing
  simp only [hon]

theorem heldNode_eq {i : Nat} (hi : s.bridge.node = some i) : heldNode s = .ok i s := by
  unfold heldNode
  rw [get_bind_eq, hi]
  rfl

theorem heldNode_eq_of_none (hi : s.bridge.node = none) :
    heldNode s = .error .notInitialized s := by
  unfold heldNode
  rw [get_bind_eq, hi]
  rfl

theorem after_heldNode {done : Nat → Site → Prop}
    (hsome : ∀ i, s.bridge.node = some i → done i s)
    (hnone : s.bridge.node = none → failed .notInitialized s) :
    After heldNode s done failed := by
  refine after_bind (after_get ?_)
  cases hi : s.bridge.node with
  | some i => exact after_pure (hsome i hi)
  | none => exact after_throw (hnone hi)

/-! ## The end of a window -/

section
variable (generation : Nat) (b : Bridge)

@[simp] theorem config_markWindowClosed : (markWindowClosed generation b).config = b.config := by
  unfold markWindowClosed
  split <;> rfl

@[simp] theorem node_markWindowClosed : (markWindowClosed generation b).node = b.node := by
  unfold markWindowClosed
  split <;> rfl

@[simp] theorem devices_markWindowClosed :
    (markWindowClosed generation b).devices = b.devices := by
  unfold markWindowClosed
  split <;> rfl

@[simp] theorem uniqueId_markWindowClosed :
    (markWindowClosed generation b).uniqueId = b.uniqueId := by
  unfold markWindowClosed
  split <;> rfl

@[simp] theorem listeners_markWindowClosed :
    (markWindowClosed generation b).listeners = b.listeners := by
  unfold markWindowClosed
  split <;> rfl

@[simp] theorem generation_markWindowClosed :
    (markWindowClosed generation b).window.generation = b.window.generation := by
  unfold markWindowClosed
  split <;> rfl

/-- Who else is pending does not matter. -/
theorem markWindowClosed_withListeners (ls : List Listener) :
    markWindowClosed generation { b with listeners := ls } =
      { markWindowClosed generation b with listeners := ls } := by
  unfold markWindowClosed
  split <;> rfl

theorem isOpen_of_markWindowClosed
    (h : (markWindowClosed generation b).window.isOpen = true) : b.window.isOpen = true := by
  unfold markWindowClosed at h
  split at h
  · contradiction
  · exact h

/-- The newest window is closed afterwards. -/
theorem isOpen_markWindowClosed_self :
    (markWindowClosed b.window.generation b).window.isOpen = false := by
  unfold markWindowClosed
  split
  · rfl
  · next h => simpa using h

end

/-! ## A node that is given up -/

section
variable {s : Site} {node : Nat} {id : UniqueId}

theorem abandon_eq_stateAfter (node : Nat) (s : Site) : abandon node s =
    { s with host := stateAfter (Host.changing (·.onNode node ServerNode.close)) s.host } := by
  unfold abandon stateAfter
  cases Host.changing (·.onNode node ServerNode.close) s.host <;> rfl

@[simp] theorem bridge_abandon : (abandon node s).bridge = s.bridge := by
  rw [abandon_eq_stateAfter]

@[simp] theorem disk_abandon : (abandon node s).host.disk = s.host.disk := by
  have hclose : Leaves (Host.changing (·.onNode node ServerNode.close)) s.host
      fun h => h.disk = s.host.disk :=
    Host.after_changing (fun _ _ => rfl) fun _ _ => rfl
  rw [abandon_eq_stateAfter]
  exact hclose.stateAfter

/-- A node is furnished, or given up. -/
theorem after_furnish_or {done : Nat × UniqueId → Site → Prop} {failed : BridgeError → Site → Prop}
    (h : After (furnish node id) s (fun _ s' => done (node, id) s')
      fun e s' => failed e (abandon node s')) :
    After (fun s =>
        match furnish node id s with
        | .ok _ s => .ok (node, id) s
        | .error e s => .error e (abandon node s)) s done failed := by
  unfold After at h ⊢
  dsimp only
  cases hx : furnish node id s with
  | ok u s' => rw [hx] at h; exact h
  | error e s' => rw [hx] at h; exact h

end

end Bridge

end DeviceBridge
