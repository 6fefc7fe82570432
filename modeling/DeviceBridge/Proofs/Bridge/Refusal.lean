import DeviceBridge.Proofs.Bridge.Run
import DeviceBridge.Proofs.Bridge.Site

/-!
# DeviceBridge.Proofs.Bridge.Refusal

A request that fails leaves everything as it was, apart from the log: the bridge, the stack and the
files. This holds of every request that checks before it acts (`Request.Guarded`): of all requests
to a bridge that holds a node, except those that close the node, and of a start as long as the node
has not been started (`Site.unchanged_of_refused`). What such a request does to the stack is one
change, which the stack makes as a whole or not at all; whatever the request checks comes before,
and what it does to the bridge comes after and cannot fail.
-/

namespace DeviceBridge

open Json (Value)

/-- Everything is as it was, except that more may have been logged. -/
structure Site.Unchanged (s s' : Site) : Prop where
  bridge : s'.bridge = s.bridge
  stack : s'.host.stack = s.host.stack
  disk : s'.host.disk = s.host.disk
  log : s.host.log <+: s'.host.log

theorem Site.Unchanged.refl (s : Site) : s.Unchanged s := ⟨rfl, rfl, rfl, List.prefix_refl _⟩

/-- A start gets to the node: there are devices, and the node can be started. -/
def Site.StartsNode (s : Site) : Prop :=
  s.bridge.devices.isEmpty = false ∧
    ∃ i ∈ s.bridge.node, ∃ n ∈ s.nodes[i]?, n.closed = false

instance (s : Site) : Decidable s.StartsNode := inferInstanceAs (Decidable (_ ∧ _))

/-- The bridge holds a node that is started. -/
def Site.Runs (s : Site) : Prop := ∃ i ∈ s.bridge.node, ∃ n ∈ s.nodes[i]?, n.started = true

/-- The requests that fail before they have done anything. -/
def Request.Guarded (s : Site) : Request → Prop
  | init _ => s.bridge.node.isSome
  | addEndpoint .. | setEndpointState .. | openWindow | closeWindow | removeFabric _ => True
  | start _ => ¬ s.StartsNode
  | close | renew .. => False

theorem ServerNode.start_eq_ok_iff {n n' : ServerNode} :
    n.start = .ok n' ↔ n.closed = false ∧ n' = { n with started := true } := by
  unfold ServerNode.start
  split
  · next h => simp [h]
  · next h => simp [h, eq_comm]

namespace Bridge

variable {s : Site}

/-- The stack changes as a whole or not at all. -/
theorem after_delegating_changing (operation : String) (f : Stack → Except StackError Stack) :
    After (delegating operation (Host.changing f)) s
      (fun _ s' => ∃ st, f s.host.stack = .ok st ∧
        s' = { s with host := { s.host with stack := st } })
      (fun _ s' => s.Unchanged s') :=
  after_delegating (Host.after_changing (fun st hst => ⟨st, hst, rfl⟩) fun _ _ =>
    ⟨rfl, rfl, rfl, List.prefix_append _ _⟩)

theorem init_of_held (h : s.bridge.node.isSome) (bits : RandomBits) :
    init bits s = .error .alreadyInitialized s := by
  unfold init
  rw [get_bind_eq, if_pos h]
  rfl

/-- Who is registered is not registered again. -/
theorem addEndpoint_of_contains {id : EndpointId} (h : s.bridge.devices.contains id = true)
    (deviceType : String) (info : DeviceInfo) (attributes : List (String × Value)) :
    addEndpoint deviceType id info attributes s = .error (.deviceExists id) s := by
  unfold addEndpoint
  rw [get_bind_eq, if_pos h]
  rfl

theorem after_addEndpoint_refused (deviceType : String) (id : EndpointId) (info : DeviceInfo)
    (attributes : List (String × Value)) :
    After (addEndpoint deviceType id info attributes) s (fun _ _ => True)
      (fun _ s' => s.Unchanged s') := by
  refine after_bind (after_get ?_)
  dsimp only
  split
  · exact after_throw (.refl s)
  · cases s.bridge.node with
    | none => exact after_throw (.refl s)
    | some i =>
        cases DeviceType.parse deviceType with
        | error e => exact after_throw (.refl s)
        | ok type =>
            exact after_bind ((after_delegating_changing _ _).imp fun _ _ _ => after_update trivial)

theorem after_setEndpointState_refused (id : EndpointId) (cluster name : String) (value : Value) :
    After (setEndpointState id cluster name value) s (fun _ _ => True)
      (fun _ s' => s.Unchanged s') := by
  refine after_bind (after_get ?_)
  cases s.bridge.devices.get? id with
  | none => exact after_pure trivial
  | some d => exact (after_delegating_changing _ _).imp fun _ _ _ => trivial

theorem after_openWindow_refused :
    After openWindow s (fun _ _ => True) (fun _ s' => s.Unchanged s') := by
  refine after_bind (after_heldNode (fun i _ => ?_) fun _ => .refl s)
  exact after_bind ((after_delegating_changing _ _).imp fun _ _ _ => after_modify trivial)

theorem after_closeWindow_refused :
    After closeWindow s (fun _ _ => True) (fun _ s' => s.Unchanged s') := by
  refine after_bind (after_heldNode (fun i _ => ?_) fun _ => .refl s)
  exact after_bind ((after_delegating_changing _ _).imp fun _ _ _ => after_update trivial)

theorem after_removeFabric_refused (index : UInt8) :
    After (removeFabric index) s (fun _ _ => True) (fun _ s' => s.Unchanged s') := by
  refine after_bind (after_heldNode (fun i _ => ?_) fun _ => .refl s)
  exact (after_delegating_changing _ _).imp fun _ _ _ => trivial

/-- Keeping the time of a start concerns the files only. -/
theorem after_recordLastStart_rest (now : Int64) :
    Leaves (recordLastStart now) s
      (fun s' => s'.bridge = s.bridge ∧ s'.host.stack = s.host.stack) := by
  have hstoring {α : Type} (x : Storing α) :
      Maintains (fun t : Site => t.bridge = s.bridge ∧ t.host.stack = s.host.stack) (storing x) :=
    fun _ ht => after_storing (.intro (fun _ _ _ => ht) fun _ _ _ => ht)
  exact after_bind (after_get (maintains_bind (hstoring _) (fun _ =>
    keepStart_of hstoring (maintains_throw _) _ _) s ⟨rfl, rfl⟩))

/-- A start that does not get to the node changes nothing. -/
theorem after_start_refused (now : Int64) (h : ¬ s.StartsNode) :
    After (start now) s (fun _ _ => True) (fun _ s' => s.Unchanged s') := by
  refine after_bind (after_get ?_)
  split
  · exact after_throw (.refl s)
  · next hdevices =>
      refine after_bind (after_heldNode (fun i hi => ?_) fun _ => .refl s)
      refine after_bind ((after_delegating_changing _ _).imp fun _ _ hst => ?_)
      -- the stack would have started the node, so that the start does get to it
      obtain ⟨st, hst, -⟩ := hst
      obtain ⟨n, n', hn, hstart, -⟩ := Stack.onNode_eq_ok_iff.mp hst
      have hopen := (ServerNode.start_eq_ok_iff.mp hstart).1
      exact absurd ⟨by simpa using hdevices, i, hi, n, hn, hopen⟩ h

/-- A start that gets to the node starts it, whatever comes of the rest. -/
theorem after_start_reached (now : Int64) (h : s.StartsNode) :
    Leaves (start now) s (fun s' => s'.Runs) := by
  obtain ⟨hdevices, i, hi, n, hn, hopen⟩ := h
  have hnode : s.bridge.node = some i := hi
  have hlt : i < s.nodes.length := (List.getElem?_eq_some_iff.mp hn).1
  refine after_bind (after_get ?_)
  rw [hdevices]
  refine after_bind (after_heldNode (fun j hj => ?_) fun hnone => ?_)
  · obtain rfl : i = j := Option.some.inj (hnode.symm.trans hj)
    refine after_bind (after_delegating (Host.after_changing (fun st hst => ?_) fun e he => ?_))
    · obtain ⟨m, m', -, hstart, rfl⟩ := Stack.onNode_eq_ok_iff.mp hst
      have hruns (s' : Site) (hb : s'.bridge = s.bridge) (hnodes : s'.nodes = s.nodes.set i m') :
          s'.Runs := by
        refine ⟨i, hb ▸ hi, m', ?_, (ServerNode.start_eq_ok_iff.mp hstart).2 ▸ rfl⟩
        rw [hnodes]
        exact List.getElem?_set_self hlt
      exact after_logging ((after_recordLastStart_rest now).mono
        (fun _ s' h => hruns s' h.1 (congrArg Stack.nodes h.2))
        fun _ s' h => hruns _ h.1 (congrArg Stack.nodes h.2))
    · have hstarts := Stack.onNode_eq_ok_iff.mpr
        ⟨n, _, hn, ServerNode.start_eq_ok_iff.mpr ⟨hopen, rfl⟩, rfl⟩
      cases hstarts.symm.trans he
  · cases hnode.symm.trans hnone

end Bridge

/-- A guarded request that fails changes nothing. -/
theorem Request.after_work_guarded (r : Request) {s : Site} (hr : r.Guarded s) :
    After r.work s (fun _ _ => True) (fun _ s' => s.Unchanged s') := by
  cases r with
  | init bits =>
      have hx : (Request.init bits).work s = .error .alreadyInitialized s :=
        Bridge.init_of_held hr bits
      unfold After
      rw [hx]
      exact .refl s
  | close => exact hr.elim
  | renew reset bits resetBits => exact hr.elim
  | addEndpoint deviceType id info attributes =>
      exact Bridge.after_addEndpoint_refused deviceType id info attributes
  | setEndpointState id cluster name value =>
      exact Bridge.after_setEndpointState_refused id cluster name value
  | start now => exact Bridge.after_start_refused now hr
  | openWindow => exact Bridge.after_openWindow_refused
  | closeWindow => exact Bridge.after_closeWindow_refused
  | removeFabric index => exact Bridge.after_removeFabric_refused index

namespace Site

/-- Wherever a guarded request fails, nothing has changed but the log. A start is guarded exactly as
long as it does not get to the node: from there on, the node runs even if the start fails. -/
theorem unchanged_of_refused {s s' : Site} {r : Request} {e : BridgeError}
    (h : r.work s = .error e s') :
    (r.Guarded s → s.Unchanged s') ∧ (∀ now, r = .start now → s.StartsNode → s'.Runs) := by
  refine ⟨fun hr => (r.after_work_guarded hr).of_error h, fun now hnow hs => ?_⟩
  subst hnow
  exact (Bridge.after_start_reached now hs).of_error h

/-- A bridge with one device, whose node somebody else has closed. -/
def ofClosedNode : Site where
  host := { stack := { nodes := [{
    config := Bridge.nodeConfig { config := {} } .legacy
    closed := true }] } }
  bridge := {
    config := {}
    node := some 0
    devices := [(⟨"f"⟩, ⟨⟨⟨"f"⟩, .fan, {}⟩, 0⟩)]
    uniqueId := some .legacy }

/-- The start of a closed node is refused and changes nothing. -/
theorem unchanged_of_start_closed :
    ¬ ofClosedNode.StartsNode ∧
      ofClosedNode.Unchanged (stateAfter (Request.start 5).work ofClosedNode) := by
  have hguard : ¬ ofClosedNode.StartsNode := by decide
  have hfails : succeeds (Request.start 5).work ofClosedNode = false := by decide +kernel
  obtain ⟨e, he⟩ := eq_error_of_not_succeeds hfails
  exact ⟨hguard, (unchanged_of_refused he).1 hguard⟩

end Site

end DeviceBridge
