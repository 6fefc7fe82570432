import DeviceBridge.Proofs.Bridge.Listener
import DeviceBridge.Proofs.Bridge.Refusal
import DeviceBridge.Proofs.Device.Definition
import DeviceBridge.Proofs.Stack.Endpoints
import Mathlib.Data.List.Induction

/-!
# DeviceBridge.Proofs.Bridge.Attributes

The values of a device's attributes. Only two requests have to do with them: registering a device
gives it its first values, and setting an attribute gives a registered device another. All other
steps leave the values of every device that stays registered (`Site.Spares`). What one step does to
a device is `Site.DeviceStep`; along a run, a device therefore has the values with which it was
registered last, but for those that have been set since (`Site.exists_registration`).
-/

namespace DeviceBridge

open Json (Value)

/-- Nobody is registered who was not before, and as long as somebody is, the node that was held is
held. Every aggregator is as it was. -/
structure Site.Spares (s s' : Site) : Prop where
  aggregators : s.host.stack.KeepsAggregators s'.host.stack
  devices : ∀ {id d}, s'.bridge.devices.get? id = some d → s.bridge.devices.get? id = some d ∧
    ∀ i, s.bridge.node = some i → s'.bridge.node = some i

namespace Site.Spares

variable {s s' s'' : Site}

theorem of_bridge (hb : s'.bridge = s.bridge)
    (h : s.host.stack.KeepsAggregators s'.host.stack) : s.Spares s' where
  aggregators := h
  devices hd := ⟨hb ▸ hd, fun _ hi => hb ▸ hi⟩

theorem refl (s : Site) : s.Spares s := of_bridge rfl (.refl _)

theorem trans (h : s.Spares s') (h' : s'.Spares s'') : s.Spares s'' where
  aggregators := h.aggregators.trans h'.aggregators
  devices hd := by
    obtain ⟨hd', hnode'⟩ := h'.devices hd
    obtain ⟨hd, hnode⟩ := h.devices hd'
    exact ⟨hd, fun i hi => hnode' i (hnode i hi)⟩

/-- Who is not registered has nothing to lose. -/
theorem of_no_devices (hd : s'.bridge.devices = [])
    (h : s.host.stack.KeepsAggregators s'.host.stack) : s.Spares s' where
  aggregators := h
  devices hget := by
    rw [hd] at hget
    contradiction

end Site.Spares

/-! ## Work that spares the devices -/

namespace Bridge

variable {α : Type} {s₀ s : Site}

theorem spares_storing (x : Storing α) : Maintains s₀.Spares (storing x) := fun _ hs =>
  after_storing (.intro (fun _ _ _ => hs.trans (.of_bridge rfl (.refl _))) fun _ _ _ =>
    hs.trans (.of_bridge rfl (.refl _)))

theorem spares_hosted {x : Hosted α} (hx : Host.Sparing x) : Maintains s₀.Spares (hosted x) :=
  fun s hs => after_hosted ((hx s.host).mono (fun _ _ h => hs.trans (.of_bridge rfl h)) fun _ _ h =>
    hs.trans (.of_bridge rfl h))

theorem spares_delegating (operation : String) {x : Hosted α} (hx : Host.Sparing x) :
    Maintains s₀.Spares (delegating operation x) := fun s hs =>
  after_delegating ((hx s.host).mono (fun _ _ h => hs.trans (.of_bridge rfl h)) fun _ _ h =>
    hs.trans (.of_bridge rfl h))

theorem spares_logging {x : Bridging α} (operation : String) (hx : Maintains s₀.Spares x) :
    Maintains s₀.Spares (logging operation x) := fun s hs =>
  after_logging ((hx s hs).mono (fun _ _ h => h) fun _ _ h => h.trans (.of_bridge rfl (.refl _)))

theorem spares_heldNode : Maintains s₀.Spares heldNode := fun _ hs =>
  after_heldNode (fun _ _ => hs) fun _ => hs

theorem spares_init (bits : RandomBits) : Maintains s₀.Spares (init bits) := by
  have hresolve : Maintains s₀.Spares (resolveUniqueId bits) := fun s hs =>
    (after_resolveUniqueId bits s).mono
      (fun _ s' h => hs.trans (.of_bridge h.1.bridge (h.1.stack ▸ .refl _)))
      fun _ s' h => hs.trans (.of_bridge h.bridge (h.stack ▸ .refl _))
  have hfurnish (i : Nat) (id : UniqueId) : Maintains s₀.Spares (furnish i id) :=
    maintains_bind (spares_hosted (Host.sparing_onNode i fun m n a hn ha => by
      rw [ServerNode.aggregator_addAggregator hn] at ha
      contradiction)) fun _ => maintains_bind maintains_get fun _ => spares_storing _
  have habandon (i : Nat) {s : Site} (hs : s₀.Spares s) : s₀.Spares (abandon i s) := by
    rw [abandon_eq_stateAfter]
    exact hs.trans (.of_bridge rfl (Host.sparing_close i s.host).stateAfter)
  have hbuild : Maintains s₀.Spares (buildNode bits) :=
    maintains_bind hresolve fun id => maintains_bind maintains_get fun _ =>
      maintains_bind (spares_hosted (Host.sparing_createNode _)) fun i => fun s hs =>
        after_furnish_or ((hfurnish i id s hs).mono (fun _ _ h => h) fun _ _ h => habandon i h)
  refine fun s hs => after_bind (after_get ?_)
  cases hnode : s.bridge.node with
  | some i => exact after_throw hs
  | none =>
      refine after_bind (after_logging (((hbuild s hs).and (after_buildNode_window bits s)).mono
        (fun r s₁ h₁ => ?_) fun _ s₁ h₁ => h₁.1.trans (.of_bridge rfl (.refl _))))
      obtain ⟨hs₁, hb, -⟩ := h₁
      refine after_update ⟨hs₁.aggregators, fun hd => ?_⟩
      -- nobody is registered with a bridge that held a node and has none
      obtain ⟨hd, hheld⟩ := hs₁.devices hd
      refine ⟨hd, fun i hi => ?_⟩
      have hnone := hheld i hi
      rw [hb, hnode] at hnone
      contradiction

theorem spares_close : Maintains s₀.Spares close := by
  have hforget {s : Site} (hs : s₀.Spares s) {h : Host}
      (hk : s.host.stack.KeepsAggregators h.stack) : s₀.Spares ⟨h, s.bridge.forget⟩ :=
    .of_no_devices (devices_forget _) (hs.aggregators.trans hk)
  intro s hs
  unfold Leaves After close
  dsimp only
  cases s.bridge.node with
  | none => exact hforget hs (.refl _)
  | some i =>
      have hclose := Host.sparing_close i s.host
      dsimp only
      cases hx : Host.changing (·.onNode i ServerNode.close) s.host with
      | ok u h => exact hforget hs (hclose.of_ok hx)
      | error e h =>
          have hk := hclose.of_error hx
          cases e <;> exact hforget hs hk

theorem spares_renew (reset : Bool) (bits resetBits : RandomBits) :
    Maintains s₀.Spares (renew reset bits resetBits) := by
  have hstart : Maintains s₀.Spares (startOver resetBits) :=
    maintains_bind spares_heldNode fun i =>
      maintains_bind (spares_delegating _ (Host.sparing_eraseNode i)) fun _ =>
        maintains_bind spares_close fun _ => maintains_bind maintains_get fun _ =>
          maintains_bind (spares_storing _) fun _ => spares_init resetBits
  refine maintains_bind spares_close fun _ => maintains_bind (spares_init bits) fun _ => ?_
  cases reset
  · exact maintains_pure _
  · exact hstart

theorem spares_start (now : Int64) : Maintains s₀.Spares (start now) := by
  have hrecord : Maintains s₀.Spares (recordLastStart now) :=
    maintains_bind maintains_get fun _ => maintains_bind (spares_storing _) fun _ =>
      keepStart_of spares_storing (maintains_throw _) _ _
  have hstart (i : Nat) := Host.sparing_onNode i (f := ServerNode.start)
    fun _ _ _ hn ha => (ServerNode.aggregator_start hn).trans ha
  refine maintains_bind maintains_get fun s => ?_
  cases s.bridge.devices.isEmpty with
  | true => exact maintains_throw _
  | false =>
      exact maintains_bind spares_heldNode fun i =>
        maintains_bind (spares_delegating _ (hstart i)) fun _ => spares_logging _ hrecord

theorem spares_openWindow : Maintains s₀.Spares openWindow := by
  have hopen (i : Nat) := Host.sparing_onNode i (f := ServerNode.openWindow)
    fun _ _ _ hn ha => (ServerNode.aggregator_openWindow hn).trans ha
  refine maintains_bind spares_heldNode fun i =>
    maintains_bind (spares_delegating _ (hopen i)) fun _ => fun s hs => after_modify ?_
  dsimp only
  cases (s.host.stack.nodes[i]?).bind ServerNode.window with
  | none => exact hs
  | some k => exact ⟨hs.aggregators, hs.devices⟩

theorem spares_markWindowClosed (hs : s₀.Spares s) (generation : Nat) :
    s₀.Spares { s with bridge := markWindowClosed generation s.bridge } where
  aggregators := hs.aggregators
  devices hd := by
    rw [devices_markWindowClosed] at hd
    rw [node_markWindowClosed]
    exact hs.devices hd

theorem spares_closeWindow : Maintains s₀.Spares closeWindow :=
  maintains_bind spares_heldNode fun i =>
    maintains_bind (spares_delegating _ (Host.sparing_endWindow i)) fun _ => fun _ hs =>
      after_update (spares_markWindowClosed hs _)

theorem spares_removeFabric (index : UInt8) : Maintains s₀.Spares (removeFabric index) :=
  maintains_bind spares_heldNode fun i => spares_delegating _ (Host.sparing_onNode i
    fun _ _ _ hn ha => (ServerNode.aggregator_removeFabric hn).trans ha)

end Bridge

/-! ## The values of a device -/

namespace Site

variable {s s' : Site} {id : EndpointId} {d : RegisteredDevice} {state : ClusterState}

/-- The values that the stack has for a registered device. -/
def deviceState? (s : Site) (id : EndpointId) : Option ClusterState :=
  (s.bridge.devices.get? id).bind fun d => (s.nodes[d.node]?).bind (·.endpointState? id.text)

theorem deviceState?_of_registered (h : s.bridge.devices.get? id = some d) :
    s.deviceState? id = (s.host.stack.aggregator? d.node).bind (·.state? id.text) := by
  unfold deviceState? Stack.aggregator?
  rw [h, Option.bind_some, Option.bind_assoc]
  simp only [ServerNode.endpointState?_eq]

theorem deviceState?_of_unregistered (h : s.bridge.devices.get? id = none) :
    s.deviceState? id = none := by
  unfold deviceState?
  rw [h, Option.bind_none]

theorem exists_of_deviceState? (h : s.deviceState? id = some state) :
    ∃ d a, s.bridge.devices.get? id = some d ∧ s.host.stack.aggregator? d.node = some a ∧
      a.state? id.text = some state := by
  cases hd : s.bridge.devices.get? id with
  | none => rw [deviceState?_of_unregistered hd] at h; contradiction
  | some d =>
      rw [deviceState?_of_registered hd] at h
      obtain ⟨a, ha, hstate⟩ := Option.bind_eq_some_iff.mp h
      exact ⟨d, a, rfl, ha, hstate⟩

theorem Spares.deviceState? (h : s.Spares s') (hd : s'.bridge.devices.get? id = some d)
    (hstate : s.deviceState? id = some state) : s'.deviceState? id = some state := by
  obtain ⟨d', a, hd', ha, hstate⟩ := exists_of_deviceState? hstate
  obtain rfl := Option.some.inj ((h.devices hd).1.symm.trans hd')
  rw [deviceState?_of_registered hd, h.aggregators _ _ ha, Option.bind_some, hstate]

theorem Unchanged.deviceState? (h : s.Unchanged s') (id : EndpointId) :
    s'.deviceState? id = s.deviceState? id := by
  unfold Site.deviceState? Site.nodes
  rw [h.bridge, h.stack]

/-- Where the aggregator of a device's node is replaced by one that has other values for this
device, this device has those, and all others have what they had. -/
theorem deviceState?_of_replaced {a b : Aggregator} (hd : s'.bridge.devices.get? id = some d)
    (hothers : ∀ id', id' ≠ id → s'.bridge.devices.get? id' = s.bridge.devices.get? id')
    (ha : s.host.stack.aggregator? d.node = some a)
    (hagg : ∀ j, s'.host.stack.aggregator? j =
      if j = d.node then some b else s.host.stack.aggregator? j)
    (hids : ∀ t, b.state? t = if t = id.text then some state else a.state? t) :
    s'.deviceState? id = some state ∧
      ∀ id', id' ≠ id → s'.deviceState? id' = s.deviceState? id' := by
  constructor
  · rw [deviceState?_of_registered hd, hagg, if_pos rfl, Option.bind_some, hids, if_pos rfl]
  · intro id' hne
    have htext : id'.text ≠ id.text := fun h => hne (by cases id'; cases id; exact congrArg _ h)
    cases hd' : s.bridge.devices.get? id' with
    | none =>
        rw [deviceState?_of_unregistered hd',
          deviceState?_of_unregistered ((hothers id' hne).trans hd')]
    | some d' =>
        rw [deviceState?_of_registered hd',
          deviceState?_of_registered ((hothers id' hne).trans hd'), hagg]
        split
        · next hnode => rw [hnode, ha, Option.bind_some, Option.bind_some, hids, if_neg htext]
        · rfl

end Site

namespace Bridge

variable {s : Site} {id : EndpointId}

/-- Setting an attribute of a device gives it another value, unless the device lacks the cluster. -/
theorem after_setEndpointState_value {state : ClusterState} (h : s.deviceState? id = some state)
    (cluster name : String) (value : Value) :
    After (setEndpointState id cluster name value) s
      (fun _ s' => s'.bridge = s.bridge ∧ ∃ state', state.set? cluster name value = some state' ∧
        s'.deviceState? id = some state' ∧
        ∀ id', id' ≠ id → s'.deviceState? id' = s.deviceState? id')
      (fun e s' => state.set? cluster name value = none ∧
        e = .stack (.unknownCluster id.text cluster) ∧ s.Unchanged s') := by
  obtain ⟨d, a, hd, ha, hstate⟩ := Site.exists_of_deviceState? h
  have hcases := a.setState_cases hstate cluster name value
  refine after_bind (after_get ?_)
  rw [hd]
  refine after_delegating (Host.after_changing (fun st hst => ?_) fun e he => ?_)
  · obtain ⟨a', b, ha', hb, hagg⟩ := Stack.exists_of_onAggregator hst
    obtain rfl := Option.some.inj (ha.symm.trans ha')
    obtain ⟨-, herror⟩ | ⟨state', b', hset, hok, hids⟩ := hcases
    · cases herror.symm.trans hb
    · obtain rfl := Except.ok.inj (hok.symm.trans hb)
      exact ⟨rfl, state', hset,
        Site.deviceState?_of_replaced hd (fun _ _ => rfl) ha hagg hids⟩
  · have herror := Stack.error_of_onAggregator he ha
    obtain ⟨hset, herror'⟩ | ⟨state', b', -, hok, -⟩ := hcases
    · exact ⟨hset, congrArg _ (Except.error.inj (herror.symm.trans herror')),
        rfl, rfl, rfl, List.prefix_append _ _⟩
    · cases hok.symm.trans herror

/-- For who is not registered nothing is set. -/
theorem setEndpointState_of_unregistered (h : s.bridge.devices.get? id = none)
    (cluster name : String) (value : Value) :
    setEndpointState id cluster name value s = .ok () s := by
  unfold setEndpointState
  rw [get_bind_eq, h]
  rfl

/-- A device that lacks a cluster refuses to have its attributes set. -/
theorem setEndpointState_of_lacking {state : ClusterState} {cluster : String}
    (h : s.deviceState? id = some state) (hc : Dictionary.contains state cluster = false)
    (name : String) (value : Value) :
    ∃ s', setEndpointState id cluster name value s =
      .error (.stack (.unknownCluster id.text cluster)) s' ∧ s.Unchanged s' := by
  have hset : state.set? cluster name value = none := ClusterState.set?_eq_none_iff.mpr hc
  have hafter := after_setEndpointState_value h cluster name value
  cases hx : setEndpointState id cluster name value s with
  | ok u s' =>
      obtain ⟨-, state', hset', -⟩ := hafter.of_ok hx
      cases hset.symm.trans hset'
  | error e s' =>
      obtain ⟨-, rfl, hu⟩ := hafter.of_error hx
      exact ⟨s', rfl, hu⟩

/-- In a cluster that a device has, exactly the attribute that is set changes. -/
theorem setEndpointState_of_contains {state : ClusterState} {cluster : String}
    (h : s.deviceState? id = some state) (hc : Dictionary.contains state cluster = true)
    (name : String) (value : Value) :
    ∃ s' state', setEndpointState id cluster name value s = .ok () s' ∧
      s'.bridge = s.bridge ∧ s'.deviceState? id = some state' ∧
      (∀ c, Dictionary.contains state' c = Dictionary.contains state c) ∧
      (∀ c n, state'.value? c n =
        if c = cluster ∧ n = name then some value else state.value? c n) ∧
      ∀ id', id' ≠ id → s'.deviceState? id' = s.deviceState? id' := by
  have hafter := after_setEndpointState_value h cluster name value
  cases hx : setEndpointState id cluster name value s with
  | ok u s' =>
      obtain ⟨hb, state', hset, hstate', hothers⟩ := hafter.of_ok hx
      exact ⟨s', state', rfl, hb, hstate', ClusterState.contains_of_set? hset,
        ClusterState.value?_of_set? hset, hothers⟩
  | error e s' =>
      rw [ClusterState.set?_eq_none_iff.mp (hafter.of_error hx).1] at hc
      contradiction

theorem addEndpoint_of_registered {d : RegisteredDevice}
    (h : s.bridge.devices.get? id = some d) (tag : String) (info : DeviceInfo)
    (attributes : List (String × Value)) :
    addEndpoint tag id info attributes s = .error (.deviceExists id) s :=
  addEndpoint_of_contains (by rw [Dictionary.contains, h]; rfl) tag info attributes

/-- A device that is registered has the values that its definition gives it. -/
theorem after_addEndpoint_value (tag : String) (id : EndpointId) (info : DeviceInfo)
    (attributes : List (String × Value)) :
    After (addEndpoint tag id info attributes) s
      (fun _ s' => ∃ d : RegisteredDevice, s.bridge.devices.get? id = none ∧
        DeviceType.parse tag = .ok d.device.deviceType ∧ d.device.info = info ∧
        s.bridge.node = some d.node ∧
        s'.bridge = { s.bridge with devices := s.bridge.devices.insert id d } ∧
        s'.deviceState? id =
          some (EndpointDefinition.ofDevice d.device.deviceType id info attributes).initialState ∧
        ∀ id', id' ≠ id → s'.deviceState? id' = s.deviceState? id')
      (fun _ s' => s.Unchanged s') := by
  refine after_bind (after_get ?_)
  dsimp only
  cases hc : s.bridge.devices.contains id with
  | true => exact after_throw (.refl s)
  | false =>
      have hnew : s.bridge.devices.get? id = none := by
        simpa [Dictionary.contains] using hc
      cases hi : s.bridge.node with
      | none => exact after_throw (.refl s)
      | some i =>
          cases htype : DeviceType.parse tag with
          | error e => exact after_throw (.refl s)
          | ok type =>
              refine after_bind (after_delegating (Host.after_changing (fun st hst => ?_)
                fun e _ => ⟨rfl, rfl, rfl, List.prefix_append _ _⟩))
              obtain ⟨a, b, ha, hb, hagg⟩ := Stack.exists_of_onAggregator hst
              let d : RegisteredDevice := ⟨⟨id, type, info⟩, i⟩
              have hd : (s.bridge.devices.insert id d).get? id = some d := by
                rw [Dictionary.get?_insert, if_pos rfl]
              refine after_update ⟨d, hnew, rfl, rfl, rfl, by rw [hi],
                Site.deviceState?_of_replaced hd (fun id' hne => ?_) ha hagg
                  (Aggregator.state?_add hb)⟩
              rw [Dictionary.get?_insert, if_neg hne]

end Bridge

/-! ## Steps -/

/-- The value to which a step is to set an attribute of a device. -/
def Action.sets? (a : Action) (id : EndpointId) (cluster name : String) : Option Value :=
  match a with
  | .request (.setEndpointState id' cluster' name' value) =>
    if id = id' ∧ cluster = cluster' ∧ name = name' then some value else none
  | _ => none

/-- The stack has values for every device that is registered. -/
def Site.Served (s : Site) : Prop :=
  ∀ id d, s.bridge.devices.get? id = some d → ∃ state, s.deviceState? id = some state

/-- What a step has done to a device that is registered afterwards: the device has been registered
and has its first values, or it was registered before, with the clusters that it has, and has been
given the value to which the step sets one of its attributes. -/
inductive Site.DeviceStep (s s' : Site) (a : Action) (id : EndpointId) (d : RegisteredDevice) : Prop
  | registers {tag : String} {attributes : List (String × Value)}
      (ha : a = .request (.addEndpoint tag id d.device.info attributes))
      (hnew : s.bridge.devices.get? id = none)
      (htype : DeviceType.parse tag = .ok d.device.deviceType)
      (hnode : s'.bridge.node = some d.node)
      (hstate : s'.deviceState? id = some
        (EndpointDefinition.ofDevice d.device.deviceType id d.device.info attributes).initialState)
  | stays (hold : s.bridge.devices.get? id = some d)
      (hnode : ∀ i, s.bridge.node = some i → s'.bridge.node = some i)
      (hstate : ∀ state, s.deviceState? id = some state →
        ∃ state', s'.deviceState? id = some state' ∧
          (∀ c, Dictionary.contains state' c = Dictionary.contains state c) ∧
          ∀ c n, Dictionary.contains state c = true →
            state'.value? c n = (a.sets? id c n).or (state.value? c n))

namespace Site

variable {s s' : Site} {a : Action} {id : EndpointId} {d : RegisteredDevice}

/-- A step that sets nothing of a device leaves its values. -/
theorem DeviceStep.of_kept (hold : s.bridge.devices.get? id = some d)
    (hnode : ∀ i, s.bridge.node = some i → s'.bridge.node = some i)
    (hstate : ∀ state, s.deviceState? id = some state → s'.deviceState? id = some state ∧
      ∀ c n, Dictionary.contains state c = true → a.sets? id c n = none) :
    DeviceStep s s' a id d := by
  refine .stays hold hnode fun state h => ?_
  obtain ⟨hstate, hsets⟩ := hstate state h
  exact ⟨state, hstate, fun _ => rfl, fun c n hc => by rw [hsets c n hc, Option.none_or]⟩

theorem Spares.deviceStep (h : s.Spares s') (hsets : ∀ c n, a.sets? id c n = none)
    (hd : s'.bridge.devices.get? id = some d) : DeviceStep s s' a id d :=
  .of_kept (h.devices hd).1 (h.devices hd).2 fun _ hstate =>
    ⟨h.deviceState? hd hstate, fun c n _ => hsets c n⟩

theorem Unchanged.spares (h : s.Unchanged s') : s.Spares s' :=
  .of_bridge h.bridge (h.stack ▸ .refl _)

end Site

namespace Bridge

variable {s : Site} {id : EndpointId}

theorem deviceStep_addEndpoint (tag : String) (id' : EndpointId) (info : DeviceInfo)
    (attributes : List (String × Value)) :
    Leaves (addEndpoint tag id' info attributes) s fun s' => ∀ d,
      s'.bridge.devices.get? id = some d →
        s.DeviceStep s' (.request (.addEndpoint tag id' info attributes)) id d := by
  refine (after_addEndpoint_value tag id' info attributes).mono (fun _ s' h d hd => ?_)
    fun _ s' h d hd => h.spares.deviceStep (fun _ _ => rfl) hd
  obtain ⟨d', hnew, htype, rfl, hnode, hb, hstate, hothers⟩ := h
  rw [hb, Dictionary.get?_insert] at hd
  split at hd
  · next hid =>
    obtain rfl := Option.some.inj hd
    subst hid
    exact .registers rfl hnew htype (by rw [hb, hnode]) hstate
  · next hid =>
    exact .of_kept hd (fun i hi => by rw [hb, ← hi]) fun state hstate =>
      ⟨(hothers id hid).trans hstate, fun _ _ _ => rfl⟩

theorem deviceStep_setEndpointState (hs : s.Served) (id' : EndpointId) (cluster name : String)
    (value : Value) :
    Leaves (setEndpointState id' cluster name value) s fun s' => ∀ d,
      s'.bridge.devices.get? id = some d →
        s.DeviceStep s' (.request (.setEndpointState id' cluster name value)) id d := by
  have hother (hne : id ≠ id') (c n : String) :
      Action.sets? (.request (.setEndpointState id' cluster name value)) id c n = none :=
    if_neg fun h => hne h.1
  cases hd' : s.bridge.devices.get? id' with
  | none =>
      refine .intro (fun _ s' hx d hd => ?_) fun _ _ hx => ?_
      · obtain ⟨-, rfl⟩ := EStateM.Result.ok.inj
          ((setEndpointState_of_unregistered hd' cluster name value).symm.trans hx)
        have hne : id ≠ id' := fun heq => by
          rw [heq, hd'] at hd
          contradiction
        exact (Site.Spares.refl s).deviceStep (hother hne) hd
      · rw [setEndpointState_of_unregistered hd'] at hx
        contradiction
  | some d' =>
      obtain ⟨state, hstate⟩ := hs id' d' hd'
      refine (after_setEndpointState_value hstate cluster name value).mono (fun _ s' h d hd => ?_)
        fun _ s' h d hd => ?_
      · obtain ⟨hb, state', hset, hstate', hothers⟩ := h
        rw [hb] at hd
        by_cases hid : id = id'
        · subst hid
          refine .stays hd (fun i hi => hb ▸ hi) fun state₁ h₁ => ?_
          obtain rfl := Option.some.inj (hstate.symm.trans h₁)
          refine ⟨state', hstate', ClusterState.contains_of_set? hset, fun c n _ => ?_⟩
          rw [ClusterState.value?_of_set? hset]
          by_cases hplace : c = cluster ∧ n = name <;> simp [Action.sets?, hplace]
        · exact .of_kept hd (fun i hi => hb ▸ hi) fun state₁ h₁ =>
            ⟨(hothers id hid).trans h₁, fun c n _ => hother hid c n⟩
      · obtain ⟨hset, -, hu⟩ := h
        refine .of_kept (hu.bridge ▸ hd) (fun i hi => hu.bridge ▸ hi) fun state₁ h₁ =>
          ⟨(hu.deviceState? id).trans h₁, fun c n hc => if_neg fun hplace => ?_⟩
        -- the device lacks the cluster, so that none of its attributes is meant
        obtain ⟨rfl, rfl, rfl⟩ := hplace
        obtain rfl := Option.some.inj (hstate.symm.trans h₁)
        rw [ClusterState.set?_eq_none_iff.mp hset] at hc
        contradiction

/-- A listener that gets its turn concerns no device. -/
theorem spares_deliver (s : Site) (k : Nat) : s.Spares (deliver k s) := by
  unfold deliver
  split
  · exact .refl s
  · split
    · have hrest : s.Spares { s with
          bridge := { s.bridge with listeners := s.bridge.listeners.eraseIdx k } } :=
        ⟨.refl _, fun hd => ⟨hd, fun _ hi => hi⟩⟩
      exact spares_markWindowClosed hrest _
    · exact .refl s

end Bridge

/-- What happens to the stack without the bridge leaves every aggregator as it is. -/
theorem Incident.sparing (i : Incident) : Host.Sparing i.work := by
  cases i with
  | refuseNode text => exact fun h => after_modify fun _ _ ha => ha
  | closeNode node => exact Host.sparing_close node
  | eraseNode node => exact Host.sparing_eraseNode node
  | endWindow node => exact Host.sparing_endWindow node
  | setCommissioned node commissioned =>
      exact Host.sparing_onNode node fun m n a hn ha => Except.ok.inj hn ▸ ha
  | addFabric node f =>
      exact Host.sparing_onNode node fun m n a hn ha => Except.ok.inj hn ▸ ha

namespace Site

/-- What a step can do to a device. -/
theorem act_device {s : Site} (hs : s.Served) {a : Action} {id : EndpointId} {d : RegisteredDevice}
    (hd : (s.act a).bridge.devices.get? id = some d) : s.DeviceStep (s.act a) a id d := by
  have hspares {r : Request} (hr : Maintains s.Spares r.work)
      (hsets : ∀ c n, Action.sets? (.request r) id c n = none)
      (hd : (s.act (.request r)).bridge.devices.get? id = some d) :
      s.DeviceStep (s.act (.request r)) (.request r) id d :=
    (hr s (.refl s)).stateAfter.deviceStep hsets hd
  cases a with
  | deliver k => exact (Bridge.spares_deliver s k).deviceStep (fun _ _ => rfl) hd
  | incident i =>
      have hincident : s.Spares (s.act (.incident i)) :=
        .of_bridge rfl (i.sparing s.host).stateAfter
      exact hincident.deviceStep (fun _ _ => rfl) hd
  | outside t =>
      have houtside : s.Spares (s.withTree t) := .of_bridge rfl (.refl _)
      exact houtside.deviceStep (fun _ _ => rfl) hd
  | request r =>
      cases r with
      | addEndpoint tag id' info attributes =>
          exact (Bridge.deviceStep_addEndpoint tag id' info attributes).stateAfter d hd
      | setEndpointState id' cluster name value =>
          exact (Bridge.deviceStep_setEndpointState hs id' cluster name value).stateAfter d hd
      | init bits => exact hspares (Bridge.spares_init bits) (fun _ _ => rfl) hd
      | close => exact hspares Bridge.spares_close (fun _ _ => rfl) hd
      | renew reset bits resetBits =>
          exact hspares (Bridge.spares_renew reset bits resetBits) (fun _ _ => rfl) hd
      | start now => exact hspares (Bridge.spares_start now) (fun _ _ => rfl) hd
      | openWindow => exact hspares Bridge.spares_openWindow (fun _ _ => rfl) hd
      | closeWindow => exact hspares Bridge.spares_closeWindow (fun _ _ => rfl) hd
      | removeFabric index => exact hspares (Bridge.spares_removeFabric index) (fun _ _ => rfl) hd

end Site

/-! ## Runs -/

/-- The value to which the last step to do so is to set an attribute of a device. -/
def lastSet? (as : List Action) (id : EndpointId) (cluster name : String) : Option Value :=
  as.reverse.findSome? (·.sets? id cluster name)

theorem lastSet?_concat (as : List Action) (a : Action) (id : EndpointId) (cluster name : String) :
    lastSet? (as ++ [a]) id cluster name =
      (a.sets? id cluster name).or (lastSet? as id cluster name) := by
  unfold lastSet?
  rw [List.reverse_append, List.reverse_singleton, List.singleton_append, List.findSome?_cons]
  cases a.sets? id cluster name <;> rfl

namespace Site

/-- The step of a run with which a device was registered that has been registered ever since. -/
structure Registration (start : Site) (as : List Action) (id : EndpointId)
    (d : RegisteredDevice) where
  before : List Action
  tag : String
  attributes : List (String × Value)
  after : List Action
  steps : as = before ++ .request (.addEndpoint tag id d.device.info attributes) :: after
  unregistered : (start.run before).bridge.devices.get? id = none
  parses : DeviceType.parse tag = .ok d.device.deviceType
  /-- From then on the device is registered, with the node that the bridge holds. -/
  registered : ∀ gone, gone <+: after →
    let s := start.run (before ++ .request (.addEndpoint tag id d.device.info attributes) :: gone)
    s.bridge.devices.get? id = some d ∧ s.bridge.node = some d.node

namespace Registration

variable {start : Site} {as : List Action} {id : EndpointId} {d : RegisteredDevice}

/-- The endpoint with which the device was registered. -/
def definition (r : start.Registration as id d) : EndpointDefinition :=
  .ofDevice d.device.deviceType id d.device.info r.attributes

/-- At the end of the run the device is registered. -/
theorem registered_run (r : start.Registration as id d) :
    (start.run as).bridge.devices.get? id = some d ∧ (start.run as).bridge.node = some d.node := by
  have h := r.registered r.after (List.prefix_refl _)
  rwa [← r.steps] at h

/-- The last step of a run has registered the device. -/
def last {tag : String} {attributes : List (String × Value)}
    (hnew : (start.run as).bridge.devices.get? id = none)
    (hparse : DeviceType.parse tag = .ok d.device.deviceType)
    (h : let s := start.run (as ++ [.request (.addEndpoint tag id d.device.info attributes)])
      s.bridge.devices.get? id = some d ∧ s.bridge.node = some d.node) :
    start.Registration (as ++ [.request (.addEndpoint tag id d.device.info attributes)]) id d where
  before := as
  tag := tag
  attributes := attributes
  after := []
  steps := rfl
  unregistered := hnew
  parses := hparse
  registered gone hgone := by
    obtain rfl := List.prefix_nil.mp hgone
    exact h

/-- A step that leaves the device registered comes after its registration. -/
def extend (r : start.Registration as id d) {a : Action}
    (h : let s := start.run (as ++ [a])
      s.bridge.devices.get? id = some d ∧ s.bridge.node = some d.node) :
    start.Registration (as ++ [a]) id d where
  before := r.before
  tag := r.tag
  attributes := r.attributes
  after := r.after ++ [a]
  steps := (congrArg (· ++ [a]) r.steps).trans (by simp)
  unregistered := r.unregistered
  parses := r.parses
  registered gone hgone := by
    rcases List.prefix_concat_iff.mp hgone with rfl | hgone
    · have hsteps := r.steps
      rw [hsteps] at h
      simpa using h
    · exact r.registered gone hgone

end Registration

@[simp] theorem run_concat (s : Site) (as : List Action) (a : Action) :
    s.run (as ++ [a]) = (s.run as).act a := by
  simp [run]

/-- A device that is registered at the end of a run has the clusters with which it was registered,
and in them the values with which it was registered, but for those that have been set since. -/
theorem exists_registration {start : Site} (hstart : start.bridge.devices = [])
    (as : List Action) :
    ∀ id d, (start.run as).bridge.devices.get? id = some d →
      ∃ (r : start.Registration as id d) (state : ClusterState),
        (start.run as).deviceState? id = some state ∧
        (∀ c, Dictionary.contains state c = Dictionary.contains r.definition.initialState c) ∧
        ∀ c n, Dictionary.contains state c = true → state.value? c n =
          (lastSet? r.after id c n).or (r.definition.initialState.value? c n) := by
  induction as using List.reverseRecOn with
  | nil =>
      intro id d hd
      rw [run_nil, hstart] at hd
      contradiction
  | append_singleton as a ih =>
      intro id d hd
      have hserved : (start.run as).Served := fun id d hd =>
        let ⟨_, state, hstate, _⟩ := ih id d hd
        ⟨state, hstate⟩
      have hstep : (start.run as).DeviceStep (start.run (as ++ [a])) a id d := by
        rw [run_concat] at hd ⊢
        exact act_device hserved hd
      cases hstep with
      | registers ha hnew htype hnode hstate =>
          subst ha
          exact ⟨.last hnew htype ⟨hd, hnode⟩, _, hstate, fun _ => rfl, fun c n _ =>
            (Option.none_or ..).symm⟩
      | stays hold hnode hstate =>
          obtain ⟨r, state, hr, hclusters, hvalues⟩ := ih id d hold
          obtain ⟨state', hr', hclusters', hvalues'⟩ := hstate state hr
          refine ⟨r.extend ⟨hd, hnode _ r.registered_run.2⟩, state', hr',
            fun c => (hclusters' c).trans (hclusters c), fun c n hc => ?_⟩
          rw [hclusters'] at hc
          change _ = (lastSet? (r.after ++ [a]) id c n).or (r.definition.initialState.value? c n)
          rw [hvalues' c n hc, hvalues c n hc, lastSet?_concat, Option.or_assoc]

/-- Attributes of devices, whatever happens to a new bridge. A registered device has the clusters of
its kind and the one with what it tells about itself, and the value of an attribute is the one to
which it has been set last since the device was registered, or else the one with which it was
registered. Nothing is set for who is not registered; setting an attribute of a cluster that the
device lacks is refused; and otherwise exactly this attribute of this device changes. Who is
registered is not registered again. -/
theorem attributes_run (h : Host) (c : BridgeConfig) (as : List Action) :
    let start : Site := ⟨h, { config := c }⟩
    let s := start.run as
    (∀ id d, s.bridge.devices.get? id = some d → s.bridge.node = some d.node ∧
      ∃ (r : start.Registration as id d) (state : ClusterState),
        s.deviceState? id = some state ∧
        (∀ cluster, Dictionary.contains state cluster = true ↔
          cluster ∈ d.device.deviceType.profile.clusters ∨ cluster = bridgedInfoCluster) ∧
        ∀ cluster name, state.value? cluster name =
          if Dictionary.contains state cluster then
            (lastSet? r.after id cluster name).or (r.definition.initialState.value? cluster name)
          else none) ∧
    (∀ id cluster name value, s.bridge.devices.get? id = none →
      Bridge.setEndpointState id cluster name value s = .ok () s) ∧
    (∀ id state cluster name value, s.deviceState? id = some state →
      Dictionary.contains state cluster = false →
        ∃ s', Bridge.setEndpointState id cluster name value s =
          .error (.stack (.unknownCluster id.text cluster)) s' ∧ s.Unchanged s') ∧
    (∀ id state cluster name value, s.deviceState? id = some state →
      Dictionary.contains state cluster = true →
        ∃ s' state', Bridge.setEndpointState id cluster name value s = .ok () s' ∧
          s'.bridge = s.bridge ∧ s'.deviceState? id = some state' ∧
          (∀ c, Dictionary.contains state' c = Dictionary.contains state c) ∧
          (∀ c n, state'.value? c n =
            if c = cluster ∧ n = name then some value else state.value? c n) ∧
          ∀ id', id' ≠ id → s'.deviceState? id' = s.deviceState? id') ∧
    ∀ tag id info attributes d, s.bridge.devices.get? id = some d →
      Bridge.addEndpoint tag id info attributes s = .error (.deviceExists id) s := by
  intro start s
  have hempty : start.bridge.devices = [] := rfl
  refine ⟨fun id d hd => ?_, fun id cluster name value hd =>
    Bridge.setEndpointState_of_unregistered hd cluster name value,
    fun id state cluster name value hstate hc =>
      Bridge.setEndpointState_of_lacking hstate hc name value,
    fun id state cluster name value hstate hc =>
      Bridge.setEndpointState_of_contains hstate hc name value,
    fun tag id info attributes d hd => Bridge.addEndpoint_of_registered hd tag info attributes⟩
  obtain ⟨r, state, hstate, hclusters, hvalues⟩ := exists_registration hempty as id d hd
  refine ⟨r.registered_run.2, r, state, hstate, fun cluster => ?_, fun cluster name => ?_⟩
  · rw [hclusters, Registration.definition, EndpointDefinition.contains_initialState]
  · split
    · next hc => exact hvalues cluster name hc
    · next hc =>
      refine Option.eq_none_iff_forall_ne_some.mpr fun v hv => hc ?_
      exact ClusterState.contains_of_value? hv

/-- A lamp is registered, switched on and registered once more. -/
def switchedLamp : List Action :=
  [.request (.init ⟨0, 0⟩),
    .request (.addEndpoint "DimmableLight" ⟨"lamp"⟩ {} [("onOff.onOff", .bool false)]),
    .request (.setEndpointState ⟨"lamp"⟩ "onOff" "onOff" (.bool true)),
    .request (.addEndpoint "DimmableLight" ⟨"lamp"⟩ {} [("onOff.onOff", .bool false)])]

example :
    let s : Site := ⟨{}, { config := { storagePath := ⟨"s"⟩ } }⟩
    (((s.run switchedLamp).deviceState? ⟨"lamp"⟩).bind (·.value? "onOff" "onOff")).map
      (· matches .bool true) = some true := by
  decide +kernel

end Site

end DeviceBridge
