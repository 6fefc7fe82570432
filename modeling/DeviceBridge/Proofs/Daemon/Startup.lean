import DeviceBridge.Proofs.Bridge.Fabrics
import DeviceBridge.Proofs.Bridge.Refusal
import DeviceBridge.Proofs.Bridge.Renewal
import DeviceBridge.Proofs.Daemon.Recovery

/-!
# DeviceBridge.Proofs.Daemon.Startup

What the devices in the settings make of the start of the daemon. Once the bridge has been made, the
devices are registered one after the other. Each goes to the end of those before it, or is the first
to which there is an objection (`DeviceConfig.Objection`), and then nothing but those before it has
been registered (`Daemon.after_addDevices`). So the start succeeds if and only if there are devices,
there is an objection to none (`Acceptable`), and a time can follow that of the last start
(`Site.Continues`, `Daemon.startup_iff_acceptable`).
-/

namespace DeviceBridge

open Json (Value)
open Files (Disk)

/-! ## Devices that can be registered -/

theorem DeviceType.mem_tags_iff {tag : String} :
    tag ∈ DeviceType.all.map DeviceType.tag ↔ ∃ type, ofTag? tag = some type := by
  constructor
  · intro h
    obtain ⟨type, -, rfl⟩ := List.mem_map.mp h
    exact ⟨type, ofTag?_tag type⟩
  · rintro ⟨type, htype⟩
    exact List.mem_map.mpr ⟨type, List.mem_of_find?_eq_some htype, by
      simpa using List.find?_some htype⟩

theorem DeviceType.tag_of_ofTag? {tag : String} {type : DeviceType} (h : ofTag? tag = some type) :
    type.tag = tag := by
  simpa using List.find?_some h

namespace DeviceConfig

/-- Why a device cannot be registered after others. That its id is taken comes first. -/
inductive Objection (before : List DeviceConfig) (c : DeviceConfig) : BridgeError → Prop
  | repeated (hid : c.id ∈ before.map DeviceConfig.id) : Objection before c (.deviceExists ⟨c.id⟩)
  | unknown (hid : c.id ∉ before.map DeviceConfig.id)
      (htype : c.deviceType ∉ DeviceType.all.map DeviceType.tag) :
      Objection before c (.unsupportedDeviceType ⟨c.deviceType⟩)

/-- The endpoint of a device whose kind is known. -/
def endpoint? (c : DeviceConfig) : Option BridgedEndpoint :=
  (DeviceType.ofTag? c.deviceType).map fun type =>
    let definition := EndpointDefinition.ofDevice type ⟨c.id⟩ c.info c.attributes
    ⟨definition, definition.initialState⟩

/-- What a bridge that holds a node registers of a device whose kind is known. -/
def entry? (node : Nat) (c : DeviceConfig) : Option (EndpointId × RegisteredDevice) :=
  (DeviceType.ofTag? c.deviceType).map fun type => (⟨c.id⟩, ⟨⟨⟨c.id⟩, type, c.info⟩, node⟩)

end DeviceConfig

/-- Devices of known kinds under ids of their own. -/
structure Acceptable (ds : List DeviceConfig) : Prop where
  distinct : (ds.map DeviceConfig.id).Nodup
  known : ∀ c ∈ ds, c.deviceType ∈ DeviceType.all.map DeviceType.tag

namespace Acceptable

variable {ds before after : List DeviceConfig} {c : DeviceConfig}

theorem nil : Acceptable [] := ⟨List.nodup_nil, List.forall_mem_nil _⟩

theorem concat (h : Acceptable ds) (hid : c.id ∉ ds.map DeviceConfig.id)
    (htype : c.deviceType ∈ DeviceType.all.map DeviceType.tag) : Acceptable (ds ++ [c]) := by
  refine ⟨?_, fun b hb => ?_⟩
  · rw [List.map_append, List.nodup_append]
    refine ⟨h.distinct, List.pairwise_singleton _ _, fun a ha b hb heq => hid ?_⟩
    obtain rfl := List.mem_singleton.mp hb
    exact heq ▸ ha
  · rcases List.mem_append.mp hb with hb | hb
    · exact h.known b hb
    · exact List.mem_singleton.mp hb ▸ htype

theorem of_append (h : Acceptable (before ++ after)) : Acceptable before := by
  refine ⟨?_, fun c hc => h.known c (List.mem_append_left _ hc)⟩
  have hdistinct := h.distinct
  rw [List.map_append] at hdistinct
  exact (List.nodup_append.mp hdistinct).1

/-- There is no objection to any of them. -/
theorem not_objection (h : Acceptable (before ++ c :: after)) (e : BridgeError) :
    ¬ c.Objection before e := fun hobjection => by
  have hdistinct := h.distinct
  rw [List.map_append, List.nodup_append] at hdistinct
  cases hobjection with
  | repeated hid => exact hdistinct.2.2 _ hid _ List.mem_cons_self rfl
  | unknown hid htype => exact htype (h.known c (by simp))

/-- Their endpoints are in order, each with what its device tells about itself. -/
theorem map_endpoints (h : Acceptable ds) :
    (ds.filterMap DeviceConfig.endpoint?).map (fun e =>
        (e.definition.id, e.definition.deviceType.tag, e.definition.info)) =
      ds.map fun c => (c.id, c.deviceType, c.info) := by
  obtain ⟨-, hknown⟩ := h
  induction ds with
  | nil => rfl
  | cons c ds ih =>
      obtain ⟨hc, hds⟩ := List.forall_mem_cons.mp hknown
      obtain ⟨type, htype⟩ := DeviceType.mem_tags_iff.mp hc
      have hendpoint : c.endpoint? = some ⟨.ofDevice type ⟨c.id⟩ c.info c.attributes,
          (EndpointDefinition.ofDevice type ⟨c.id⟩ c.info c.attributes).initialState⟩ := by
        unfold DeviceConfig.endpoint?
        rw [htype]
        rfl
      rw [List.filterMap_cons_some hendpoint, List.map_cons, List.map_cons, ih hds]
      exact congrArg (· :: _) (congrArg (fun t => (c.id, t, c.info))
        (DeviceType.tag_of_ofTag? htype))

theorem map_endpoints_id (h : Acceptable ds) :
    (ds.filterMap DeviceConfig.endpoint?).map (·.definition.id) = ds.map DeviceConfig.id := by
  have hids := congrArg (List.map Prod.fst) h.map_endpoints
  rwa [List.map_map, List.map_map] at hids

end Acceptable

/-! ## What is registered -/

/-- What is registered of devices. -/
def registry (node : Nat) (ds : List DeviceConfig) : Dictionary EndpointId RegisteredDevice :=
  Dictionary.ofList (ds.filterMap (DeviceConfig.entry? node))

theorem registry_concat {node : Nat} {ds : List DeviceConfig} {c : DeviceConfig} {type : DeviceType}
    (htype : DeviceType.ofTag? c.deviceType = some type) :
    registry node (ds ++ [c]) =
      (registry node ds).insert ⟨c.id⟩ ⟨⟨⟨c.id⟩, type, c.info⟩, node⟩ := by
  unfold registry Dictionary.ofList
  rw [List.filterMap_append, List.foldl_append]
  simp [DeviceConfig.entry?, htype]

theorem contains_registry {ds : List DeviceConfig} (h : Acceptable ds) (node : Nat)
    (id : EndpointId) :
    (registry node ds).contains id = true ↔ id.text ∈ ds.map DeviceConfig.id := by
  unfold registry
  rw [Dictionary.contains_ofList, List.mem_map, List.mem_map]
  constructor
  · rintro ⟨e, he, rfl⟩
    obtain ⟨c, hc, he⟩ := List.mem_filterMap.mp he
    obtain ⟨type, -, rfl⟩ := Option.map_eq_some_iff.mp he
    exact ⟨c, hc, rfl⟩
  · rintro ⟨c, hc, hid⟩
    obtain ⟨type, htype⟩ := DeviceType.mem_tags_iff.mp (h.known c hc)
    exact ⟨_, List.mem_filterMap.mpr ⟨c, hc, congrArg (Option.map _) htype⟩,
      congrArg EndpointId.mk hid⟩

theorem isEmpty_registry {ds : List DeviceConfig} (h : Acceptable ds) (hsome : ds ≠ [])
    (node : Nat) : (registry node ds).isEmpty = false := by
  obtain ⟨c, rest, rfl⟩ := List.exists_cons_of_ne_nil hsome
  have hthere := (contains_registry h node ⟨c.id⟩).mpr List.mem_cons_self
  cases hr : registry node (c :: rest) with
  | nil => rw [hr] at hthere; contradiction
  | cons e r => rfl

/-- Each device is registered with its kind and what it tells about itself. -/
theorem get?_registry {ds : List DeviceConfig} (h : Acceptable ds) (node : Nat) (id : EndpointId) :
    ((registry node ds).get? id).map (fun r => (r.device.deviceType.tag, r.device.info)) =
      (ds.find? (·.id = id.text)).map fun c => (c.deviceType, c.info) := by
  induction ds using List.reverseRecOn with
  | nil => rfl
  | append_singleton ds c ih =>
      obtain ⟨type, htype⟩ := DeviceType.mem_tags_iff.mp (h.known c (by simp))
      rw [registry_concat htype, Dictionary.get?_insert, List.find?_append]
      split
      · next hid =>
        subst hid
        have hfree : ds.find? (fun b => b.id = c.id) = none := by
          refine List.find?_eq_none.mpr fun b hb heq => h.not_objection _ (.repeated ?_)
          exact List.mem_map.mpr ⟨b, hb, of_decide_eq_true heq⟩
        simp [hfree, DeviceType.tag_of_ofTag? htype]
      · next hid =>
        have hother : ¬ c.id = id.text := fun heq => hid (congrArg EndpointId.mk heq.symm)
        simp [ih h.of_append, hother]

/-! ## Work on the node that the bridge holds -/

namespace Bridge

variable {s : Site} {i : Nat} {n n' : ServerNode}

section
variable {deviceType : String} {id : EndpointId} {info : DeviceInfo}
  {attributes : List (String × Value)}

theorem addEndpoint_of_unknown (hid : s.bridge.devices.contains id = false)
    (hi : s.bridge.node = some i) (htype : DeviceType.ofTag? deviceType = none) :
    addEndpoint deviceType id info attributes s =
      .error (.unsupportedDeviceType ⟨deviceType⟩) s := by
  unfold addEndpoint DeviceType.parse
  rw [get_bind_eq]
  dsimp only
  rw [hid, hi, htype]
  rfl

theorem addEndpoint_of_add {type : DeviceType} (hid : s.bridge.devices.contains id = false)
    (hi : s.bridge.node = some i) (htype : DeviceType.ofTag? deviceType = some type)
    (hn : s.nodes[i]? = some n)
    (hadd : n.onAggregator (·.add (.ofDevice type id info attributes)) = .ok n') :
    addEndpoint deviceType id info attributes s = .ok () { s.setNode i n' with
      bridge := { s.bridge with
        devices := s.bridge.devices.insert id ⟨⟨id, type, info⟩, i⟩ } } := by
  unfold addEndpoint DeviceType.parse
  rw [get_bind_eq]
  dsimp only
  have hdelegating : delegating "addEndpoint" (Host.changing (·.onNode i
      (·.onAggregator (·.add (.ofDevice type id info attributes))))) s = _ :=
    delegating_onNode_of_ok hn hadd
  rw [hid, if_neg Bool.false_ne_true, hi, htype]
  dsimp only
  rw [bind_eq_of_ok hdelegating, ← hi]
  rfl

end

theorem start_of_isEmpty (hdevices : s.bridge.devices.isEmpty = true) (now : Int64) :
    start now s = .error .noDevices s := by
  unfold start
  rw [get_bind_eq, hdevices]
  rfl

theorem openWindow_of_openWindow {k : Nat} (hi : s.bridge.node = some i)
    (hn : s.nodes[i]? = some n) (hopen : n.openWindow = .ok n') (hk : n'.window = some k) :
    openWindow s = .ok () { s.setNode i n' with
      bridge := { s.bridge with
        window := ⟨true, s.bridge.window.generation + 1⟩
        listeners := s.bridge.listeners ++ [⟨i, k, s.bridge.window.generation + 1⟩] } } := by
  have hset : (s.setNode i n').host.stack.nodes[i]? = some n' := Site.getElem?_setNode hn n'
  unfold openWindow
  rw [bind_eq_of_ok (heldNode_eq hi), bind_eq_of_ok (delegating_onNode_of_ok hn hopen)]
  change EStateM.Result.ok () _ = _
  dsimp only
  rw [hset, Option.bind_some, hk]
  rfl

end Bridge

/-! ## One device after the other -/

/-- The node with the endpoints of devices below a new aggregator. -/
def ServerNode.offering (n : ServerNode) (ds : List DeviceConfig) : ServerNode :=
  { n with aggregator := some ⟨Bridge.aggregatorId, ds.filterMap DeviceConfig.endpoint?⟩ }

/-- The site where devices, and no others, have been registered on a node. -/
def Site.offering (s : Site) (i : Nat) (n : ServerNode) (ds : List DeviceConfig) : Site :=
  { s.setNode i (n.offering ds) with bridge := { s.bridge with devices := registry i ds } }

/-- The bridge holds a node with the endpoints of devices, in order and each with what its device
tells about itself, and has registered these devices and no others. -/
structure Site.Offers (s : Site) (ds : List DeviceConfig) (n : ServerNode) : Prop where
  held : ∃ i, s.bridge.node = some i ∧ s.nodes[i]? = some n
  endpoints : ∃ a, n.aggregator = some a ∧ a.endpoints.map (fun e =>
    (e.definition.id, e.definition.deviceType.tag, e.definition.info)) =
      ds.map fun c => (c.id, c.deviceType, c.info)
  registered : ∀ id, (s.bridge.devices.get? id).map (fun r =>
    (r.device.deviceType.tag, r.device.info)) =
      (ds.find? (·.id = id.text)).map fun c => (c.deviceType, c.info)

/-- A time can follow that of the last start: it is shown and not the last one that there is, or
none is there. -/
def Site.Continues (s : Site) : Prop :=
  ∃ kept, kept ≠ some Int64.maxValue ∧ s.bridge.ShowsStart s.tree kept

theorem Site.Continues.shown {s : Site} (h : s.Continues) :
    ∃ kept, s.bridge.ShowsStart s.tree kept :=
  h.imp fun _ h => h.2

theorem Site.Continues.not_last {s : Site} (h : s.Continues) :
    ¬ s.bridge.ShowsStart s.tree (some Int64.maxValue) := fun hlast => by
  obtain ⟨kept, hkept, hshown⟩ := h
  exact hkept (hshown.unique hlast)

section
variable {s : Site} {i : Nat} {n : ServerNode} {ds : List DeviceConfig}

theorem ServerNode.offering_add (h : Acceptable ds) {c : DeviceConfig} {type : DeviceType}
    (htype : DeviceType.ofTag? c.deviceType = some type) (hid : c.id ∉ ds.map DeviceConfig.id) :
    (n.offering ds).onAggregator (·.add (.ofDevice type ⟨c.id⟩ c.info c.attributes)) =
      .ok (n.offering (ds ++ [c])) := by
  have hfree : (EndpointDefinition.ofDevice type ⟨c.id⟩ c.info c.attributes).id ∉
      (ds.filterMap DeviceConfig.endpoint?).map (·.definition.id) := by
    rwa [h.map_endpoints_id]
  have hendpoint : [c].filterMap DeviceConfig.endpoint? =
      [⟨.ofDevice type ⟨c.id⟩ c.info c.attributes,
        (EndpointDefinition.ofDevice type ⟨c.id⟩ c.info c.attributes).initialState⟩] := by
    simp [DeviceConfig.endpoint?, htype]
  unfold onAggregator offering Aggregator.add Aggregator.endpointIds
  dsimp only
  rw [if_neg hfree, List.filterMap_append, hendpoint]
  rfl

namespace Site

theorem offering_nil (hi : s.nodes[i]? = some n)
    (hn : n.aggregator = some { id := Bridge.aggregatorId }) (hdevices : s.bridge.devices = []) :
    s.offering i n [] = s := by
  have hnode : n.offering [] = n := by
    unfold ServerNode.offering
    rw [List.filterMap_nil, ← hn]
  have hregistry : registry i [] = s.bridge.devices := hdevices.symm
  unfold offering
  rw [hnode, setNode_self hi, hregistry]

theorem getElem?_offering (hi : s.nodes[i]? = some n) :
    (s.offering i n ds).nodes[i]? = some (n.offering ds) :=
  getElem?_setNode hi _

theorem setNode_offering (s : Site) (i : Nat) (n : ServerNode) (ds : List DeviceConfig)
    (n' : ServerNode) : (s.offering i n ds).setNode i n' =
      { s.setNode i n' with bridge := { s.bridge with devices := registry i ds } } :=
  congrArg (fun t : Site => { t with bridge := { s.bridge with devices := registry i ds } })
    (setNode_setNode s i (n.offering ds) n')

theorem offers_offering (hnode : s.bridge.node = some i) (hi : s.nodes[i]? = some n)
    (h : Acceptable ds) : (s.offering i n ds).Offers ds (n.offering ds) :=
  ⟨⟨i, hnode, getElem?_offering hi⟩, ⟨_, rfl, h.map_endpoints⟩, get?_registry h i⟩

end Site

namespace Daemon

variable {d : Daemon}

/-- A device goes to the end of those before it, or there is an objection to it. -/
theorem after_addDevice (hnode : s.bridge.node = some i) (hi : s.nodes[i]? = some n)
    (h : Acceptable ds) (c : DeviceConfig) :
    After (addDevice c) { d with site := s.offering i n ds }
      (fun _ x => Acceptable (ds ++ [c]) ∧ x = { d with site := s.offering i n (ds ++ [c]) })
      (fun e x => x = { d with site := s.offering i n ds } ∧ ∃ err, c.Objection ds err ∧
        e = .bridge (some ("Failed to add device " ++ c.id)) err) := by
  have hcontains := contains_registry h i ⟨c.id⟩
  unfold addDevice
  refine after_bridging ?_
  dsimp only
  by_cases hid : c.id ∈ ds.map DeviceConfig.id
  · have hx : Bridge.addEndpoint c.deviceType ⟨c.id⟩ c.info c.attributes (s.offering i n ds) =
        .error (.deviceExists ⟨c.id⟩) (s.offering i n ds) :=
      Bridge.addEndpoint_of_contains (hcontains.mpr hid) _ _ _
    unfold After
    rw [hx]
    exact ⟨rfl, _, .repeated hid, rfl⟩
  have hfree : (registry i ds).contains ⟨c.id⟩ = false :=
    Bool.eq_false_iff.mpr fun hthere => hid (hcontains.mp hthere)
  cases htype : DeviceType.ofTag? c.deviceType with
  | none =>
      have hunknown : c.deviceType ∉ DeviceType.all.map DeviceType.tag := fun hknown => by
        obtain ⟨type, hsome⟩ := DeviceType.mem_tags_iff.mp hknown
        cases htype.symm.trans hsome
      have hx : Bridge.addEndpoint c.deviceType ⟨c.id⟩ c.info c.attributes (s.offering i n ds) =
          .error (.unsupportedDeviceType ⟨c.deviceType⟩) (s.offering i n ds) :=
        Bridge.addEndpoint_of_unknown hfree hnode htype
      unfold After
      rw [hx]
      exact ⟨rfl, _, .unknown hid hunknown, rfl⟩
  | some type =>
      have hx := Bridge.addEndpoint_of_add (s := s.offering i n ds) hfree hnode htype
        (Site.getElem?_offering hi) (ServerNode.offering_add h htype hid)
      unfold After
      rw [hx]
      refine ⟨h.concat hid (DeviceType.mem_tags_iff.mpr ⟨type, htype⟩), ?_⟩
      rw [Site.setNode_offering]
      unfold Site.offering
      rw [registry_concat htype]

/-- All devices have been registered, or those before the first to which there is an objection. -/
theorem after_addDevices (hnode : s.bridge.node = some i) (hi : s.nodes[i]? = some n)
    (ds : List DeviceConfig) :
    After (ds.forM addDevice) { d with site := s.offering i n [] }
      (fun _ x => Acceptable ds ∧ x = { d with site := s.offering i n ds })
      (fun e x => ∃ before c after err, ds = before ++ c :: after ∧ Acceptable before ∧
        c.Objection before err ∧ e = .bridge (some ("Failed to add device " ++ c.id)) err ∧
        x = { d with site := s.offering i n before }) := by
  refine after_forM (I := fun gone x => Acceptable gone ∧
    x = { d with site := s.offering i n gone }) (fun gone c hgone x hx => ?_) ⟨.nil, rfl⟩
  obtain ⟨h, rfl⟩ := hx
  obtain ⟨rest, hsplit⟩ := hgone
  refine (after_addDevice hnode hi h c).mono (fun _ _ hx => hx) fun e x hx => ?_
  obtain ⟨rfl, err, hobjection, rfl⟩ := hx
  exact ⟨gone, c, rest, err, by rw [← hsplit, List.append_assoc]; rfl, h, hobjection, rfl, rfl⟩

end Daemon

end

/-! ## The start -/

namespace Daemon

/-- How the start of a bridge that has been made can fail. -/
inductive StartFailure (s : Site) (ds : List DeviceConfig) : StartupError → Daemon → Prop
  /-- There is an objection to a device. -/
  | objection {before after : List DeviceConfig} {c : DeviceConfig} {err : BridgeError}
      {n : ServerNode} {x : Daemon} (hsplit : ds = before ++ c :: after) (h : Acceptable before)
      (hobjection : c.Objection before err) (hoffers : x.site.Offers before n)
      (hstill : n.started = false) :
      StartFailure s ds (.bridge (some ("Failed to add device " ++ c.id)) err) x
  /-- There are no devices. -/
  | empty {n : ServerNode} {x : Daemon} (hempty : ds = []) (hoffers : x.site.Offers [] n)
      (hstill : n.started = false) :
      StartFailure s ds (.bridge (some "Failed to start bridge") .noDevices) x
  /-- The time of the start cannot be kept: what was kept before cannot be read, or there is no
  later time. -/
  | unrecorded {err : BridgeError} {x : Daemon} (hsome : ds ≠ []) (h : Acceptable ds)
      (hwhy : s.host.disk.Faultless →
        (¬ ∃ kept, s.bridge.ShowsStart s.tree kept) ∧ (∃ j, err = .storage (.json j)) ∨
        s.bridge.ShowsStart s.tree (some Int64.maxValue) ∧ err = .overflow) :
      StartFailure s ds (.bridge (some "Failed to start bridge") err) x

theorem bridging_of_ok {α : Type} {context : Option String} {x : Bridging α} {d : Daemon} {a : α}
    {s : Site} (hx : x d.site = .ok a s) : bridging context x d = .ok a { d with site := s } := by
  unfold bridging
  rw [hx]

section
variable {config : DaemonConfig} {d : Daemon} {s : Site} {i : Nat} {n : ServerNode}
  {ds : List DeviceConfig} {id : UniqueId}

/-- The time is kept once the node has been started with its devices. -/
theorem after_start_offering (hnode : s.bridge.node = some i) (hi : s.nodes[i]? = some n)
    (hopen : n.closed = false) (hstill : n.started = false) (hd : s.bridge.Documented id s.tree)
    (h : Acceptable ds) (now : Int64) :
    After (bridging (some "Failed to start bridge") (Bridge.start now))
      { d with site := s.offering i n ds }
      (fun _ x => ds ≠ [] ∧ s.Continues ∧
        x.site.bridge = (s.offering i { n with started := true } ds).bridge ∧
        x.site.host.stack = (s.offering i { n with started := true } ds).host.stack)
      (StartFailure s ds) := by
  refine after_bridging ?_
  dsimp only
  by_cases hempty : ds = []
  · subst hempty
    have hx := Bridge.start_of_isEmpty (s := s.offering i n []) rfl now
    unfold After
    rw [hx]
    exact .empty rfl (Site.offers_offering hnode hi h) hstill
  have hstart : (n.offering ds).start = .ok ({ n with started := true }.offering ds) :=
    ServerNode.start_eq hopen
  have hx := Bridge.start_of_start (s := s.offering i n ds) (isEmpty_registry h hempty i) hnode
    (Site.getElem?_offering hi) hstart now
  have hstarted : (s.offering i n ds).setNode i ({ n with started := true }.offering ds) =
      s.offering i { n with started := true } ds := Site.setNode_offering s i n ds _
  unfold After
  rw [hx, hstarted]
  generalize ht : s.offering i { n with started := true } ds = t
  have hd' : t.bridge.Documented id t.tree := ht ▸ hd.congr rfl
  have hshown : t.bridge.ShowsStart t.tree = s.bridge.ShowsStart s.tree := ht ▸ rfl
  have hdisk : t.host.disk = s.host.disk := ht ▸ rfl
  refine Bridge.after_logging (.intro (fun u x hok => ?_) fun err x herr => .unrecorded hempty h
    fun hfaultless => ?_)
  · obtain ⟨hb, hst, -⟩ := (Bridge.after_recordLastStart hd'.sound now).of_ok hok
    obtain ⟨kept, time, hkept, hnext, -⟩ :=
      (Bridge.after_recordLastStart_time hd'.sound now).of_ok hok
    have hlast : kept ≠ some Int64.maxValue := fun hlast => by
      rw [Bridge.nextStart_eq_none_iff.mpr hlast] at hnext
      contradiction
    exact ⟨hempty, ⟨kept, hlast, hshown ▸ hkept⟩, hb, hst⟩
  have hfaultless' : t.host.disk.Faultless := hdisk ▸ hfaultless
  rw [← hshown]
  by_cases hread : ∃ kept, t.bridge.ShowsStart t.tree kept
  · obtain ⟨kept, hkept⟩ := hread
    by_cases hlast : kept = some Int64.maxValue
    · subst hlast
      exact .inr ⟨hkept, (Bridge.after_recordLastStart_last hfaultless' hkept now).of_error herr⟩
    · exact ((Bridge.attains_recordLastStart hfaultless' hd' hkept hlast now).of_error herr).elim
  · exact .inl ⟨hread,
      (Bridge.after_recordLastStart_unshown hfaultless' hd' hread now).of_error herr⟩

/-- Once the bridge has been made, its start goes on with the devices. -/
theorem after_startBridge {reset : Bool} {c : Circumstances} (hs : s.Renewed config.bridge id)
    (hx : Bridge.renew reset c.bits c.resetBits d.site = .ok () s) :
    After (startBridge config reset c) d
      (fun _ x => config.devices ≠ [] ∧ Acceptable config.devices ∧ s.Continues ∧ ∃ i n,
          n = { Bridge.freshNode { config := config.bridge } id with started := true } ∧
          s.bridge.node = some i ∧ i < s.nodes.length ∧
          x.site.bridge = (s.offering i n config.devices).bridge ∧
          x.site.host.stack = (s.offering i n config.devices).host.stack)
      (StartFailure s config.devices) := by
  obtain ⟨-, ⟨-, hdevices, -, i, hnode, hi⟩, hd⟩ := hs
  have hnil := Site.offering_nil hi rfl hdevices
  have hforM := after_addDevices (d := d) hnode hi config.devices
  rw [hnil] at hforM
  have hbound := (List.getElem?_eq_some_iff.mp hi).1
  unfold After startBridge
  rw [bind_eq_of_ok (bridging_of_ok hx)]
  refine after_bind (hforM.mono (fun _ x h => ?_) fun e x h => ?_)
  · obtain ⟨h, rfl⟩ := h
    refine (after_start_offering hnode hi rfl rfl hd h c.now).imp fun _ x hstarted => ?_
    obtain ⟨hsome, hshown, hb, hst⟩ := hstarted
    exact ⟨hsome, h, hshown, i, _, rfl, hnode, hbound, hb, hst⟩
  · obtain ⟨before, b, after, err, hsplit, h, hobjection, rfl, rfl⟩ := h
    exact .objection hsplit h hobjection (Site.offers_offering hnode hi h) rfl

section
variable {reset : Bool} {c : Circumstances} (hs : s.Renewed config.bridge id)
  (hx : Bridge.renew reset c.bits c.resetBits d.site = .ok () s)
include hs hx

/-- Nothing but the time of the last start can prevent the start with acceptable devices, on a disk
without faults. -/
theorem startBridge_of_acceptable (h : s.host.disk.Faultless) (hsome : config.devices ≠ [])
    (hall : Acceptable config.devices) :
    s.Continues ∧ (∃ x, startBridge config reset c d = .ok () x) ∨
      (¬ ∃ kept, s.bridge.ShowsStart s.tree kept) ∧ (∃ e x, startBridge config reset c d =
        .error (.bridge (some "Failed to start bridge") (.storage (.json e))) x) ∨
      s.bridge.ShowsStart s.tree (some Int64.maxValue) ∧ ∃ x, startBridge config reset c d =
        .error (.bridge (some "Failed to start bridge") .overflow) x := by
  have hstart := after_startBridge hs hx
  cases hr : startBridge config reset c d with
  | ok u x => exact .inl ⟨(hstart.of_ok hr).2.2.1, x, rfl⟩
  | error e x =>
      cases hstart.of_error hr with
      | objection hsplit _ hobjection => exact absurd hobjection ((hsplit ▸ hall).not_objection _)
      | empty hempty => exact absurd hempty hsome
      | unrecorded _ _ hwhy =>
          obtain ⟨hno, j, rfl⟩ | ⟨hlast, rfl⟩ := hwhy h
          · exact .inr (.inl ⟨hno, j, x, rfl⟩)
          · exact .inr (.inr ⟨hlast, x, rfl⟩)

theorem startBridge_of_empty (hempty : config.devices = []) :
    ∃ x n, startBridge config reset c d =
        .error (.bridge (some "Failed to start bridge") .noDevices) x ∧
      x.site.Offers [] n ∧ n.started = false := by
  have hstart := after_startBridge hs hx
  cases hr : startBridge config reset c d with
  | ok u x => exact absurd hempty (hstart.of_ok hr).1
  | error e x =>
      cases hstart.of_error hr with
      | objection hsplit => simp [hempty] at hsplit
      | empty _ hoffers hstill => exact ⟨x, _, rfl, hoffers, hstill⟩
      | unrecorded hsome => exact absurd hempty hsome

/-- Devices that are not acceptable are refused, the first to which there is an objection. -/
theorem startBridge_of_not_acceptable (hnot : ¬ Acceptable config.devices) :
    ∃ before e after err x n, config.devices = before ++ e :: after ∧ Acceptable before ∧
      e.Objection before err ∧ startBridge config reset c d =
        .error (.bridge (some ("Failed to add device " ++ e.id)) err) x ∧
      x.site.Offers before n ∧ n.started = false := by
  have hstart := after_startBridge hs hx
  cases hr : startBridge config reset c d with
  | ok u x => exact absurd (hstart.of_ok hr).2.1 hnot
  | error e x =>
      cases hstart.of_error hr with
      | objection hsplit h hobjection hoffers hstill =>
          exact ⟨_, _, _, _, x, _, hsplit, h, hobjection, rfl, hoffers, hstill⟩
      | empty hempty => exact absurd (hempty ▸ Acceptable.nil) hnot
      | unrecorded _ hall => exact absurd hall hnot

end

/-- A node that has just been made is not commissioned, so a window is opened. -/
theorem exists_invite {x : Daemon} (h : Acceptable ds)
    (hn : n = { Bridge.freshNode { config := config.bridge } id with started := true })
    (hnode : s.bridge.node = some i) (hbound : i < s.nodes.length)
    (hb : x.site.bridge = (s.offering i n ds).bridge)
    (hst : x.site.host.stack = (s.offering i n ds).host.stack) :
    ∃ x' m, invite x = .ok () x' ∧ x'.site.Offers ds m ∧ m.started = true ∧
      m.window.isSome = true ∧ x'.site.bridge.window.isOpen = true := by
  subst hn
  have hnode' : x.site.bridge.node = some i := hb ▸ hnode
  have hi : x.site.nodes[i]? = some (ServerNode.offering _ ds) :=
    (congrArg (·.nodes[i]?) hst).trans (List.getElem?_set_self hbound)
  obtain ⟨m, hopen, hwindow, haggregator, hstarted⟩ : ∃ m, (ServerNode.offering
      { Bridge.freshNode { config := config.bridge } id with started := true } ds).openWindow =
        .ok m ∧ m.window = some 0 ∧ m.aggregator =
          some ⟨Bridge.aggregatorId, ds.filterMap DeviceConfig.endpoint?⟩ ∧ m.started = true :=
    ⟨_, ServerNode.openWindow_eq rfl, rfl, rfl, rfl⟩
  have hregistered (e : EndpointId) : (x.site.bridge.devices.get? e).map (fun r =>
      (r.device.deviceType.tag, r.device.info)) =
        (ds.find? (·.id = e.text)).map fun c => (c.deviceType, c.info) :=
    hb ▸ get?_registry h i e
  refine ⟨_, m, (bind_eq_of_ok (bridging_of_ok (Bridge.commissioningState_eq hnode' hi))).trans
    (bridging_of_ok (Bridge.openWindow_of_openWindow hnode' hi hopen hwindow)),
    ⟨⟨i, hnode', ?_⟩, ⟨_, haggregator, h.map_endpoints⟩, hregistered⟩, hstarted,
    hwindow ▸ rfl, rfl⟩
  exact Site.getElem?_setNode hi m

end

/-- What the devices in the settings make of the start, for all settings with which the bridge can
be made. (a) Whether the time of the last start is shown then depends on what lay at the place of
the document before: it is missing after a reset, and otherwise the same, unless there are doubles
in the document. (b) On a disk without faults, the bridge starts if and only if there are devices,
of known kinds and under ids of their own, and a time of the last start that is not the last one
that there is is shown, or none is there. (c) A bridge that has started offers the devices in the
order of the settings, each with what it tells about itself, and a window is opened. (d) If it is
only the time that cannot be read, the text of the document is refused, and if it is only that no
later time is left, the start is given up. (e) Without devices that is the failure, and (f)
otherwise it is the objection to the first device to which there is one; then the devices before it
are offered, and the node has not been started. -/
theorem startup_iff_acceptable {disk : Disk} {config : DaemonConfig} {reset : Bool}
    {c : Circumstances} {s : Site} (hs : disk.tree.Sound)
    (hx : Bridge.renew reset c.bits c.resetBits (fresh disk config).site = .ok () s) :
    let d := fresh disk config
    (∀ entries, d.site.bridge.appContext.Displays disk.tree entries →
        (reset = false → (Value.object entries).FloatFree) →
        ∀ kept, s.bridge.ShowsStart s.tree kept ↔
          Dictionary.get? (if reset then [] else entries) Bridge.lastStartKey =
            kept.map Bridge.timeValue) ∧
      (disk.Faultless → ((∃ x, startBridge config reset c d = .ok () x) ↔
        config.devices ≠ [] ∧ Acceptable config.devices ∧ s.Continues)) ∧
      (∀ x, startBridge config reset c d = .ok () x →
        config.devices ≠ [] ∧ Acceptable config.devices ∧ s.Continues ∧ ∃ x' n,
          invite x = .ok () x' ∧ x'.site.Offers config.devices n ∧ n.started = true ∧
          n.window.isSome = true ∧ x'.site.bridge.window.isOpen = true) ∧
      (disk.Faultless → config.devices ≠ [] → Acceptable config.devices →
        ((¬ ∃ kept, s.bridge.ShowsStart s.tree kept) → ∃ e x, startBridge config reset c d =
          .error (.bridge (some "Failed to start bridge") (.storage (.json e))) x) ∧
        (s.bridge.ShowsStart s.tree (some Int64.maxValue) → ∃ x, startBridge config reset c d =
          .error (.bridge (some "Failed to start bridge") .overflow) x)) ∧
      (config.devices = [] → ∃ x n, startBridge config reset c d =
          .error (.bridge (some "Failed to start bridge") .noDevices) x ∧
        x.site.Offers [] n ∧ n.started = false) ∧
      (¬ Acceptable config.devices → ∃ before e after err x n,
        config.devices = before ++ e :: after ∧ Acceptable before ∧ e.Objection before err ∧
        startBridge config reset c d =
          .error (.bridge (some ("Failed to add device " ++ e.id)) err) x ∧
        x.site.Offers before n ∧ n.started = false) := by
  intro d
  have ho : d.site.Orderly 0 := Site.orderly_new (h := { disk := disk }) hs config.bridge
  obtain ⟨id, hrenewed, hfaults, hshows⟩ :=
    (ho.after_renew_renewed reset c.bits c.resetBits).of_ok hx
  have hstart := after_startBridge hrenewed hx
  have hfaultless (h : disk.Faultless) : s.host.disk.Faultless := fun k =>
    (congrFun hfaults k).trans (h k)
  have hdone (x : Daemon) (hok : startBridge config reset c d = .ok () x) :
      config.devices ≠ [] ∧ Acceptable config.devices ∧ s.Continues := by
    obtain ⟨hsome, hall, hshown, -⟩ := hstart.of_ok hok
    exact ⟨hsome, hall, hshown⟩
  refine ⟨fun entries hd hfree => Bridge.showsStart_iff_of_insert (v := .string id.text) ?_,
    fun h => ⟨fun ⟨x, hok⟩ => hdone x hok, fun ⟨hsome, hall, hshown⟩ => ?_⟩, fun x hok => ?_,
    fun h hsome hall => ?_, startBridge_of_empty hrenewed hx,
    startBridge_of_not_acceptable hrenewed hx⟩
  · rw [Bridge.appContext_congr (b := d.site.bridge) hrenewed.config]
    exact hshows entries hd hfree
  · obtain ⟨-, hok⟩ | ⟨hno, -⟩ | ⟨hlast, -⟩ :=
      startBridge_of_acceptable hrenewed hx (hfaultless h) hsome hall
    · exact hok
    · exact absurd hshown.shown hno
    · exact absurd hlast hshown.not_last
  · obtain ⟨hsome, hall, hshown, i, n, hn, hnode, hbound, hb, hst⟩ := hstart.of_ok hok
    exact ⟨hsome, hall, hshown, exists_invite hall hn hnode hbound hb hst⟩
  · obtain ⟨hshown, -⟩ | ⟨hno, hjson⟩ | ⟨hlast, hgiven⟩ :=
      startBridge_of_acceptable hrenewed hx (hfaultless h) hsome hall
    · exact ⟨fun hno => absurd hshown.shown hno, fun hlast => absurd hlast hshown.not_last⟩
    · exact ⟨fun _ => hjson, fun hlast => absurd ⟨_, hlast⟩ hno⟩
    · exact ⟨fun hno => absurd ⟨_, hlast⟩ hno, fun _ => hgiven⟩

/-- A fan and a thermostat. -/
def twoDevices : List DeviceConfig :=
  [{ deviceType := "Fan", id := "a" }, { deviceType := "Thermostat", id := "b" }]

/-- That an id is taken is the objection also to a device of an unknown kind. -/
example : outcome (startBridge { devices := twoDevices ++ [{ deviceType := "Kettle", id := "a" }] }
    false ⟨0, ⟨0, 0⟩, ⟨1, 1⟩⟩) (fresh {} {}) =
      .error (.bridge (some "Failed to add device a") (.deviceExists ⟨"a"⟩)) := by
  decide +kernel

/-- On an empty disk a bridge starts with two devices, and a window is opened. -/
theorem startBridge_of_twoDevices :
    let config : DaemonConfig := {
      bridge := { storagePath := ⟨"/var/lib/mbridge"⟩ }
      devices := twoDevices }
    let c : Circumstances := ⟨0, ⟨0, 0⟩, ⟨1, 1⟩⟩
    ∃ x x' n, startBridge config false c (fresh {} config) = .ok () x ∧ invite x = .ok () x' ∧
      x'.site.Offers twoDevices n ∧ n.started = true ∧ n.window.isSome = true ∧
      x'.site.bridge.window.isOpen = true := by
  intro config c
  have hx := eq_ok_of_succeeds (show succeeds (Bridge.renew false c.bits c.resetBits)
    (fresh {} config).site = true by decide +kernel)
  generalize stateAfter (Bridge.renew false c.bits c.resetBits) (fresh {} config).site = s at hx
  obtain ⟨hstored, hiff, hdone, -⟩ :=
    @startup_iff_acceptable {} config false c s Files.Tree.sound_nil hx
  have hempty : (fresh {} config).site.bridge.appContext.Displays ({} : Disk).tree [] :=
    .inl ⟨by decide +kernel, rfl⟩
  have hshown : s.bridge.ShowsStart s.tree none :=
    (hstored [] hempty (fun _ => trivial) none).mpr rfl
  have hall : Acceptable config.devices := ⟨by decide, by decide⟩
  obtain ⟨x, hok⟩ := (hiff fun _ => rfl).mpr ⟨List.cons_ne_nil _ _, hall, none, nofun, hshown⟩
  obtain ⟨-, -, -, x', n, hdone⟩ := hdone x hok
  exact ⟨x, x', n, hok, hdone⟩

end Daemon

end DeviceBridge
