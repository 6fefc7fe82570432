import DeviceBridge.Bridge.Registry
import DeviceBridge.Proofs.Bridge.Lifecycle

/-!
# DeviceBridge.Proofs.Bridge.Registry

What the requests that neither make nor close a node do. All of them leave the node that the bridge
holds, and its unique id (`Site.Minor`); only registering a device changes the registry, together
with the endpoints of the node (`Bridge.after_addEndpoint`), and only a recorded start writes a
document, without touching the unique id that is kept there (`Bridge.after_start`).
-/

namespace DeviceBridge

open Json (Value)

/-- The bridge holds the node that it held, with the same devices and under the same id, and a
window is open without a node only if it was. -/
structure Site.Minor (s s' : Site) : Prop where
  continues : NodesContinue s.nodes s'.nodes
  config : s'.bridge.config = s.bridge.config
  node : s'.bridge.node = s.bridge.node
  devices : s'.bridge.devices = s.bridge.devices
  uniqueId : s'.bridge.uniqueId = s.bridge.uniqueId
  window : s.bridge.node = none → s'.bridge.window.isOpen = true → s.bridge.window.isOpen = true

namespace Site.Minor

theorem of_bridge {s s' : Site} (hb : s'.bridge = s.bridge) (h : NodesContinue s.nodes s'.nodes) :
    s.Minor s' :=
  ⟨h, by rw [hb], by rw [hb], by rw [hb], by rw [hb], fun _ ho => hb ▸ ho⟩

theorem refl (s : Site) : s.Minor s := of_bridge rfl (.refl _)

/-- The log does not matter. -/
theorem logged {s s' : Site} (h : s.Minor s') (entries : List LogEntry) :
    s.Minor { s' with host := s'.host.recordAll entries } :=
  ⟨h.continues, h.config, h.node, h.devices, h.uniqueId, h.window⟩

end Site.Minor

/-- The id that a bridge keeps is not lost. -/
structure Site.RetainsId (s s' : Site) : Prop where
  steady : s.Steady s'
  config : s'.bridge.config = s.bridge.config
  keeps : ∀ id : UniqueId,
    s.bridge.appContext.Keeps s.tree Bridge.uniqueIdKey (.string id.text) →
      s.bridge.appContext.Keeps s'.tree Bridge.uniqueIdKey (.string id.text)

namespace Site.RetainsId

variable {s s' s'' : Site}

theorem of_tree (hs : s.tree.Sound) (hf : s'.host.disk.faults = s.host.disk.faults)
    (ht : s'.tree = s.tree) (hc : s'.bridge.config = s.bridge.config) : s.RetainsId s' :=
  ⟨⟨hf, ht ▸ hs⟩, hc, fun _ hk => ht ▸ hk⟩

theorem of_disk (hs : s.tree.Sound) (hd : s'.host.disk = s.host.disk)
    (hc : s'.bridge.config = s.bridge.config) : s.RetainsId s' :=
  of_tree hs (by rw [hd]) (congrArg Files.Disk.tree hd) hc

theorem appContext (h : s.RetainsId s') : s'.bridge.appContext = s.bridge.appContext :=
  Bridge.appContext_congr h.config

theorem trans (h : s.RetainsId s') (h' : s'.RetainsId s'') : s.RetainsId s'' :=
  ⟨h.steady.trans h'.steady, h'.config.trans h.config,
    fun id hk => h.appContext ▸ h'.keeps id (h.appContext ▸ h.keeps id hk)⟩

/-- The log does not matter. -/
theorem logged (h : s.RetainsId s') (entries : List LogEntry) :
    s.RetainsId { s' with host := s'.host.recordAll entries } :=
  ⟨⟨h.steady.faults, h.steady.sound⟩, h.config, h.keeps⟩

end Site.RetainsId

namespace Bridge

variable {s s' : Site}

/-! ## When no node is made -/

theorem NotMade.minor (h : NotMade s s') (hb : s'.bridge = s.bridge) : s.Minor s' :=
  .of_bridge hb (h.nodes ▸ .refl _)

theorem NotMade.retainsId (h : NotMade s s') (hb : s'.bridge = s.bridge) : s.RetainsId s' :=
  ⟨h.steady, by rw [hb], fun _ hk => (h.untouched _ rfl).keeps hk⟩

theorem Stranded.retainsId {bits : RandomBits} {id : UniqueId} (h : Stranded bits id s s')
    (hb : s'.bridge = s.bridge) : s.RetainsId s' :=
  ⟨h.steady, by rw [hb], fun _ hk => h.untouched.keeps hk⟩

/-! ## Requests that write nothing -/

/-- A change of a node on behalf of a request. -/
theorem after_delegating_onNode (operation : String) (i : Nat)
    {f : ServerNode → Except StackError ServerNode} (hf : ∀ m n, f m = .ok n → m.Continues n) :
    Leaves (delegating operation (Host.changing (·.onNode i f))) s
      (fun s' => s'.bridge = s.bridge ∧ s'.host.disk = s.host.disk ∧
        NodesContinue s.nodes s'.nodes) := by
  refine after_delegating (Host.after_changing (fun st hst => ?_) fun e _ =>
    ⟨rfl, rfl, .refl _⟩)
  obtain ⟨m, n, hm, hn, rfl⟩ := Stack.onNode_eq_ok_iff.mp hst
  exact ⟨rfl, rfl, .set hm (hf m n hn)⟩

theorem after_setEndpointState (id : EndpointId) (cluster name : String) (value : Value) :
    Leaves (setEndpointState id cluster name value) s
      (fun s' => s.Minor s' ∧ s'.host.disk = s.host.disk) := by
  refine after_bind (after_get ?_)
  cases s.bridge.devices.get? id with
  | none => exact after_pure ⟨.refl s, rfl⟩
  | some d =>
      have h := after_delegating_onNode (s := s) "setEndpointState" d.node
        (f := fun n => n.onAggregator (·.setState id.text cluster name value))
        fun m n => ServerNode.continues_setState
      exact h.mono (fun _ _ h => ⟨.of_bridge h.1 h.2.2, h.2.1⟩)
        fun _ _ h => ⟨.of_bridge h.1 h.2.2, h.2.1⟩

theorem after_removeFabric (index : UInt8) :
    Leaves (removeFabric index) s (fun s' => s.Minor s' ∧ s'.host.disk = s.host.disk) := by
  refine after_bind (after_heldNode (fun i _ => ?_) fun _ => ⟨.refl s, rfl⟩)
  have h := after_delegating_onNode (s := s) "removeFabric" i (f := (·.removeFabric index))
    fun m n => ServerNode.continues_removeFabric
  exact h.mono (fun _ _ h => ⟨.of_bridge h.1 h.2.2, h.2.1⟩)
    fun _ _ h => ⟨.of_bridge h.1 h.2.2, h.2.1⟩

theorem after_closeWindow :
    Leaves closeWindow s (fun s' => s.Minor s' ∧ s'.host.disk = s.host.disk) := by
  refine after_bind (after_heldNode (fun i hi => ?_) fun _ => ⟨.refl s, rfl⟩)
  have h := after_delegating_onNode (s := s) "closeCommissioningWindow" i
    (f := (.ok ·.endWindow)) fun m n hn => Except.ok.inj hn ▸ ServerNode.continues_endWindow m
  refine after_bind (h.mono (fun _ s₁ h₁ => ?_) fun _ _ h => ⟨.of_bridge h.1 h.2.2, h.2.1⟩)
  obtain ⟨hb, hd, hn⟩ := h₁
  refine after_update ⟨⟨hn, ?_, ?_, ?_, ?_, fun _ ho => ?_⟩, hd⟩
  · rw [config_markWindowClosed, hb]
  · rw [node_markWindowClosed, hb]
  · rw [devices_markWindowClosed, hb]
  · rw [uniqueId_markWindowClosed, hb]
  · exact hb ▸ isOpen_of_markWindowClosed _ _ ho

theorem after_openWindow_minor :
    Leaves openWindow s (fun s' => s.Minor s' ∧ s'.host.disk = s.host.disk) := by
  refine after_bind (after_heldNode (fun i hi => ?_) fun _ => ⟨.refl s, rfl⟩)
  have h := after_delegating_onNode (s := s) "openCommissioningWindow" i
    (f := ServerNode.openWindow) fun m n => ServerNode.continues_openWindow
  refine after_bind (h.mono (fun _ s₁ h₁ => ?_) fun _ _ h => ⟨.of_bridge h.1 h.2.2, h.2.1⟩)
  obtain ⟨hb, hd, hn⟩ := h₁
  refine after_modify ?_
  dsimp only
  cases (s₁.host.stack.nodes[i]?).bind ServerNode.window with
  | none => exact ⟨.of_bridge hb hn, hd⟩
  | some k =>
      refine ⟨⟨hn, ?_, ?_, ?_, ?_, fun hnone _ => ?_⟩, hd⟩
      · rw [← hb]
      · rw [← hb]
      · rw [← hb]
      · rw [← hb]
      · rw [hi] at hnone
        contradiction

/-! ## Registering a device -/

/-- A device is registered together with its endpoint, which was not there before. The stack refuses
an id only if a device that is not registered has its endpoint. -/
theorem after_addEndpoint (deviceType : String) (id : EndpointId) (info : DeviceInfo)
    (attributes : List (String × Value)) :
    After (addEndpoint deviceType id info attributes) s
      (fun _ s' => s'.host.disk = s.host.disk ∧ ∃ i m n d, s.bridge.node = some i ∧
        s.nodes[i]? = some m ∧ s'.nodes = s.nodes.set i n ∧ n.config = m.config ∧
        n.closed = m.closed ∧ id.text ∉ m.endpointIds ∧
        n.endpointIds = m.endpointIds ++ [id.text] ∧
        s'.bridge = { s.bridge with devices := s.bridge.devices.insert id d })
      (fun e s' => s'.host.disk = s.host.disk ∧ s'.nodes = s.nodes ∧ s'.bridge = s.bridge ∧
        ∀ t, e = .stack (.endpointExists t) → ∃ i n, s.bridge.node = some i ∧
          s.nodes[i]? = some n ∧ s.bridge.devices.contains id = false ∧
          id.text ∈ n.endpointIds) := by
  refine after_bind (after_get ?_)
  dsimp only
  cases hc : s.bridge.devices.contains id with
  | true => exact after_throw ⟨rfl, rfl, rfl, fun t ht => by contradiction⟩
  | false =>
      cases hi : s.bridge.node with
      | none => exact after_throw ⟨rfl, rfl, rfl, fun t ht => by contradiction⟩
      | some i =>
          cases DeviceType.parse deviceType with
          | error e => exact after_throw ⟨rfl, rfl, rfl, fun t ht => by contradiction⟩
          | ok type =>
              refine after_bind (after_delegating (Host.after_changing (fun st hst => ?_)
                fun e he => ⟨rfl, rfl, rfl, fun t ht => ?_⟩))
              · obtain ⟨m, n, hm, hn, rfl⟩ := Stack.onNode_eq_ok_iff.mp hst
                obtain ⟨hconfig, hclosed, hfree, hids⟩ := ServerNode.onAggregator_add_eq_ok hn
                exact after_update ⟨rfl, i, m, n, ⟨⟨id, type, info⟩, i⟩, rfl, hm, rfl, hconfig,
                  hclosed, hfree, hids, by rw [← hi]⟩
              · obtain rfl := BridgeError.stack.inj ht
                rcases Stack.onNode_eq_error_iff.mp he with ⟨-, he⟩ | ⟨n, hn, he⟩
                · contradiction
                · exact ⟨i, n, rfl, hn, rfl, ServerNode.mem_of_onAggregator_add he⟩

/-! ## Starting -/

/-- Recording a start does not touch the unique id that is kept. -/
theorem after_recordLastStart (hs : s.tree.Sound) (now : Int64) :
    Leaves (recordLastStart now) s
      (fun s' => s'.bridge = s.bridge ∧ s'.host.stack = s.host.stack ∧ s.RetainsId s') := by
  refine after_bind (after_get (after_bind ((after_get? _ _).mono (fun kept s₁ h₁ => ?_)
    fun _ s₁ h₁ => ?_)))
  · obtain ⟨⟨hb₁, hst₁, hf₁, ht₁⟩, -⟩ := h₁
    have hs₁ : s₁.tree.Sound := ht₁ ▸ hs
    change s₁.host.disk.tree = s.host.disk.tree at ht₁
    cases nextStart kept now with
    | none => exact after_throw ⟨hb₁, hst₁, .of_tree hs hf₁ ht₁ (by rw [hb₁])⟩
    | some t =>
        refine after_storing ((Context.after_set hs₁ _ _ _).mono (fun _ d h₂ => ?_)
          fun _ d h₂ => ?_)
        · obtain ⟨hf₂, hs₂, -, entries, hshow, hread⟩ := h₂
          rw [ht₁] at hshow
          exact ⟨hb₁, hst₁, ⟨hf₂.trans hf₁, hs₂⟩, by rw [hb₁], fun id hk =>
            hk.of_set rfl (by decide) hshow hread⟩
        · obtain ⟨hf₂, hs₂, hu₂⟩ := h₂
          rw [ht₁] at hu₂
          exact ⟨hb₁, hst₁, ⟨hf₂.trans hf₁, hs₂⟩, by rw [hb₁], fun id hk => (hu₂ _ rfl).keeps hk⟩
  · exact ⟨h₁.bridge, h₁.stack, ⟨h₁.faults, h₁.tree ▸ hs⟩, by rw [h₁.bridge],
      fun id hk => h₁.tree ▸ hk⟩

theorem after_start (hs : s.tree.Sound) (now : Int64) :
    Leaves (start now) s
      (fun s' => s.Minor s' ∧ s.RetainsId s' ∧
        (s.bridge.node = none → s'.host.disk = s.host.disk)) := by
  refine after_bind (after_get ?_)
  cases s.bridge.devices.isEmpty with
  | true => exact after_throw ⟨.refl s, .of_disk hs rfl rfl, fun _ => rfl⟩
  | false =>
      refine after_bind (after_heldNode (fun i hi => ?_) fun _ =>
        ⟨.refl s, .of_disk hs rfl rfl, fun _ => rfl⟩)
      have h := after_delegating_onNode (s := s) "startBridge" i (f := ServerNode.start)
        fun m n => ServerNode.continues_start
      refine after_bind (h.mono (fun _ s₁ h₁ => ?_) fun _ s₁ h₁ => ?_)
      · obtain ⟨hb, hd, hn⟩ := h₁
        have hdisk := Site.RetainsId.of_disk hs hd (by rw [hb])
        have hrecord := after_recordLastStart hdisk.steady.sound now
        refine after_logging (hrecord.mono (fun _ s₂ h₂ => ?_) fun _ s₂ h₂ => ?_)
        all_goals
          obtain ⟨hb₂, hst₂, hretains⟩ := h₂
          have hn₂ : s₂.nodes = s₁.nodes := congrArg Stack.nodes hst₂
          have hminor := Site.Minor.of_bridge (hb₂.trans hb) (hn₂ ▸ hn)
          have hheld : s.bridge.node = none → s₂.host.disk = s.host.disk := fun hnone => by
            rw [hi] at hnone
            contradiction
        · exact ⟨hminor, hdisk.trans hretains, hheld⟩
        · exact ⟨hminor.logged _, (hdisk.trans hretains).logged _, hheld⟩
      · obtain ⟨hb, hd, hn⟩ := h₁
        exact ⟨.of_bridge hb hn, .of_disk hs hd (by rw [hb]), fun _ => hd⟩

end Bridge

end DeviceBridge
