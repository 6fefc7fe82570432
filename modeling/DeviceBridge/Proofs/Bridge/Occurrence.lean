import DeviceBridge.Proofs.Bridge.Lifecycle
import DeviceBridge.Proofs.Stack.Operation

/-!
# DeviceBridge.Proofs.Bridge.Occurrence

Runs in which others use the stack as well: they make nodes of their own, and they do to a node, be
it that of the bridge, whatever can be done to it. All that a bridge ever does to nodes is to make
them and to operate on them, so what holds of a new node and outlasts every operation holds of every
node (`Site.Upholds`); and the node that a bridge holds is always there.
-/

namespace DeviceBridge

/-- What an incident does to a node. -/
def Incident.operation? : Incident → Option (Nat × NodeOperation)
  | refuseNode _ => none
  | closeNode node => some (node, .close)
  | eraseNode node => some (node, .erase)
  | endWindow node => some (node, .endWindow)
  | setCommissioned node commissioned => some (node, .setCommissioned commissioned)
  | addFabric node f => some (node, .addFabric f)

/-- What happens where others use the stack as well. -/
inductive Occurrence where
  | act (a : Action)
  /-- Others make a node. -/
  | make (config : ServerNodeConfig)
  /-- Others do something to a node. -/
  | operate (node : Nat) (o : NodeOperation)

/-- What is done to a node without the bridge. -/
def Occurrence.operation? : Occurrence → Option NodeOperation
  | act (.incident i) => i.operation?.map Prod.snd
  | act _ => none
  | make _ => none
  | operate _ o => some o

namespace Site

/-- The site after an occurrence. -/
def occur (s : Site) : Occurrence → Site
  | .act a => s.act a
  | .make config => { s with host := stateAfter (Host.createNode config) s.host }
  | .operate node o => { s with host := stateAfter (o.work node) s.host }

/-- The site after occurrences. -/
def undergo (s : Site) (os : List Occurrence) : Site := os.foldl occur s

end Site

/-! ## What holds of every node -/

/-- It holds of new nodes and outlasts all operations, except that somebody says whether the node is
commissioned. -/
structure ServerNode.Lasts (P : ServerNode → Prop) : Prop where
  fresh : ∀ config, P { config := config }
  apply : ∀ o : NodeOperation, (∀ commissioned, o ≠ .setCommissioned commissioned) →
    ∀ n, P n → P (o.apply n)

/-- From a number on, it holds of all nodes, and that of the bridge is one of them. -/
structure Site.Upholds (first : Nat) (P : ServerNode → Prop) (s : Site) : Prop where
  made : first ≤ s.nodes.length
  held : ∀ i, s.bridge.node = some i → first ≤ i ∧ i < s.nodes.length
  nodes : ∀ j n, first ≤ j → s.nodes[j]? = some n → P n

namespace Site.Upholds

variable {first : Nat} {P : ServerNode → Prop} {s s' : Site}

theorem of_nodes (h : s.Upholds first P) (hnodes : s'.nodes = s.nodes)
    (hnode : s'.bridge.node = s.bridge.node ∨ s'.bridge.node = none) : s'.Upholds first P := by
  refine ⟨hnodes ▸ h.made, fun i hi => ?_, hnodes ▸ h.nodes⟩
  rcases hnode with hnode | hnode
  · rw [hnodes]
    exact h.held i (hnode ▸ hi)
  · rw [hnode] at hi
    contradiction

theorem of_modify (h : s.Upholds first P) {i : Nat} {f : ServerNode → ServerNode}
    (hf : ∀ n, P n → P (f n)) (hnodes : s'.nodes = s.nodes.modify i f)
    (hnode : s'.bridge.node = s.bridge.node) : s'.Upholds first P := by
  have hlength : s'.nodes.length = s.nodes.length := by rw [hnodes, List.length_modify]
  refine ⟨hlength ▸ h.made, fun i hi => hlength ▸ h.held i (hnode ▸ hi), fun j n hj hn => ?_⟩
  rw [hnodes, List.getElem?_modify] at hn
  obtain ⟨m, hm, rfl⟩ := Option.map_eq_some_iff.mp hn
  split
  · exact hf m (h.nodes j m hj hm)
  · exact h.nodes j m hj hm

theorem of_append (h : s.Upholds first P) {n : ServerNode} (hn : P n)
    (hnodes : s'.nodes = s.nodes ++ [n]) (hnode : s'.bridge.node = s.bridge.node) :
    s'.Upholds first P := by
  have hlength : s'.nodes.length = s.nodes.length + 1 := by simp [hnodes]
  refine ⟨hlength ▸ Nat.le_succ_of_le h.made, fun i hi => ?_, fun j m hj hm => ?_⟩
  · obtain ⟨hfirst, hlt⟩ := h.held i (hnode ▸ hi)
    exact ⟨hfirst, hlength ▸ Nat.lt_succ_of_lt hlt⟩
  · rw [hnodes, List.getElem?_append] at hm
    split at hm
    · exact h.nodes j m hj hm
    · obtain ⟨-, rfl⟩ : _ ∧ n = m := by simpa using List.getElem?_eq_some_iff.mp hm
      exact hn

/-- The bridge takes a node that is there. -/
theorem take (h : s.Upholds first P) {i : Nat} (hfirst : first ≤ i) (hi : i < s.nodes.length)
    (hnodes : s'.nodes = s.nodes) (hnode : s'.bridge.node = some i) : s'.Upholds first P := by
  refine ⟨hnodes ▸ h.made, fun j hj => ?_, hnodes ▸ h.nodes⟩
  obtain rfl := Option.some.inj (hnode.symm.trans hj)
  exact ⟨hfirst, hnodes ▸ hi⟩

/-- The node of the bridge is there. -/
theorem exists_held (h : s.Upholds first P) {i : Nat} (hi : s.bridge.node = some i) :
    ∃ n, s.nodes[i]? = some n ∧ P n := by
  obtain ⟨hfirst, hlt⟩ := h.held i hi
  have hn := List.getElem?_eq_getElem hlt
  exact ⟨_, hn, h.nodes i _ hfirst hn⟩

theorem operate (h : s.Upholds first P) {o : NodeOperation} (ho : ∀ n, P n → P (o.apply n))
    (i : Nat) : Leaves (o.work i) s.host fun h' => Upholds first P { s with host := h' } :=
  (o.leaves_work i s.host).mono (fun _ _ hn => h.of_modify ho hn rfl)
    fun _ _ hn => h.of_modify ho hn rfl

end Site.Upholds

theorem Site.upholds_new {P : ServerNode → Prop} (h : Host) (c : BridgeConfig) :
    Upholds h.stack.nodes.length P ⟨h, { config := c }⟩ := by
  refine ⟨Nat.le_refl _, fun i hi => by contradiction, fun j n hj hn => ?_⟩
  rw [List.getElem?_eq_none hj] at hn
  contradiction

/-! ## Work of the bridge -/

namespace Bridge

/-- Work after which it holds of every node as before. -/
abbrev Upholding (first : Nat) (P : ServerNode → Prop) {α : Type} (x : Bridging α) : Prop :=
  Maintains (Site.Upholds first P) x

variable {first : Nat} {P : ServerNode → Prop} {α : Type}

theorem upholding_update {f : Bridge → Bridge} (hf : ∀ b : Bridge, (f b).node = b.node) :
    Upholding first P (update f) := fun s hs =>
  after_update (hs.of_nodes rfl (.inl (hf s.bridge)))

theorem upholding_storing (x : Storing α) : Upholding first P (storing x) := fun _ hs =>
  after_storing (.intro (fun _ _ _ => hs.of_nodes rfl (.inl rfl))
    fun _ _ _ => hs.of_nodes rfl (.inl rfl))

theorem upholding_logging {x : Bridging α} (operation : String) (hx : Upholding first P x) :
    Upholding first P (logging operation x) := fun s hs =>
  after_logging ((hx s hs).mono (fun _ _ h => h) fun _ _ h => h.of_nodes rfl (.inl rfl))

theorem upholding_heldNode : Upholding first P heldNode := fun _ hs =>
  after_heldNode (fun _ _ => hs) fun _ => hs

/-- Furnishing a node only attaches its aggregator. -/
theorem nodes_furnish (i : Nat) (id : UniqueId) (s : Site) :
    Leaves (furnish i id) s fun s' => s'.bridge = s.bridge ∧
      s'.nodes = s.nodes.modify i (NodeOperation.addAggregator aggregatorId).apply := by
  refine after_bind (after_hosted
    ((NodeOperation.leaves_work (.addAggregator aggregatorId) i s.host).mono (fun _ _ hn => ?_)
      fun _ _ hn => ⟨rfl, hn⟩))
  exact after_bind (after_get (after_storing (.intro (fun _ _ _ => ⟨rfl, hn⟩)
    fun _ _ _ => ⟨rfl, hn⟩)))

/-- Closing a bridge closes the node that it holds, and nothing else is done to the nodes. -/
theorem nodes_close (s : Site) :
    Leaves close s fun s' => s'.bridge = s.bridge.forget ∧
      s'.nodes = match s.bridge.node with
        | none => s.nodes
        | some i => s.nodes.modify i NodeOperation.close.apply := by
  unfold Leaves After close
  dsimp only
  cases s.bridge.node with
  | none => exact ⟨rfl, rfl⟩
  | some i =>
      have hclosed := NodeOperation.close.leaves_work i s.host
      dsimp only
      cases hx : Host.changing (·.onNode i ServerNode.close) s.host with
      | ok u h => exact ⟨rfl, hclosed.of_ok hx⟩
      | error e h =>
          have hnodes := hclosed.of_error hx
          cases e <;> exact ⟨rfl, hnodes⟩

section
variable (hP : ServerNode.Lasts P)
include hP

/-- What a request does to a node. -/
theorem upholding_delegating (operation : String) (i : Nat) {o : NodeOperation}
    (ho : ∀ commissioned, o ≠ .setCommissioned commissioned) :
    Upholding first P (delegating operation (o.work i)) := fun _ hs =>
  after_delegating ((hs.operate (hP.apply o ho) i).mono (fun _ _ h => h)
    fun _ _ h => h.of_nodes rfl (.inl rfl))

theorem upholds_abandon {s : Site} (hs : s.Upholds first P) (i : Nat) :
    (abandon i s).Upholds first P := by
  rw [abandon_eq_stateAfter]
  exact (hs.operate (hP.apply .close nofun) i).stateAfter

/-- The node that a bridge makes is there, and it holds of that node as well. -/
theorem after_buildNode_upholds {s : Site} (hs : s.Upholds first P) (bits : RandomBits) :
    After (buildNode bits) s
      (fun r s' => s'.Upholds first P ∧ first ≤ r.1 ∧ r.1 < s'.nodes.length)
      (fun _ s' => s'.Upholds first P) := by
  refine after_bind ((after_resolveUniqueId bits s).mono (fun id s₁ h₁ => ?_) fun _ s₁ h₁ => ?_)
  · have hs₁ : s₁.Upholds first P :=
      hs.of_nodes (congrArg Stack.nodes h₁.1.stack) (.inl (by rw [h₁.1.bridge]))
    refine after_bind (after_get (after_bind (after_hosted ((Host.nodes_createNode _ _).mono
      (fun i h₂ hmade => ?_) fun _ h₂ hnodes => hs₁.of_nodes hnodes (.inl rfl)))))
    obtain ⟨rfl, hnodes⟩ := hmade
    have hs₂ : Site.Upholds first P { s₁ with host := h₂ } :=
      hs₁.of_append (hP.fresh _) hnodes rfl
    have hfurnished {s₃ : Site} (h₃ : s₃.bridge = s₁.bridge ∧ s₃.nodes =
        h₂.stack.nodes.modify s₁.nodes.length (NodeOperation.addAggregator aggregatorId).apply) :
        s₃.Upholds first P :=
      hs₂.of_modify (hP.apply (.addAggregator aggregatorId) nofun) h₃.2 (by rw [h₃.1])
    refine after_furnish_or ((nodes_furnish _ id { s₁ with host := h₂ }).mono (fun _ s₃ h₃ => ?_)
      fun _ s₃ h₃ => upholds_abandon hP (hfurnished h₃) _)
    refine ⟨hfurnished h₃, hs₁.made, ?_⟩
    have hlength : s₃.nodes.length = s₁.nodes.length + 1 := by
      rw [h₃.2, List.length_modify, Site.nodes, hnodes, List.length_append]
      rfl
    exact hlength ▸ Nat.lt_succ_self _
  · exact hs.of_nodes (congrArg Stack.nodes h₁.stack) (.inl (by rw [h₁.bridge]))

theorem upholding_init (bits : RandomBits) : Upholding first P (init bits) := by
  refine fun s hs => after_bind (after_get ?_)
  cases s.bridge.node.isSome with
  | true => exact after_throw hs
  | false =>
      refine after_bind (after_logging ((after_buildNode_upholds hP hs bits).mono
        (fun r s₁ h₁ => ?_) fun _ s₁ h₁ => h₁.of_nodes rfl (.inl rfl)))
      obtain ⟨hs₁, hfirst, hlt⟩ := h₁
      exact after_update (hs₁.take hfirst hlt rfl rfl)

theorem upholding_close : Upholding first P close := by
  have hclose {s s' : Site} (hs : s.Upholds first P) (h : s'.bridge = s.bridge.forget ∧
      s'.nodes = match s.bridge.node with
        | none => s.nodes
        | some i => s.nodes.modify i NodeOperation.close.apply) : s'.Upholds first P := by
    obtain ⟨hb, hnodes⟩ := h
    have hnone : s'.bridge.node = none := by rw [hb, node_forget]
    cases hi : s.bridge.node with
    | none => exact hs.of_nodes (by rw [hnodes, hi]) (.inr hnone)
    | some i =>
        have hs' : Site.Upholds first P { s with host := s'.host } :=
          hs.of_modify (hP.apply .close nofun) (by rw [hi] at hnodes; exact hnodes) rfl
        exact hs'.of_nodes rfl (.inr hnone)
  exact fun s hs => (nodes_close s).mono (fun _ _ h => hclose hs h) fun _ _ h => hclose hs h

theorem upholding_startOver (bits : RandomBits) : Upholding first P (startOver bits) :=
  maintains_bind upholding_heldNode fun i =>
    maintains_bind (upholding_delegating hP _ i (o := .erase) nofun) fun _ =>
      maintains_bind (upholding_close hP) fun _ => maintains_bind maintains_get fun _ =>
        maintains_bind (upholding_storing _) fun _ => upholding_init hP bits

theorem upholding_renew (reset : Bool) (bits resetBits : RandomBits) :
    Upholding first P (renew reset bits resetBits) := by
  refine maintains_bind (upholding_close hP) fun _ =>
    maintains_bind (upholding_init hP bits) fun _ => ?_
  cases reset
  · exact maintains_pure _
  · exact upholding_startOver hP resetBits

theorem upholding_addEndpoint (deviceType : String) (id : EndpointId) (info : DeviceInfo)
    (attributes : List (String × Json.Value)) :
    Upholding first P (addEndpoint deviceType id info attributes) := by
  refine maintains_bind maintains_get fun s => ?_
  dsimp only
  cases s.bridge.devices.contains id with
  | true => exact maintains_throw _
  | false =>
      cases s.bridge.node with
      | none => exact maintains_throw _
      | some i =>
          cases DeviceType.parse deviceType with
          | error e => exact maintains_throw _
          | ok type =>
              exact maintains_bind (upholding_delegating hP _ i (o := .attach _) nofun) fun _ =>
                upholding_update fun _ => rfl

theorem upholding_setEndpointState (id : EndpointId) (cluster name : String)
    (value : Json.Value) : Upholding first P (setEndpointState id cluster name value) := by
  refine maintains_bind maintains_get fun s => ?_
  cases s.bridge.devices.get? id with
  | none => exact maintains_pure _
  | some d =>
      exact upholding_delegating hP _ d.node (o := .setState id.text cluster name value) nofun

theorem upholding_start (now : Int64) : Upholding first P (start now) := by
  have hrecord : Upholding first P (recordLastStart now) :=
    maintains_bind maintains_get fun _ => maintains_bind (upholding_storing _) fun _ =>
      keepStart_of upholding_storing (maintains_throw _) _ _
  refine maintains_bind maintains_get fun s => ?_
  cases s.bridge.devices.isEmpty with
  | true => exact maintains_throw _
  | false =>
      exact maintains_bind upholding_heldNode fun i =>
        maintains_bind (upholding_delegating hP _ i (o := .start) nofun) fun _ =>
          upholding_logging _ hrecord

theorem upholding_openWindow : Upholding first P openWindow := by
  refine maintains_bind upholding_heldNode fun i =>
    maintains_bind (upholding_delegating hP _ i (o := .openWindow) nofun) fun _ =>
      fun s hs => after_modify ?_
  dsimp only
  cases (s.host.stack.nodes[i]?).bind ServerNode.window with
  | none => exact hs
  | some k => exact hs.of_nodes rfl (.inl rfl)

theorem upholding_work (r : Request) : Upholding first P r.work := by
  cases r with
  | init bits => exact upholding_init hP bits
  | close => exact upholding_close hP
  | renew reset bits resetBits => exact upholding_renew hP reset bits resetBits
  | addEndpoint deviceType id info attributes =>
      exact upholding_addEndpoint hP deviceType id info attributes
  | setEndpointState id cluster name value =>
      exact upholding_setEndpointState hP id cluster name value
  | start now => exact upholding_start hP now
  | openWindow => exact upholding_openWindow hP
  | closeWindow =>
      exact maintains_bind upholding_heldNode fun i =>
        maintains_bind (upholding_delegating hP _ i (o := .endWindow) nofun) fun _ =>
          upholding_update fun b => node_markWindowClosed b.window.generation b
  | removeFabric index =>
      exact maintains_bind upholding_heldNode fun i =>
        upholding_delegating hP _ i (o := .removeFabric index) nofun

end

end Bridge

/-! ## Occurrences -/

namespace Site

variable {first : Nat} {P : ServerNode → Prop} {s : Site}

/-- An incident is an operation on a node, or concerns no node. -/
theorem Upholds.incident (h : s.Upholds first P) {i : Incident}
    (hi : ∀ node o, i.operation? = some (node, o) → ∀ n, P n → P (o.apply n)) :
    Leaves i.work s.host fun h' => Upholds first P { s with host := h' } := by
  cases i with
  | refuseNode text => exact after_modify (h.of_nodes rfl (.inl rfl))
  | closeNode node => exact h.operate (hi node _ rfl) node
  | eraseNode node => exact h.operate (hi node _ rfl) node
  | endWindow node => exact h.operate (hi node _ rfl) node
  | setCommissioned node commissioned => exact h.operate (hi node _ rfl) node
  | addFabric node f => exact h.operate (hi node _ rfl) node

theorem upholds_deliver (h : s.Upholds first P) (k : Nat) :
    (Bridge.deliver k s).Upholds first P := by
  unfold Bridge.deliver
  split
  · exact h
  · split
    · exact h.of_nodes rfl (.inl (Bridge.node_markWindowClosed ..))
    · exact h

/-- Whatever happens, it holds of all nodes as before, as far as what is done to them without the
bridge allows. -/
theorem Upholds.occur (hP : ServerNode.Lasts P) (h : s.Upholds first P) {o : Occurrence}
    (ho : ∀ p ∈ o.operation?, ∀ n, P n → P (p.apply n)) : (s.occur o).Upholds first P := by
  cases o with
  | make config =>
      have hmade : After (Host.createNode config) s.host
          (fun _ h' => Upholds first P { s with host := h' })
          (fun _ h' => Upholds first P { s with host := h' }) :=
        (Host.nodes_createNode config s.host).mono
          (fun _ _ hmade => h.of_append (hP.fresh config) hmade.2 rfl)
          fun _ _ hnodes => h.of_nodes hnodes (.inl rfl)
      exact hmade.stateAfter
  | operate node p => exact (h.operate (ho p rfl) node).stateAfter
  | act a =>
      cases a with
      | request r => exact (Bridge.upholding_work hP r s h).stateAfter
      | deliver k => exact upholds_deliver h k
      | outside t => exact h.of_nodes rfl (.inl rfl)
      | incident i =>
          refine (h.incident fun node p hp n hn => ho p ?_ n hn).stateAfter
          simp [Occurrence.operation?, hp]

theorem Upholds.undergo (hP : ServerNode.Lasts P) (h : s.Upholds first P) {os : List Occurrence}
    (hos : ∀ o ∈ os, ∀ p ∈ o.operation?, ∀ n, P n → P (p.apply n)) :
    (s.undergo os).Upholds first P := by
  induction os generalizing s with
  | nil => exact h
  | cons o os ih =>
      exact ih (h.occur hP (hos o List.mem_cons_self)) fun o' ho' =>
        hos o' (List.mem_cons_of_mem o ho')

/-- The node that a bridge holds is there, whatever has happened. -/
theorem exists_held_undergo (h : Host) (c : BridgeConfig) (os : List Occurrence) {i : Nat}
    (hi : (undergo ⟨h, { config := c }⟩ os).bridge.node = some i) :
    ∃ n, (undergo ⟨h, { config := c }⟩ os).nodes[i]? = some n := by
  have hP : ServerNode.Lasts fun _ => True := ⟨fun _ => trivial, fun _ _ _ _ => trivial⟩
  obtain ⟨n, hn, -⟩ := ((upholds_new h c).undergo hP fun _ _ _ _ _ _ => trivial).exists_held hi
  exact ⟨n, hn⟩

end Site

end DeviceBridge
