import DeviceBridge.Proofs.Bridge.Registry

/-!
# DeviceBridge.Proofs.Bridge.Invariant

What always holds of a bridge, whatever it is asked to do and whatever fails. A bridge without a
node has nothing else either; a bridge with one has that node's unique id, which is the one that is
kept, and its registry and the endpoints of the node have the same ids (`Site.Holds`). Every request
and every incident preserves this (`Site.Holds.work`, `Site.Holds.act`), and so does every run
(`Site.Holds.run`).
-/

namespace DeviceBridge

open Files (Tree Disk)

/-- The bridge, the node that it holds and the nodes that it made before, from a number on. -/
structure Site.Lifecycle (first : Nat) (s : Site) : Prop where
  made : first ≤ s.nodes.length
  idle : s.bridge.node = none →
    s.bridge.devices = [] ∧ s.bridge.uniqueId = none ∧ s.bridge.window.isOpen = false
  held : ∀ i, s.bridge.node = some i → first ≤ i ∧ ∃ n id, s.nodes[i]? = some n ∧
    s.bridge.uniqueId = some id ∧ n.config = Bridge.nodeConfig s.bridge id ∧
    n.endpointIds.Nodup ∧
    ∀ d : EndpointId, s.bridge.devices.contains d = true ↔ d.text ∈ n.endpointIds
  others : ∀ j n, first ≤ j → s.bridge.node ≠ some j → s.nodes[j]? = some n → n.closed = true

/-- The unique id of the bridge is the one that is kept. -/
def Site.Persists (s : Site) : Prop :=
  ∀ id, s.bridge.uniqueId = some id →
    s.bridge.appContext.Keeps s.tree Bridge.uniqueIdKey (.string id.text)

/-- What always holds of a bridge that alone writes its namespace. -/
structure Site.Holds (first : Nat) (s : Site) : Prop where
  lifecycle : s.Lifecycle first
  sound : s.tree.Sound
  whole : s.host.disk.RemovesWhole
  persists : s.Persists

theorem Files.Disk.RemovesWhole.of_faults {d d' : Disk} (h : d.RemovesWhole)
    (hf : d'.faults = d.faults) : d'.RemovesWhole := by
  unfold Disk.RemovesWhole
  rw [hf]
  exact h

namespace Site

variable {first : Nat} {s s' : Site}

/-! ## The bridge and its nodes -/

namespace Lifecycle

theorem minor (h : s.Lifecycle first) (hm : s.Minor s') : s'.Lifecycle first := by
  refine ⟨hm.continues.length ▸ h.made, fun hnode => ?_, fun i hi => ?_, fun j n hj hne hn => ?_⟩
  · rw [hm.node] at hnode
    obtain ⟨hdevices, hid, hopen⟩ := h.idle hnode
    refine ⟨hm.devices.trans hdevices, hm.uniqueId.trans hid, Bool.eq_false_iff.mpr fun ho => ?_⟩
    rw [hm.window hnode ho] at hopen
    contradiction
  · rw [hm.node] at hi
    obtain ⟨hfirst, m, id, hm', hid, hconfig, hnodup, hids⟩ := h.held i hi
    obtain ⟨n, hn, hcont⟩ := hm.continues.getElem? hm'
    have hconfig' : Bridge.nodeConfig s'.bridge id = Bridge.nodeConfig s.bridge id := by
      simp only [Bridge.nodeConfig, Bridge.storage, hm.config]
    refine ⟨hfirst, n, id, hn, hm.uniqueId.trans hid, ?_, ?_, ?_⟩
    · rw [hcont.config, hconfig, hconfig']
    · rw [hcont.endpointIds]
      exact hnodup
    · rw [hm.devices, hcont.endpointIds]
      exact hids
  · obtain ⟨m, hm', hcont⟩ := hm.continues.of_getElem? hn
    exact hcont.closed (h.others j m hj (hm.node ▸ hne) hm')

/-- The node that the bridge holds is there. -/
theorem getElem?_held (h : s.Lifecycle first) {i : Nat} (hi : s.bridge.node = some i) :
    ∃ n, s.nodes[i]? = some n := by
  obtain ⟨-, n, -, hn, -⟩ := h.held i hi
  exact ⟨n, hn⟩

/-- The bridge takes a new node. -/
theorem take (h : s.Lifecycle first) (hnode : s.bridge.node = none) {id : UniqueId}
    (hnodes : s'.nodes = s.nodes ++ [Bridge.freshNode s.bridge id])
    (hb : s'.bridge = { s.bridge with node := some s.nodes.length, uniqueId := some id }) :
    s'.Lifecycle first := by
  obtain ⟨hdevices, -, -⟩ := h.idle hnode
  refine ⟨?_, fun hnone => ?_, fun i hi => ?_, fun j n hj hne hn => ?_⟩
  · rw [hnodes, List.length_append]
    exact Nat.le_add_right_of_le h.made
  · rw [hb] at hnone
    contradiction
  · rw [hb] at hi
    obtain rfl := Option.some.inj hi
    refine ⟨h.made, Bridge.freshNode s.bridge id, id, ?_, by rw [hb], by rw [hb]; rfl,
      List.nodup_nil, fun d => ?_⟩
    · rw [hnodes]
      exact List.getElem?_concat_length
    · have hnone : s'.bridge.devices.contains d = false := by
        rw [hb]
        dsimp only
        rw [hdevices]
        rfl
      simp [hnone, Bridge.freshNode, ServerNode.endpointIds, Aggregator.endpointIds]
  · rw [hnodes] at hn
    rw [hb] at hne
    rcases Nat.lt_trichotomy j s.nodes.length with hlt | heq | hgt
    · rw [List.getElem?_append_left hlt] at hn
      exact h.others j n hj (by rw [hnode]; simp) hn
    · exact absurd (heq ▸ rfl) hne
    · rw [List.getElem?_eq_none (by simp; omega)] at hn
      contradiction

/-- A node that was made in vain is closed. -/
theorem strand (h : s.Lifecycle first) (hnode : s.bridge.node = none) {m : ServerNode}
    (hclosed : m.closed = true) (hnodes : s'.nodes = s.nodes ++ [m])
    (hb : s'.bridge = s.bridge) : s'.Lifecycle first := by
  refine ⟨?_, fun _ => hb ▸ h.idle hnode, fun i hi => ?_, fun j n hj hne hn => ?_⟩
  · rw [hnodes, List.length_append]
    exact Nat.le_add_right_of_le h.made
  · rw [hb, hnode] at hi
    contradiction
  · rw [hnodes] at hn
    rcases Nat.lt_trichotomy j s.nodes.length with hlt | heq | hgt
    · rw [List.getElem?_append_left hlt] at hn
      exact h.others j n hj (hb ▸ hne) hn
    · rw [heq, List.getElem?_concat_length] at hn
      exact Option.some.inj hn ▸ hclosed
    · rw [List.getElem?_eq_none (by simp; omega)] at hn
      contradiction

/-- The bridge lets its node go, which is closed. -/
theorem letGo (h : s.Lifecycle first) (hb : s'.bridge = s.bridge.forget)
    (hcont : NodesContinue s.nodes s'.nodes)
    (hclosed : ∀ i n, s.bridge.node = some i → s'.nodes[i]? = some n → n.closed = true) :
    s'.Lifecycle first := by
  refine ⟨hcont.length ▸ h.made, fun _ => ?_, fun i hi => ?_, fun j n hj _ hn => ?_⟩
  · rw [hb]
    exact ⟨Bridge.devices_forget _, Bridge.uniqueId_forget _, Bridge.isOpen_forget _⟩
  · rw [hb, Bridge.node_forget] at hi
    contradiction
  · by_cases hheld : s.bridge.node = some j
    · exact hclosed j n hheld hn
    · obtain ⟨m, hm, hmn⟩ := hcont.of_getElem? hn
      exact hmn.closed (h.others j m hj hheld hm)

/-- A device and its endpoint are added together. -/
theorem attach (h : s.Lifecycle first) {i : Nat} {m n : ServerNode} {id : EndpointId}
    {d : RegisteredDevice} (hi : s.bridge.node = some i) (hm : s.nodes[i]? = some m)
    (hnodes : s'.nodes = s.nodes.set i n) (hconfig : n.config = m.config)
    (hfree : id.text ∉ m.endpointIds)
    (hids : n.endpointIds = m.endpointIds ++ [id.text])
    (hb : s'.bridge = { s.bridge with devices := s.bridge.devices.insert id d }) :
    s'.Lifecycle first := by
  obtain ⟨hfirst, m', u, hm', hu, hconfig', hnodup, hsame⟩ := h.held i hi
  obtain rfl := Option.some.inj (hm.symm.trans hm')
  have hnode : s'.bridge.node = some i := by rw [hb, ← hi]
  refine ⟨?_, fun hnone => ?_, fun j hj => ?_, fun j l hj hne hl => ?_⟩
  · rw [hnodes, List.length_set]
    exact h.made
  · rw [hnode] at hnone
    contradiction
  · obtain rfl := Option.some.inj (hnode.symm.trans hj)
    refine ⟨hfirst, n, u, ?_, by rw [hb]; exact hu, ?_, ?_, fun e => ?_⟩
    · rw [hnodes, List.getElem?_set_self (List.getElem?_eq_some_iff.mp hm).1]
    · rw [hconfig, hconfig', hb]
      rfl
    · rw [hids, List.nodup_append]
      refine ⟨hnodup, by simp, fun t ht t' ht' heq => hfree ?_⟩
      rw [← List.mem_singleton.mp ht', ← heq]
      exact ht
    · have hdevices : s'.bridge.devices.contains e =
          (decide (e = id) || s.bridge.devices.contains e) := by
        rw [hb]
        exact Dictionary.contains_insert ..
      have htext : e = id ↔ e.text = id.text := by
        cases e
        cases id
        simp
      rw [hdevices, hids, List.mem_append, List.mem_singleton, ← htext, ← hsame e, or_comm]
      simp
  · have hji : j ≠ i := fun heq => hne (heq ▸ hnode)
    rw [hnodes, List.getElem?_set_ne (Ne.symm hji)] at hl
    refine h.others j l hj ?_ hl
    rw [hi]
    exact fun heq => hji (Option.some.inj heq).symm

end Lifecycle

/-! ## The unique id that is kept -/

namespace Holds

/-- What concerns neither the node nor the registry, and does not lose the unique id. -/
theorem minor (h : s.Holds first) (hm : s.Minor s') (hr : s.RetainsId s') : s'.Holds first := by
  refine ⟨h.lifecycle.minor hm, hr.steady.sound, h.whole.of_faults hr.steady.faults,
    fun id hid => ?_⟩
  rw [hr.appContext]
  exact hr.keeps id (h.persists id (hm.uniqueId ▸ hid))

/-- What leaves the disk as it is. -/
theorem minor_of_disk (h : s.Holds first) (hm : s.Minor s') (hd : s'.host.disk = s.host.disk) :
    s'.Holds first :=
  h.minor hm (.of_disk h.sound hd hm.config)

/-- Without a unique id there is nothing to keep. -/
theorem of_idle (h : s.Lifecycle first) (hs : s.tree.Sound) (hw : s.host.disk.RemovesWhole)
    (hnode : s.bridge.node = none) : s.Holds first := by
  refine ⟨h, hs, hw, fun id hid => ?_⟩
  rw [(h.idle hnode).2.1] at hid
  contradiction

/-- A bridge without a node does not mind what is written. -/
theorem withDisk (h : s.Holds first) (hnode : s.bridge.node = none) {d : Disk}
    (hf : d.faults = s.host.disk.faults) (hs : d.tree.Sound) :
    Holds first { s with host := { s.host with disk := d } } := by
  have hm : s.Minor { s with host := { s.host with disk := d } } := .of_bridge rfl (.refl _)
  exact .of_idle (h.lifecycle.minor hm) hs (h.whole.of_faults hf) hnode

/-! ## Requests -/

theorem init (h : s.Holds first) (bits : RandomBits) :
    Leaves (Bridge.init bits) s (Holds first) := by
  refine (Bridge.after_init h.sound bits).mono (fun _ s' h' => ?_) fun _ s' h' => ?_
  · obtain ⟨hnode, id, hmade, hb⟩ := h'
    have happ : s'.bridge.appContext = s.bridge.appContext := Bridge.appContext_congr (by rw [hb])
    have hid : s'.bridge.uniqueId = some id := by rw [hb]
    refine ⟨h.lifecycle.take hnode hmade.nodes hb, hmade.steady.sound,
      h.whole.of_faults hmade.steady.faults, fun id' hid' => ?_⟩
    obtain rfl := Option.some.inj (hid.symm.trans hid')
    rw [happ]
    exact hmade.keeps
  · obtain ⟨hb, hnot | ⟨hnode, id, hstranded⟩⟩ := h'
    · exact h.minor (hnot.minor hb) (hnot.retainsId hb)
    · obtain ⟨n, -, hclosed, hnodes⟩ := hstranded.nodes
      exact .of_idle (h.lifecycle.strand hnode hclosed hnodes hb) hstranded.steady.sound
        (h.whole.of_faults hstranded.steady.faults) (hb ▸ hnode)

/-- Closing never fails, as the node is there. -/
theorem close (h : s.Lifecycle first) (hs : s.tree.Sound) (hw : s.host.disk.RemovesWhole) :
    After Bridge.close s
      (fun _ s' => s'.Holds first ∧ s'.bridge.node = none ∧ s'.host.disk = s.host.disk ∧
        s'.bridge.config = s.bridge.config)
      (fun _ _ => False) := by
  refine (Bridge.after_close s).mono (fun _ s' h' => ?_) fun _ s' h' => ?_
  · obtain ⟨hb, hd, hcont, hclosed⟩ := h'
    have ht : s'.tree = s.tree := congrArg Disk.tree hd
    have hnode : s'.bridge.node = none := by rw [hb, Bridge.node_forget]
    exact ⟨.of_idle (h.letGo hb hcont hclosed) (ht ▸ hs) (hw.of_faults (by rw [hd])) hnode, hnode,
      hd, by rw [hb, Bridge.config_forget]⟩
  · obtain ⟨-, -, -, i, hi, hnone⟩ := h'
    obtain ⟨n, hn⟩ := h.getElem?_held hi
    rw [hn] at hnone
    contradiction

/-- Erasing takes all documents of the namespace with it. If it fails, nothing is lost. -/
theorem erase (h : s.Holds first) {i : Nat} (hi : s.bridge.node = some i) :
    After (Bridge.delegating "initializeBridge" (Host.eraseNode i)) s
      (fun _ s' => s.Minor s' ∧ s.Steady s' ∧
        ∀ c : Context, c.space = s.bridge.storage → c.text? s'.tree = none)
      (fun _ s' => s.Minor s' ∧ s.RetainsId s') := by
  obtain ⟨-, n, id, hn, hid, hconfig, -⟩ := h.lifecycle.held i hi
  obtain ⟨entries, hread, -⟩ := h.persists id hid
  have hspace : n.config.storage = s.bridge.appContext.space := by rw [hconfig]; rfl
  have herase := Namespace.after_erase h.sound h.whole hread
  rw [← hspace] at herase
  have hminor (s' : Site) (hb : s'.bridge = s.bridge)
      (hnodes : s'.nodes = s.nodes.modify i ServerNode.stopErased) : s.Minor s' :=
    .of_bridge hb (hnodes ▸ .modify ServerNode.continues_stopErased i s.nodes)
  refine Bridge.after_delegating ((Bridge.after_eraseNode hn herase).mono
    (fun _ h₁ hdone => ?_) fun _ h₁ hfailed => ?_)
  · obtain ⟨hnodes, hf, hsound, hgone⟩ := hdone
    exact ⟨hminor _ rfl hnodes, ⟨hf, hsound⟩, fun c hc => hgone c (hc.trans hspace.symm)⟩
  · obtain ⟨hnodes, hf, ht⟩ := hfailed
    exact ⟨hminor _ rfl hnodes, .of_tree h.sound hf ht rfl⟩

theorem startOver (h : s.Holds first) (bits : RandomBits) :
    Leaves (Bridge.startOver bits) s (Holds first) := by
  refine after_bind (Bridge.after_heldNode (fun i hi => ?_) fun _ => h)
  refine after_bind ((h.erase hi).mono (fun _ s₁ h₁ => ?_) fun _ s₁ h₁ => h.minor h₁.1 h₁.2)
  -- The unique id is gone, and the node is let go before anything else.
  obtain ⟨hm, hsteady, -⟩ := h₁
  refine after_bind ((close (h.lifecycle.minor hm) hsteady.sound
    (h.whole.of_faults hsteady.faults)).mono (fun _ s₂ h₂ => ?_) fun _ _ hfalse => hfalse.elim)
  obtain ⟨h₂, hnode, -, -⟩ := h₂
  exact after_bind (after_get (after_bind (Bridge.after_storing
    ((Context.after_set h₂.sound _ _ _).mono
      (fun _ d hset => (h₂.withDisk hnode hset.1 hset.2.1).init bits)
      fun _ d hset => h₂.withDisk hnode hset.1 hset.2.1))))

theorem renew (h : s.Holds first) (reset : Bool) (bits resetBits : RandomBits) :
    Leaves (Bridge.renew reset bits resetBits) s (Holds first) := by
  refine after_bind ((close h.lifecycle h.sound h.whole).mono (fun _ s₁ h₁ => ?_)
    fun _ _ hfalse => hfalse.elim)
  refine after_bind ((init h₁.1 bits).mono (fun _ s₂ h₂ => ?_) fun _ _ h₂ => h₂)
  cases reset
  · exact after_pure h₂
  · exact startOver h₂ resetBits

theorem addEndpoint (h : s.Holds first) (deviceType : String) (id : EndpointId)
    (info : DeviceInfo) (attributes : List (String × Json.Value)) :
    Leaves (Bridge.addEndpoint deviceType id info attributes) s (Holds first) := by
  refine (Bridge.after_addEndpoint deviceType id info attributes).mono (fun _ s' h' => ?_)
    fun _ s' h' => ?_
  · obtain ⟨hd, i, m, n, d, hi, hm, hnodes, hconfig, -, hfree, hids, hb⟩ := h'
    have hr := RetainsId.of_disk h.sound hd (by rw [hb])
    refine ⟨h.lifecycle.attach hi hm hnodes hconfig hfree hids hb, hr.steady.sound,
      h.whole.of_faults hr.steady.faults, fun u hu => ?_⟩
    rw [hb] at hu
    rw [hr.appContext]
    exact hr.keeps u (h.persists u hu)
  · obtain ⟨hd, hnodes, hb, -⟩ := h'
    exact h.minor_of_disk (.of_bridge hb (hnodes ▸ .refl _)) hd

/-- Every request keeps what holds, whether it succeeds or fails. -/
theorem work (h : s.Holds first) (r : Request) : Leaves r.work s (Holds first) := by
  have hdisk {x : Bridging Unit}
      (hx : Leaves x s fun s' => s.Minor s' ∧ s'.host.disk = s.host.disk) :
      Leaves x s (Holds first) :=
    hx.mono (fun _ _ h' => h.minor_of_disk h'.1 h'.2) fun _ _ h' => h.minor_of_disk h'.1 h'.2
  cases r with
  | init bits => exact h.init bits
  | close =>
      exact (close h.lifecycle h.sound h.whole).mono (fun _ _ h' => h'.1)
        fun _ _ hfalse => hfalse.elim
  | renew reset bits resetBits => exact h.renew reset bits resetBits
  | addEndpoint deviceType id info attributes =>
      exact h.addEndpoint deviceType id info attributes
  | setEndpointState id cluster name value => exact hdisk (Bridge.after_setEndpointState ..)
  | start now =>
      exact (Bridge.after_start h.sound now).mono
        (fun _ _ h' => h.minor h'.1 h'.2.1) fun _ _ h' => h.minor h'.1 h'.2.1
  | openWindow => exact hdisk Bridge.after_openWindow_minor
  | closeWindow => exact hdisk Bridge.after_closeWindow
  | removeFabric index => exact hdisk (Bridge.after_removeFabric index)

end Holds

/-! ## Steps and runs -/

/-- Without the bridge the stack erases nothing, and nobody else writes a document of the bridge's
namespace. -/
def SoleWriter (s : Site) : Action → Prop
  | .outside t => t.Sound ∧ s.bridge.storage.Untouched s.tree t
  | .incident (.eraseNode _) => False
  | _ => True

theorem SoleWriter.ne_eraseNode {i : Incident} (h : s.SoleWriter (.incident i)) (node : Nat) :
    i ≠ .eraseNode node := by
  rintro rfl
  exact h

theorem minor_deliver (s : Site) (k : Nat) :
    s.Minor (Bridge.deliver k s) ∧ (Bridge.deliver k s).host = s.host := by
  unfold Bridge.deliver
  split
  · exact ⟨.refl s, rfl⟩
  · split
    · exact ⟨⟨.refl _, Bridge.config_markWindowClosed .., Bridge.node_markWindowClosed ..,
        Bridge.devices_markWindowClosed .., Bridge.uniqueId_markWindowClosed ..,
        fun _ => Bridge.isOpen_of_markWindowClosed _
          { s.bridge with listeners := s.bridge.listeners.eraseIdx k }⟩, rfl⟩
    · exact ⟨.refl s, rfl⟩

/-- An incident that erases nothing leaves the disk, and no node forgets anything. -/
theorem leaves_incident (h : Host) {i : Incident} (hi : ∀ node, i ≠ .eraseNode node) :
    Leaves i.work h
      (fun h' => h'.disk = h.disk ∧ NodesContinue h.stack.nodes h'.stack.nodes) := by
  have hnode (node : Nat) {f : ServerNode → Except StackError ServerNode}
      (hf : ∀ m n, f m = .ok n → m.Continues n) :
      Leaves (Host.changing (·.onNode node f)) h
        (fun h' => h'.disk = h.disk ∧ NodesContinue h.stack.nodes h'.stack.nodes) := by
    refine Host.after_changing (fun st hst => ?_) fun _ _ => ⟨rfl, .refl _⟩
    obtain ⟨m, n, hm, hn, rfl⟩ := Stack.onNode_eq_ok_iff.mp hst
    exact ⟨rfl, .set hm (hf m n hn)⟩
  cases i with
  | refuseNode text => exact after_modify ⟨rfl, .refl _⟩
  | closeNode node => exact hnode node fun m n hn => (ServerNode.continues_close hn).1
  | eraseNode node => exact absurd rfl (hi node)
  | endWindow node =>
      exact hnode node fun m n hn => Except.ok.inj hn ▸ ServerNode.continues_endWindow m
  | setCommissioned node commissioned =>
      exact hnode node fun m n hn => Except.ok.inj hn ▸ ⟨rfl, rfl, id⟩
  | addFabric node f => exact hnode node fun m n hn => Except.ok.inj hn ▸ ⟨rfl, rfl, id⟩

/-- Every step keeps what holds, as long as the bridge alone writes its namespace. -/
theorem Holds.act (h : s.Holds first) {a : Action} (ha : s.SoleWriter a) :
    (s.act a).Holds first := by
  cases a with
  | request r => exact (h.work r).stateAfter
  | deliver k =>
      obtain ⟨hm, hh⟩ := minor_deliver s k
      exact h.minor_of_disk hm (congrArg Host.disk hh)
  | incident i =>
      obtain ⟨hd, hcont⟩ := (leaves_incident s.host ha.ne_eraseNode).stateAfter
      exact h.minor_of_disk (.of_bridge rfl hcont) hd
  | outside t =>
      exact h.minor (.of_bridge rfl (.refl _))
        ⟨⟨rfl, ha.1⟩, rfl, fun _ hk => (ha.2 _ rfl).keeps hk⟩

/-- Every run keeps what holds. -/
theorem Holds.run (h : s.Holds first) {as : List Action} (hsole : s.Admits SoleWriter as) :
    (s.run as).Holds first := by
  have hstep (s : Site) (a : Action) (ha : s.SoleWriter a) (hs : s.Holds first) :
      (s.act a).Holds first := hs.act ha
  exact hsole.preserves hstep h

theorem holds_new {h : Host} (hs : h.disk.tree.Sound) (hw : h.disk.RemovesWhole)
    (c : BridgeConfig) : Holds h.stack.nodes.length ⟨h, { config := c }⟩ := by
  refine .of_idle ⟨Nat.le_refl _, fun _ => ⟨rfl, rfl, rfl⟩, fun i hi => ?_, fun j n hj _ hn => ?_⟩
    hs hw rfl
  · contradiction
  · rw [List.getElem?_eq_none hj] at hn
    contradiction

/-- What the unique id is read back as is the unique id. -/
theorem Holds.eq_of_get? (h : s.Holds first) {id : UniqueId} (hid : s.bridge.uniqueId = some id)
    {r : Option UniqueId}
    (hr : Bridge.storing (s.bridge.appContext.get? UniqueId Bridge.uniqueIdKey) s = .ok r s') :
    r = some id := by
  obtain ⟨-, entries, hshow, hget⟩ := (Bridge.after_get? _ _).of_ok hr
  rw [(h.persists id hid).get?_eq hshow, Json.Value.reread_string] at hget
  obtain ⟨id', hid', rfl⟩ := hget
  exact congrArg some (Except.ok.inj hid').symm

/-- What always holds of a bridge that alone writes its namespace, on a disk that may fail in any
way but by breaking off a removal, after whatever run from its making on: (a) without a node it has
no devices, no unique id and no open window; (b) with one, its unique id is that of the node and the
one that is kept, and its devices have the ids of the endpoints of the node, each of which is
attached once; (c) every other node that it made is closed. So the stack never refuses an endpoint
as attached already, and where there are devices there is a node. -/
theorem lifecycle_run (h : Host) (c : BridgeConfig) (as : List Action)
    (hsound : h.disk.tree.Sound) (hwhole : h.disk.RemovesWhole)
    (hsole : Admits SoleWriter ⟨h, { config := c }⟩ as) :
    let s : Site := run ⟨h, { config := c }⟩ as
    (s.bridge.node = none →
        s.bridge.devices = [] ∧ s.bridge.uniqueId = none ∧ s.bridge.window.isOpen = false) ∧
      (∀ i, s.bridge.node = some i → ∃ n id, s.nodes[i]? = some n ∧
        s.bridge.uniqueId = some id ∧ n.config.basicInformation.uniqueId = id.text ∧
        s.bridge.appContext.Keeps s.tree Bridge.uniqueIdKey (.string id.text) ∧
        (∀ r s', Bridge.storing (s.bridge.appContext.get? UniqueId Bridge.uniqueIdKey) s =
          .ok r s' → r = some id) ∧
        (∀ d : EndpointId, s.bridge.devices.contains d = true ↔ d.text ∈ n.endpointIds) ∧
        n.endpointIds.Nodup) ∧
      (∀ j n, h.stack.nodes.length ≤ j → s.bridge.node ≠ some j → s.nodes[j]? = some n →
        n.closed = true) ∧
      (∀ deviceType id info attributes t s',
        Bridge.addEndpoint deviceType id info attributes s ≠
          .error (.stack (.endpointExists t)) s') ∧
      (s.bridge.devices ≠ [] → ∃ i, s.bridge.node = some i) := by
  intro s
  have hs : s.Holds h.stack.nodes.length := (holds_new hsound hwhole c).run hsole
  refine ⟨hs.lifecycle.idle, fun i hi => ?_, fun j n hj hne hn => hs.lifecycle.others j n hj hne hn,
    fun deviceType id info attributes t s' hx => ?_, fun hdevices => ?_⟩
  · obtain ⟨-, n, id, hn, hid, hconfig, hnodup, hids⟩ := hs.lifecycle.held i hi
    exact ⟨n, id, hn, hid, by rw [hconfig]; rfl, hs.persists id hid,
      fun r s' hr => hs.eq_of_get? hid hr, hids, hnodup⟩
  · obtain ⟨-, -, -, hrefused⟩ := (Bridge.after_addEndpoint _ _ _ _).of_error hx
    obtain ⟨i, n, hi, hn, hnew, hmem⟩ := hrefused t rfl
    obtain ⟨-, n', u, hn', -, -, -, hids⟩ := hs.lifecycle.held i hi
    obtain rfl := Option.some.inj (hn.symm.trans hn')
    rw [(hids id).mpr hmem] at hnew
    contradiction
  · cases hnode : s.bridge.node with
    | some i => exact ⟨i, rfl⟩
    | none => exact absurd (hs.lifecycle.idle hnode).1 hdevices

/-- A bridge makes a node, and the stack closes it. -/
def closedBelow : List Action := [.request (.init ⟨0, 0⟩), .incident (.closeNode 0)]

/-- The bridge holds the closed node all the same, under the id that it keeps. -/
theorem lifecycle_run_closedBelow :
    let s : Site := run ⟨{}, { config := { storagePath := ⟨"s"⟩ } }⟩ closedBelow
    Admits SoleWriter ⟨{}, { config := { storagePath := ⟨"s"⟩ } }⟩ closedBelow ∧
      s.bridge.node = some 0 ∧ ∃ n id, s.nodes[0]? = some n ∧ s.bridge.uniqueId = some id ∧
        n.config.basicInformation.uniqueId = id.text ∧
        s.bridge.appContext.Keeps s.tree Bridge.uniqueIdKey (.string id.text) := by
  have hwhole : Disk.RemovesWhole {} := fun k f hf => nomatch hf
  have hsole : Admits SoleWriter ⟨{}, { config := { storagePath := ⟨"s"⟩ } }⟩ closedBelow :=
    ⟨trivial, trivial, trivial⟩
  have hnode : (run ⟨{}, { config := { storagePath := ⟨"s"⟩ } }⟩ closedBelow).bridge.node =
      some 0 := by decide +kernel
  obtain ⟨-, hheld, -⟩ := lifecycle_run {} _ closedBelow Tree.sound_nil hwhole hsole
  obtain ⟨n, id, hn, hid, hconfig, hkeeps, -⟩ := hheld 0 hnode
  exact ⟨hsole, hnode, n, id, hn, hid, hconfig, hkeeps⟩

end Site

end DeviceBridge
