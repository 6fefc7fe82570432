import DeviceBridge.Bridge.Lifecycle
import DeviceBridge.Proofs.Bridge.Run
import DeviceBridge.Proofs.Bridge.Site
import DeviceBridge.Proofs.Stack.ServerNode
import DeviceBridge.Proofs.Storage.Context

/-!
# DeviceBridge.Proofs.Bridge.Lifecycle

What making a node and closing it do to the bridge, to the nodes and to the documents. There are
three ways in which making a node can end (`Bridge.after_init`): the node is made and its unique id
is kept; no node is made and no document touched; or the node is made, and with it the mark of the
stack, but the unique id is not kept. Under which id a node is made is decided by what the documents
show at that moment (`Bridge.Resolves`).
-/

namespace DeviceBridge

open Json (Value)
open Files (Tree Disk)

/-- The faults to come are the same, and the files are as they can be. -/
structure Site.Steady (s s' : Site) : Prop where
  faults : s'.host.disk.faults = s.host.disk.faults
  sound : s'.tree.Sound

theorem Site.Steady.refl {s : Site} (hs : s.tree.Sound) : s.Steady s := ⟨rfl, hs⟩

theorem Site.Steady.trans {s s' s'' : Site} (h : s.Steady s') (h' : s'.Steady s'') : s.Steady s'' :=
  ⟨h'.faults.trans h.faults, h'.sound⟩

namespace Bridge

/-! ## The unique id -/

/-- Under which id a bridge makes a node when the documents are as they are in a tree. -/
inductive Resolves (b : Bridge) (t : Tree) (bits : RandomBits) : UniqueId → Prop
  /-- An id is kept. -/
  | kept {entries : Json.Object} {v : Value} {id : UniqueId}
      (happ : b.appContext.Shows t entries) (hv : entries.get? uniqueIdKey = some v)
      (hid : Json.decodeValue v = .ok id) : Resolves b t bits id
  /-- No id is kept, but the stack has left its mark, and no start was recorded. -/
  | legacy {entries marks : Json.Object}
      (happ : b.appContext.Shows t entries) (hv : entries.get? uniqueIdKey = none)
      (hroot : b.rootContext.Shows t marks) (hmark : marks.contains Stack.rootNumberKey = true)
      (hstart : entries.contains lastStartKey = false) : Resolves b t bits .legacy
  /-- No id is kept, and nothing speaks for a bridge from before ids were kept. -/
  | random {entries marks : Json.Object}
      (happ : b.appContext.Shows t entries) (hv : entries.get? uniqueIdKey = none)
      (hroot : b.rootContext.Shows t marks)
      (hnew : marks.contains Stack.rootNumberKey = false ∨ entries.contains lastStartKey = true) :
      Resolves b t bits (.random bits)

/-- A site of which nothing but the disk has been looked at. -/
structure Looked (s s' : Site) : Prop where
  bridge : s'.bridge = s.bridge
  stack : s'.host.stack = s.host.stack
  faults : s'.host.disk.faults = s.host.disk.faults
  tree : s'.tree = s.tree

theorem Looked.trans {s s' s'' : Site} (h : Looked s s') (h' : Looked s' s'') : Looked s s'' :=
  ⟨h'.bridge.trans h.bridge, h'.stack.trans h.stack, h'.faults.trans h.faults,
    h'.tree.trans h.tree⟩

variable {s : Site}

theorem after_has (c : Context) (key : String) :
    After (storing (c.has key)) s
      (fun b s' => Looked s s' ∧ ∃ entries, c.Shows s.tree entries ∧ b = entries.contains key)
      (fun _ s' => Looked s s') :=
  after_storing ((Context.after_has c key).mono
    (fun _ _ h => ⟨⟨rfl, rfl, h.1, h.2.1⟩, h.2.2⟩) fun _ _ h => ⟨rfl, rfl, h.1, h.2⟩)

theorem after_get? {α : Type} [Json.Codec α] (c : Context) (key : String) :
    After (storing (c.get? α key)) s
      (fun r s' => Looked s s' ∧ ∃ entries, c.Shows s.tree entries ∧
        match entries.get? key with
        | some v => ∃ a, Json.decodeValue v = .ok a ∧ r = some a
        | none => r = none)
      (fun _ s' => Looked s s') :=
  after_storing ((Context.after_get? c key).mono
    (fun _ _ h => ⟨⟨rfl, rfl, h.1, h.2.1⟩, h.2.2⟩) fun _ _ h => ⟨rfl, rfl, h.1, h.2⟩)

/-- The mark without a recorded start is what tells a bridge from before ids were kept. -/
theorem after_isLegacy (s : Site) :
    After isLegacy s
      (fun b s' => Looked s s' ∧ ∃ marks, s.bridge.rootContext.Shows s.tree marks ∧
        (marks.contains Stack.rootNumberKey = false ∧ b = false ∨
          marks.contains Stack.rootNumberKey = true ∧
            ∃ entries, s.bridge.appContext.Shows s.tree entries ∧
              b = !entries.contains lastStartKey))
      (fun _ s' => Looked s s') := by
  refine after_bind (after_get (after_bind ((after_has _ _).imp fun marked s₁ h₁ => ?_)))
  obtain ⟨hl₁, marks, hroot, rfl⟩ := h₁
  cases hmark : marks.contains Stack.rootNumberKey with
  | false => exact after_pure ⟨hl₁, marks, hroot, .inl ⟨hmark, rfl⟩⟩
  | true =>
      refine after_bind ((after_has _ _).mono (fun started s₂ h₂ => ?_) fun _ _ h => hl₁.trans h)
      obtain ⟨hl₂, entries, happ, rfl⟩ := h₂
      exact after_pure ⟨hl₁.trans hl₂, marks, hroot,
        .inr ⟨hmark, entries, hl₁.tree ▸ happ, rfl⟩⟩

theorem after_resolveUniqueId (bits : RandomBits) (s : Site) :
    After (resolveUniqueId bits) s
      (fun id s' => Looked s s' ∧ s.bridge.Resolves s.tree bits id)
      (fun _ s' => Looked s s') := by
  refine after_bind (after_get (after_bind ((after_get? _ _).imp fun r s₁ h₁ => ?_)))
  obtain ⟨hl₁, entries, happ, hr⟩ := h₁
  cases hv : entries.get? uniqueIdKey with
  | some v =>
      rw [hv] at hr
      obtain ⟨id, hid, rfl⟩ := hr
      exact after_pure ⟨hl₁, .kept happ hv hid⟩
  | none =>
      rw [hv] at hr
      obtain rfl := hr
      refine after_bind ((after_isLegacy s₁).mono (fun b s₂ h₂ => ?_) fun _ _ h => hl₁.trans h)
      obtain ⟨hl₂, marks, hroot, hb⟩ := h₂
      rw [hl₁.bridge, hl₁.tree] at hroot hb
      obtain ⟨hmark, rfl⟩ | ⟨hmark, entries', happ', rfl⟩ := hb
      · exact after_pure ⟨hl₁.trans hl₂, .random happ hv hroot (.inl hmark)⟩
      · obtain rfl := happ.unique happ'
        cases hstart : entries.contains lastStartKey with
        | false => exact after_pure ⟨hl₁.trans hl₂, .legacy happ hv hroot hmark hstart⟩
        | true => exact after_pure ⟨hl₁.trans hl₂, .random happ hv hroot (.inr hstart)⟩

/-! ## Making a node -/

/-- The node that a bridge makes. -/
def freshNode (b : Bridge) (id : UniqueId) : ServerNode :=
  { config := nodeConfig b id, aggregator := some { id := aggregatorId } }

/-- What the stack leaves in the namespace of every node that it makes. -/
def mark : Value := .number (.integer (.ofUInt64 0))

/-- A node has been made and furnished, and its unique id is kept. -/
structure Made (bits : RandomBits) (id : UniqueId) (s s' : Site) : Prop where
  steady : s.Steady s'
  resolves : s.bridge.Resolves s.tree bits id
  nodes : s'.nodes = s.nodes ++ [freshNode s.bridge id]
  keeps : s.bridge.appContext.Keeps s'.tree uniqueIdKey (.string id.text)

/-- No node has been made and no document touched. -/
structure NotMade (s s' : Site) : Prop where
  steady : s.Steady s'
  nodes : s'.nodes = s.nodes
  untouched : s.bridge.storage.Untouched s.tree s'.tree

/-- A node has been made, and with it the mark of the stack, but it was closed again, as its unique
id could not be kept. -/
structure Stranded (bits : RandomBits) (id : UniqueId) (s s' : Site) : Prop where
  steady : s.Steady s'
  resolves : s.bridge.Resolves s.tree bits id
  nodes : ∃ n : ServerNode, n.config = nodeConfig s.bridge id ∧ n.closed = true ∧
    s'.nodes = s.nodes ++ [n]
  marked : s.bridge.rootContext.Keeps s'.tree Stack.rootNumberKey mark
  untouched : s.bridge.appContext.Untouched s.tree s'.tree

theorem appContext_ne_rootContext (b : Bridge) : b.appContext ≠ b.rootContext := fun h => by
  have hname := congrArg (fun c => c.name.text) h
  have hne : "bridge" ≠ "root" := by decide
  exact hne hname

theorem after_createNode {h : Host} (hs : h.disk.tree.Sound) (config : ServerNodeConfig) :
    After (Host.createNode config) h
      (fun i h' => i = h.stack.nodes.length ∧
        h'.stack.nodes = h.stack.nodes ++ [{ config := config }] ∧
        h'.disk.faults = h.disk.faults ∧ h'.disk.tree.Sound ∧
        Context.SparesOthers ⟨config.storage, Stack.rootContext⟩ h.disk.tree h'.disk.tree ∧
        Context.Keeps ⟨config.storage, Stack.rootContext⟩ h'.disk.tree Stack.rootNumberKey mark)
      (fun _ h' => h'.stack.nodes = h.stack.nodes ∧ h'.disk.faults = h.disk.faults ∧
        h'.disk.tree.Sound ∧ config.storage.Untouched h.disk.tree h'.disk.tree) := by
  refine after_bind (after_get ?_)
  dsimp only
  cases h.stack.createFailure with
  | some text =>
      exact after_bind (after_modify (after_throw ⟨rfl, rfl, hs, Namespace.untouched_of_eq rfl⟩))
  | none =>
      refine after_bind (Host.after_storing ((Context.after_set hs _ _ _).mono
        (fun _ d h₁ => ?_) fun _ d h₁ => ⟨rfl, h₁⟩))
      obtain ⟨hf, hs₁, hother, entries, hshow, hread⟩ := h₁
      exact after_bind (after_modify (after_pure
        ⟨rfl, rfl, hf, hs₁, hother, Context.keeps_of_set hshow hread⟩))

theorem after_furnish (hs : s.tree.Sound) {i : Nat} {n : ServerNode} (hn : s.nodes[i]? = some n)
    (hc : n.closed = false) (ha : n.aggregator = none) (id : UniqueId) :
    After (furnish i id) s
      (fun _ s' => s.Steady s' ∧ s'.bridge = s.bridge ∧
        s'.nodes = s.nodes.set i { n with aggregator := some { id := aggregatorId } } ∧
        s.bridge.appContext.Keeps s'.tree uniqueIdKey (.string id.text))
      (fun _ s' => s.Steady s' ∧ s'.bridge = s.bridge ∧
        s'.nodes = s.nodes.set i { n with aggregator := some { id := aggregatorId } } ∧
        s.bridge.storage.Untouched s.tree s'.tree) := by
  have hadd : n.addAggregator aggregatorId =
      .ok { n with aggregator := some { id := aggregatorId } } := by
    unfold ServerNode.addAggregator
    rw [if_neg (by simp [hc]), ha]
  have hon : s.host.stack.onNode i (·.addAggregator aggregatorId) = .ok { s.host.stack with
      nodes := s.nodes.set i { n with aggregator := some { id := aggregatorId } } } :=
    Stack.onNode_eq_ok_iff.mpr ⟨n, _, hn, hadd, rfl⟩
  refine after_bind (after_hosted (Host.after_changing (fun st hst => ?_) fun e he => ?_))
  · rw [hon] at hst
    obtain rfl := Except.ok.inj hst
    refine after_bind (after_get (after_storing ((Context.after_set hs _ _ _).mono
      (fun _ d h₁ => ?_) fun _ d h₁ => ?_)))
    · obtain ⟨hf, hs₁, -, entries, hshow, hread⟩ := h₁
      exact ⟨⟨hf, hs₁⟩, rfl, rfl, Context.keeps_of_set hshow hread⟩
    · exact ⟨⟨h₁.1, h₁.2.1⟩, rfl, rfl, h₁.2.2⟩
  · rw [hon] at he
    contradiction

/-- A node that is abandoned is closed. -/
theorem nodes_abandon {i : Nat} {n : ServerNode} (hn : s.nodes[i]? = some n) :
    ∃ n', n.Continues n' ∧ n'.closed = true ∧ (abandon i s).nodes = s.nodes.set i n' := by
  have hclose : Leaves (Host.changing (·.onNode i ServerNode.close)) s.host fun h =>
      ∃ n', n.Continues n' ∧ n'.closed = true ∧ h.stack.nodes = s.nodes.set i n' := by
    refine Host.after_changing (fun st hst => ?_) fun e he => ?_
    · obtain ⟨m, n', hm, hn', rfl⟩ := Stack.onNode_eq_ok_iff.mp hst
      obtain rfl := Option.some.inj (hn.symm.trans hm)
      obtain ⟨hcont, hclosed⟩ := ServerNode.continues_close hn'
      exact ⟨n', hcont, hclosed, rfl⟩
    · rcases Stack.onNode_eq_error_iff.mp he with ⟨hnone, -⟩ | ⟨m, hm, he⟩
      · rw [hn] at hnone
        contradiction
      · obtain rfl := Option.some.inj (hn.symm.trans hm)
        obtain ⟨hi, hget⟩ := List.getElem?_eq_some_iff.mp hn
        refine ⟨n, .refl n, (ServerNode.closed_of_close_eq_error he).1, ?_⟩
        rw [← hget, List.set_getElem_self]
  rw [abandon_eq_stateAfter]
  exact hclose.stateAfter

/-- A node that cannot be furnished is closed. -/
theorem after_furnish_or_abandon (hs : s.tree.Sound) {i : Nat} {n : ServerNode}
    (hn : s.nodes[i]? = some n) (hc : n.closed = false) (ha : n.aggregator = none)
    (id : UniqueId) :
    After (fun s =>
        match furnish i id s with
        | .ok _ s => .ok (i, id) s
        | .error e s => .error e (abandon i s)) s
      (fun r s' => r = (i, id) ∧ s.Steady s' ∧ s'.bridge = s.bridge ∧
        s'.nodes = s.nodes.set i { n with aggregator := some { id := aggregatorId } } ∧
        s.bridge.appContext.Keeps s'.tree uniqueIdKey (.string id.text))
      (fun _ s' => s.Steady s' ∧ s'.bridge = s.bridge ∧
        (∃ n' : ServerNode, n'.config = n.config ∧ n'.closed = true ∧
          s'.nodes = s.nodes.set i n') ∧
        s.bridge.storage.Untouched s.tree s'.tree) := by
  refine after_furnish_or ((after_furnish hs hn hc ha id).mono (fun _ s' h => ⟨rfl, h⟩)
    fun _ s' h => ?_)
  obtain ⟨hsteady, hb, hnodes, hu⟩ := h
  have hn' : s'.nodes[i]? = some { n with aggregator := some { id := aggregatorId } } := by
    rw [hnodes, List.getElem?_set_self (List.getElem?_eq_some_iff.mp hn).1]
  obtain ⟨m, hcont, hclosed, hnodes'⟩ := nodes_abandon hn'
  have htree : (abandon i s').tree = s'.tree := congrArg Disk.tree disk_abandon
  refine ⟨⟨(congrArg Disk.faults disk_abandon).trans hsteady.faults, htree ▸ hsteady.sound⟩,
    bridge_abandon.trans hb, ⟨m, hcont.config, hclosed, ?_⟩, htree ▸ hu⟩
  rw [hnodes', hnodes, List.set_set]

/-- How making a node can end. -/
theorem after_buildNode (hs : s.tree.Sound) (bits : RandomBits) :
    After (buildNode bits) s
      (fun r s' => s'.bridge = s.bridge ∧ r.1 = s.nodes.length ∧ Made bits r.2 s s')
      (fun _ s' => s'.bridge = s.bridge ∧ (NotMade s s' ∨ ∃ id, Stranded bits id s s')) := by
  refine after_bind ((after_resolveUniqueId bits s).mono (fun id s₁ h₁ => ?_) fun _ s₁ h₁ => ?_)
  · obtain ⟨⟨hb₁, hst₁, hf₁, ht₁⟩, hres⟩ := h₁
    have hs₁ : s₁.tree.Sound := ht₁ ▸ hs
    change s₁.host.disk.tree = s.host.disk.tree at ht₁
    refine after_bind (after_get (after_bind (after_hosted ((after_createNode hs₁ _).mono
      (fun i h₂ hmade => ?_) fun _ h₂ hfailed => ?_))))
    · obtain ⟨rfl, hn₂, hf₂, hs₂, hother, hmark⟩ := hmade
      rw [hb₁, hst₁] at hn₂
      rw [hb₁, ht₁] at hother
      rw [hb₁] at hmark
      rw [hst₁]
      have hlast : h₂.stack.nodes[s.nodes.length]? =
          some { config := nodeConfig s.bridge id } := by
        rw [hn₂]
        exact List.getElem?_concat_length
      have hset (n : ServerNode) : h₂.stack.nodes.set s.nodes.length n = s.nodes ++ [n] := by
        rw [hn₂, List.set_append_right _ _ (Nat.le_refl _), Nat.sub_self]
        rfl
      refine (after_furnish_or_abandon (s := { s₁ with host := h₂ }) hs₂ hlast rfl rfl id).mono
        (fun r s₃ h₃ => ?_) fun _ s₃ h₃ => ?_
      · obtain ⟨rfl, ⟨hf₃, hs₃⟩, hb₃, hn₃, hk₃⟩ := h₃
        refine ⟨hb₃.trans hb₁, rfl, ⟨(hf₃.trans hf₂).trans hf₁, hs₃⟩, hres, ?_, hb₁ ▸ hk₃⟩
        exact hn₃.trans (hset _)
      · obtain ⟨⟨hf₃, hs₃⟩, hb₃, ⟨n', hconfig, hclosed, hn₃⟩, hu₃⟩ := h₃
        have hu : s.bridge.storage.Untouched h₂.disk.tree s₃.tree := hb₁ ▸ hu₃
        refine ⟨hb₃.trans hb₁, .inr ⟨id, ⟨(hf₃.trans hf₂).trans hf₁, hs₃⟩, hres,
          ⟨n', hconfig, hclosed, hn₃.trans (hset _)⟩, ?_, ?_⟩⟩
        · exact (hu s.bridge.rootContext rfl).keeps hmark
        · exact (hother s.bridge.appContext rfl (appContext_ne_rootContext s.bridge)).trans
            (hu s.bridge.appContext rfl)
    · obtain ⟨hn₂, hf₂, hs₂, hu₂⟩ := hfailed
      rw [hst₁] at hn₂
      rw [hb₁, ht₁] at hu₂
      exact ⟨hb₁, .inl ⟨⟨hf₂.trans hf₁, hs₂⟩, hn₂, hu₂⟩⟩
  · exact ⟨h₁.bridge, .inl ⟨⟨h₁.faults, h₁.tree ▸ hs⟩, by rw [Site.nodes, h₁.stack],
      Namespace.untouched_of_eq h₁.tree⟩⟩

/-- A bridge makes a node only if it holds none. -/
theorem after_init (hs : s.tree.Sound) (bits : RandomBits) :
    After (init bits) s
      (fun _ s' => s.bridge.node = none ∧ ∃ id, Made bits id s s' ∧
        s'.bridge = { s.bridge with node := some s.nodes.length, uniqueId := some id })
      (fun _ s' => s'.bridge = s.bridge ∧
        (NotMade s s' ∨ s.bridge.node = none ∧ ∃ id, Stranded bits id s s')) := by
  refine after_bind (after_get ?_)
  cases hnode : s.bridge.node with
  | some i =>
      exact after_throw ⟨rfl, .inl ⟨.refl hs, rfl, Namespace.untouched_of_eq rfl⟩⟩
  | none =>
      refine after_bind (after_logging ((after_buildNode hs bits).mono
        (fun r s₁ h₁ => ?_) fun _ s₁ h₁ => ?_))
      · obtain ⟨hb, hr, ⟨hf, hs₁⟩, hres, hnodes, hkeeps⟩ := h₁
        refine after_update ⟨rfl, r.2, ⟨⟨hf, hs₁⟩, hres, hnodes, hkeeps⟩, ?_⟩
        rw [hb, hr]
      · obtain ⟨hb, ⟨⟨hf, hs₁⟩, hnodes, hu⟩ | ⟨id, ⟨hf, hs₁⟩, hres, hnodes, hmark, hu⟩⟩ := h₁
        · exact ⟨hb, .inl ⟨⟨hf, hs₁⟩, hnodes, hu⟩⟩
        · exact ⟨hb, .inr ⟨rfl, id, ⟨hf, hs₁⟩, hres, hnodes, hmark, hu⟩⟩

/-! ## Closing -/

@[simp] theorem config_forget (b : Bridge) : b.forget.config = b.config :=
  config_markWindowClosed ..

@[simp] theorem node_forget (b : Bridge) : b.forget.node = none := node_markWindowClosed ..

@[simp] theorem devices_forget (b : Bridge) : b.forget.devices = [] :=
  devices_markWindowClosed ..

@[simp] theorem uniqueId_forget (b : Bridge) : b.forget.uniqueId = none :=
  uniqueId_markWindowClosed ..

@[simp] theorem listeners_forget (b : Bridge) : b.forget.listeners = b.listeners :=
  listeners_markWindowClosed ..

@[simp] theorem generation_forget (b : Bridge) :
    b.forget.window.generation = b.window.generation := generation_markWindowClosed ..

@[simp] theorem isOpen_forget (b : Bridge) : b.forget.window.isOpen = false :=
  isOpen_markWindowClosed_self { b with node := none, devices := [], uniqueId := none }

/-- The node that the bridge held is closed, if it was there. -/
theorem after_close (s : Site) :
    After close s
      (fun _ s' => s'.bridge = s.bridge.forget ∧ s'.host.disk = s.host.disk ∧
        NodesContinue s.nodes s'.nodes ∧
        ∀ i n, s.bridge.node = some i → s'.nodes[i]? = some n → n.closed = true)
      (fun _ s' => s'.bridge = s.bridge.forget ∧ s'.host.disk = s.host.disk ∧
        s'.nodes = s.nodes ∧ ∃ i, s.bridge.node = some i ∧ s.nodes[i]? = none) := by
  unfold After close
  dsimp only
  cases hi : s.bridge.node with
  | none => exact ⟨rfl, rfl, .refl _, fun i n h => by contradiction⟩
  | some i =>
      unfold Host.changing
      dsimp only
      cases hc : s.host.stack.onNode i ServerNode.close with
      | ok st =>
          obtain ⟨n, n', hn, hclose, rfl⟩ := Stack.onNode_eq_ok_iff.mp hc
          obtain ⟨hcont, hclosed⟩ := ServerNode.continues_close hclose
          refine ⟨rfl, rfl, .set hn hcont, fun j m hj hm => ?_⟩
          obtain rfl := Option.some.inj hj
          change (s.nodes.set i n')[i]? = some m at hm
          rw [List.getElem?_set_self (List.getElem?_eq_some_iff.mp hn).1] at hm
          exact Option.some.inj hm ▸ hclosed
      | error e =>
          rcases Stack.onNode_eq_error_iff.mp hc with ⟨hnone, rfl⟩ | ⟨n, hn, hclose⟩
          · exact ⟨rfl, rfl, rfl, i, rfl, hnone⟩
          · obtain ⟨hclosed, rfl⟩ := ServerNode.closed_of_close_eq_error hclose
            refine ⟨rfl, rfl, .refl _, fun j m hj hm => ?_⟩
            obtain rfl := Option.some.inj hj
            exact Option.some.inj (hn.symm.trans hm) ▸ hclosed

/-! ## Erasing -/

/-- A node whose data are erased is stopped for good, whether or not erasing succeeds. -/
theorem after_eraseNode {h : Host} {i : Nat} {n : ServerNode} (hn : h.stack.nodes[i]? = some n)
    {done failed : Disk → Prop}
    (hdone : After n.config.storage.erase h.disk (fun _ => done) fun _ => failed) :
    After (Host.eraseNode i) h
      (fun _ h' => h'.stack.nodes = h.stack.nodes.modify i ServerNode.stopErased ∧ done h'.disk)
      (fun _ h' => h'.stack.nodes = h.stack.nodes.modify i ServerNode.stopErased ∧
        failed h'.disk) := by
  refine after_bind (after_get ?_)
  rw [hn]
  exact after_bind (after_modify (Host.after_storing (hdone.mono (fun _ _ hd => ⟨rfl, hd⟩)
    fun _ _ hd => ⟨rfl, hd⟩)))

end Bridge

end DeviceBridge
