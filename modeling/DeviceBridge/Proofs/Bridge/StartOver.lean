import DeviceBridge.Proofs.Bridge.Legacy
import DeviceBridge.Proofs.Storage.Place

/-!
# DeviceBridge.Proofs.Bridge.StartOver

Starting over leaves nothing of what was. Making a node writes two documents, the mark of the stack
and the unique id, each beside whatever its context held (`Bridge.Recorded`); once the namespace has
been erased there is nothing to stand beside, so the two hold nothing else (`Bridge.Afresh`). This
is so wherever starting over succeeds, on any disk and after any run (`Site.starts_over`), as the
bridge and its nodes are always in order (`Site.Orderly`), also after removals that were broken off
and with others writing to the namespace.
-/

namespace DeviceBridge

open Json (Value Object)
open Files

/-! ## What making a node writes -/

namespace Bridge

variable {b : Bridge} {s : Site} {id : UniqueId} {t t' : Tree}

/-- The mark of the stack has been set in what its document showed, and then the unique id in what
the document of the bridge showed. -/
def Recorded (b : Bridge) (id : UniqueId) (t t' : Tree) : Prop :=
  ∃ marks entries t₁, b.rootContext.Shows t marks ∧
    b.rootContext.Written (marks.insert Stack.rootNumberKey mark) t t₁ ∧
    b.appContext.Untouched t t₁ ∧ b.appContext.Shows t₁ entries ∧
    b.appContext.Written (entries.insert uniqueIdKey (.string id.text)) t₁ t'

theorem after_createNode_written {h : Host} (hs : h.disk.tree.Sound) (config : ServerNodeConfig) :
    After (Host.createNode config) h
      (fun _ h' => ∃ marks, Context.Shows ⟨config.storage, Stack.rootContext⟩ h.disk.tree marks ∧
        Context.Written ⟨config.storage, Stack.rootContext⟩
          (marks.insert Stack.rootNumberKey mark) h.disk.tree h'.disk.tree ∧
        Context.SparesOthers ⟨config.storage, Stack.rootContext⟩ h.disk.tree h'.disk.tree)
      (fun _ _ => True) := by
  refine after_bind (after_get ?_)
  dsimp only
  cases h.stack.createFailure with
  | some text => exact after_bind (after_modify (after_throw trivial))
  | none =>
      refine after_bind (Host.after_storing (((Context.after_set hs _ _ _).and
        (Context.after_set_written hs _ _ _)).mono (fun _ d h₁ => ?_) fun _ _ _ => trivial))
      obtain ⟨⟨-, -, hother, -⟩, marks, hshow, hwritten⟩ := h₁
      exact after_bind (after_modify (after_pure ⟨marks, hshow, hwritten, hother⟩))

theorem after_furnish_written (hs : s.tree.Sound) (node : Nat) (id : UniqueId) :
    After (furnish node id) s
      (fun _ s' => ∃ entries, s.bridge.appContext.Shows s.tree entries ∧
        s.bridge.appContext.Written (entries.insert uniqueIdKey (.string id.text)) s.tree s'.tree)
      (fun _ _ => True) :=
  after_bind (after_hosted (Host.after_changing
    (fun _ _ => after_bind (after_get (after_storing (Context.after_set_written hs _ _ _))))
    fun _ _ => trivial))

theorem after_buildNode_recorded (hs : s.tree.Sound) (bits : RandomBits) :
    After (buildNode bits) s (fun r s' => s.bridge.Recorded r.2 s.tree s'.tree)
      (fun _ _ => True) := by
  refine after_bind ((after_resolveUniqueId bits s).mono (fun id s₁ h₁ => ?_) fun _ _ _ => trivial)
  obtain ⟨⟨hb₁, -, -, ht₁⟩, -⟩ := h₁
  rw [← ht₁] at hs ⊢
  rw [← hb₁]
  refine after_bind (after_get (after_bind (after_hosted ((after_createNode_written hs _).mono
    (fun i h₂ hmarked => ?_) fun _ _ _ => trivial))))
  obtain ⟨marks, hshow, hwritten, hother⟩ := hmarked
  refine after_furnish_or ((after_furnish_written (s := { s₁ with host := h₂ }) hwritten.sound
    i id).mono (fun _ s₃ h₃ => ?_) fun _ _ _ => trivial)
  obtain ⟨entries, hshow', hwritten'⟩ := h₃
  exact ⟨marks, entries, _, hshow, hwritten,
    hother s₁.bridge.appContext rfl (appContext_ne_rootContext _), hshow', hwritten'⟩

theorem after_init_recorded (hs : s.tree.Sound) (bits : RandomBits) :
    After (init bits) s
      (fun _ s' => ∃ id, s'.bridge.uniqueId = some id ∧ s.bridge.Recorded id s.tree s'.tree)
      (fun _ _ => True) := by
  refine after_bind (after_get ?_)
  cases s.bridge.node with
  | some i => exact after_throw trivial
  | none =>
      refine after_bind (after_logging ((after_buildNode_recorded hs bits).mono
        (fun r s₁ h₁ => ?_) fun _ _ _ => trivial))
      exact after_update ⟨r.2, rfl, h₁⟩

/-- Outside of the namespace, making a node leaves nothing but directories on the way. -/
theorem Recorded.outside (h : b.Recorded id t t') {l : Location} (hl : ¬ b.storage.home <+: l) :
    t'.entry? l = if l ∈ b.storage.dir.way then some .directory else t.entry? l := by
  obtain ⟨marks, entries, t₁, -, hroot, -, -, happ⟩ := h
  have h₁ : t₁.entry? l = if l ∈ b.storage.dir.way then some .directory else t.entry? l :=
    hroot.outside hl
  have h₂ : t'.entry? l = if l ∈ b.storage.dir.way then some .directory else t₁.entry? l :=
    happ.outside hl
  rw [h₂, h₁]
  split <;> rfl

theorem Recorded.clear (h : b.Recorded id t t') :
    ∀ l ∈ b.storage.dir.way, ∀ c, t.entry? l ≠ some (.file c) := by
  obtain ⟨marks, entries, t₁, -, hroot, -⟩ := h
  exact hroot.clear

/-! ## What starting over leaves -/

/-- The document of a bridge that has nothing but a unique id. -/
def idDocument (id : UniqueId) : Object := [(uniqueIdKey, .string id.text)]

/-- The document of a node that has nothing but the mark of the stack. -/
def markDocument : Object := [(Stack.rootNumberKey, mark)]

/-- The namespace holds two documents, one with the unique id and one with the mark of the stack,
and nothing else than directories on the way to it; outside nothing has changed but that directories
on the way have been made. -/
structure Afresh (b : Bridge) (id : UniqueId) (t t' : Tree) : Prop where
  /-- Outside there is no file on the way. -/
  clear : ∀ l ∈ b.storage.dir.way, ¬ b.storage.home <+: l → ∀ c, t.entry? l ≠ some (.file c)
  place : ∀ l, t'.entry? l =
    if l = b.appContext.path.location then
      some (.file (.text (Value.object (idDocument id)).pretty))
    else if l = b.rootContext.path.location then
      some (.file (.text (Value.object markDocument).pretty))
    else if l ∈ b.storage.dir.way then some .directory
    else if b.storage.home <+: l then none
    else t.entry? l

/-- A unique id that is set in an erased namespace, followed by a node that is made under it, leaves
the two documents. -/
theorem afresh_of_recorded {t₁ t₂ t₃ : Tree} {entries : Object}
    (herased : ∀ l, t₁.entry? l = if b.storage.home <+: l then none else t.entry? l)
    (hshow : b.appContext.Shows t₁ entries)
    (hset : b.appContext.Written (entries.insert uniqueIdKey (.string id.text)) t₁ t₂)
    (hread : t₂.read b.appContext.path =
      .ok (Value.object (entries.insert uniqueIdKey (.string id.text))).pretty)
    (hrecorded : b.Recorded id t₂ t₃) : b.Afresh id t t₃ := by
  have hpath : b.storage.home <+: b.appContext.path.location := b.appContext.home_isPrefix_path
  have hdraft : b.storage.home <+: b.appContext.draft.location :=
    b.appContext.home_isPrefix_draft
  have hmark : b.storage.home <+: b.rootContext.path.location := b.rootContext.home_isPrefix_path
  have hmarkDraft : b.storage.home <+: b.rootContext.draft.location :=
    b.rootContext.home_isPrefix_draft
  have hne : b.rootContext.path.location ≠ b.appContext.path.location :=
    Context.path_ne_path rfl (appContext_ne_rootContext b).symm
  have hneDraft : b.rootContext.path.location ≠ b.appContext.draft.location :=
    Context.path_ne_draft _ _
  have hnone {l : Location} (hl : b.storage.home <+: l) : t₁.entry? l = none := by
    rw [herased, if_pos hl]
  obtain rfl := hshow.eq_nil fun x => by
    rw [hnone hpath]
    exact nofun
  obtain ⟨marks, kept, t₁', hmarks, hroot, huntouched, hkept, happ⟩ := hrecorded
  -- Nothing has been written where the mark belongs.
  obtain rfl := hmarks.eq_nil fun x => by
    rw [hset.place, if_neg hne, if_neg hneDraft, hnone hmark]
    split <;> exact nofun
  have hplain : (Value.object (idDocument id)).Plain Json.nestingLimit :=
    ⟨by decide, List.pairwise_singleton _ _, trivial, trivial⟩
  obtain rfl := hkept.unique (.inr ⟨_, huntouched.read _ hread,
    Json.readValue_pretty_of_plain hplain⟩)
  -- The id that is set again was there already.
  have htwice : (Dictionary.insert [] uniqueIdKey (Value.string id.text)).insert uniqueIdKey
      (.string id.text) = idDocument id := if_pos rfl
  rw [htwice] at happ
  refine ⟨fun l hl hout c => ?_, fun l => ?_⟩
  · have hclear := hset.clear l hl c
    rwa [herased, if_neg hout] at hclear
  · have hid : t₂.entry? l = if l = b.appContext.path.location then
          some (.file (.text (Value.object (idDocument id)).pretty))
        else if l = b.appContext.draft.location then none
        else if l ∈ b.storage.dir.way then some .directory else t₁.entry? l := hset.place l
    have hmarked : t₁'.entry? l = if l = b.rootContext.path.location then
          some (.file (.text (Value.object markDocument).pretty))
        else if l = b.rootContext.draft.location then none
        else if l ∈ b.storage.dir.way then some .directory else t₂.entry? l := hroot.place l
    have hagain : t₃.entry? l = if l = b.appContext.path.location then
          some (.file (.text (Value.object (idDocument id)).pretty))
        else if l = b.appContext.draft.location then none
        else if l ∈ b.storage.dir.way then some .directory else t₁'.entry? l := happ.place l
    have hpathAway : b.rootContext.path.location ∉ b.storage.dir.way := hroot.path_not_mem_way
    have hdraftAway : b.appContext.draft.location ∉ b.storage.dir.way := happ.draft_not_mem_way
    have herased := herased l
    grind

/-- What a node that was made before has written does not matter. -/
theorem Afresh.of_recorded {id' : UniqueId} {t₁ : Tree} (h : b.Afresh id t₁ t')
    (hr : b.Recorded id' t t₁) : b.Afresh id t t' := by
  refine ⟨fun l hl _ => hr.clear l hl, fun l => ?_⟩
  rw [h.place]
  by_cases hw : l ∈ b.storage.dir.way
  · rw [if_pos hw, if_pos hw]
  by_cases hh : b.storage.home <+: l
  · rw [if_pos hh, if_pos hh]
  · rw [if_neg hh, if_neg hh, hr.outside hh, if_neg hw]

theorem Afresh.congr {b' : Bridge} (h : b.Afresh id t t') (hb : b'.storage = b.storage) :
    b'.Afresh id t t' := by
  obtain ⟨hclear, hplace⟩ := h
  unfold appContext rootContext at hplace
  rw [← hb] at hclear hplace
  exact ⟨hclear, hplace⟩

end Bridge

/-! ## A bridge in order -/

/-- The bridge and its nodes are in order, and the files are as they can be, whoever wrote them. -/
structure Site.Orderly (first : Nat) (s : Site) : Prop where
  lifecycle : s.Lifecycle first
  sound : s.tree.Sound

namespace Site.Orderly

variable {first : Nat} {s s' : Site}

theorem minor (h : s.Orderly first) (hm : s.Minor s') (hs : s'.tree.Sound) : s'.Orderly first :=
  ⟨h.lifecycle.minor hm, hs⟩

theorem minor_of_disk (h : s.Orderly first) (hm : s.Minor s')
    (hd : s'.host.disk = s.host.disk) : s'.Orderly first :=
  have ht : s'.tree = s.tree := congrArg Disk.tree hd
  h.minor hm (ht ▸ h.sound)

/-- What is written on the disk does not concern the nodes. -/
theorem withDisk (h : s.Orderly first) {d : Disk} (hs : d.tree.Sound) :
    Orderly first { s with host := { s.host with disk := d } } :=
  h.minor (.of_bridge rfl (.refl _)) hs

theorem init (h : s.Orderly first) (bits : RandomBits) :
    Leaves (Bridge.init bits) s (Orderly first) := by
  refine (Bridge.after_init h.sound bits).mono (fun _ s' h' => ?_) fun _ s' h' => ?_
  · obtain ⟨hnode, id, hmade, hb⟩ := h'
    exact ⟨h.lifecycle.take hnode hmade.nodes hb, hmade.steady.sound⟩
  · obtain ⟨hb, hnot | ⟨hnode, id, hstranded⟩⟩ := h'
    · exact h.minor (hnot.minor hb) hnot.steady.sound
    · obtain ⟨n, -, hclosed, hnodes⟩ := hstranded.nodes
      exact ⟨h.lifecycle.strand hnode hclosed hnodes hb, hstranded.steady.sound⟩

theorem close (h : s.Orderly first) :
    Attains Bridge.close s (fun _ s' => s'.Orderly first ∧ s'.bridge = s.bridge.forget ∧
      s'.tree = s.tree) := by
  refine (Bridge.after_close s).mono (fun _ s' h' => ?_) fun _ s' h' => ?_
  · obtain ⟨hb, hd, hcont, hclosed⟩ := h'
    have ht : s'.tree = s.tree := congrArg Disk.tree hd
    exact ⟨⟨h.lifecycle.letGo hb hcont hclosed, ht ▸ h.sound⟩, hb, ht⟩
  · obtain ⟨-, -, -, i, hi, hnone⟩ := h'
    obtain ⟨n, hn⟩ := h.lifecycle.getElem?_held hi
    exact absurd (hn.symm.trans hnone) (by simp)

end Site.Orderly

/-- Erasing the data of a node stops the node and leaves files as they can be. -/
theorem Host.leaves_eraseNode {h : Host} (hs : h.disk.tree.Sound) (i : Nat) :
    Leaves (Host.eraseNode i) h
      (fun h' => NodesContinue h.stack.nodes h'.stack.nodes ∧ h'.disk.tree.Sound) := by
  cases hn : h.stack.nodes[i]? with
  | none =>
      refine after_bind (after_get ?_)
      rw [hn]
      exact after_throw ⟨.refl _, hs⟩
  | some n =>
      have hmodify : NodesContinue h.stack.nodes
          (h.stack.nodes.modify i ServerNode.stopErased) :=
        .modify ServerNode.continues_stopErased i _
      have herase := n.config.storage.leaves_erase_sound hs
      refine (Bridge.after_eraseNode hn herase).mono (fun _ h' hdone => ?_) fun _ h' hfailed => ?_
      · exact ⟨hdone.1 ▸ hmodify, hdone.2⟩
      · exact ⟨hfailed.1 ▸ hmodify, hfailed.2⟩

namespace Site.Orderly

variable {first : Nat} {s s' : Site}

theorem eraseNode (h : s.Orderly first) (operation : String) (i : Nat) :
    Leaves (Bridge.delegating operation (Host.eraseNode i)) s
      (fun s' => s.Minor s' ∧ s'.Orderly first) :=
  Bridge.after_delegating ((Host.leaves_eraseNode h.sound i).mono
    (fun _ _ h' => ⟨.of_bridge rfl h'.1, h.minor (.of_bridge rfl h'.1) h'.2⟩)
    fun _ _ h' => ⟨.of_bridge rfl h'.1, h.minor (.of_bridge rfl h'.1) h'.2⟩)

theorem startOver (h : s.Orderly first) (bits : RandomBits) :
    Leaves (Bridge.startOver bits) s (Orderly first) := by
  refine after_bind (Bridge.after_heldNode (fun i _ => ?_) fun _ => h)
  refine after_bind ((h.eraseNode _ i).mono (fun _ s₁ h₁ => ?_) fun _ _ h₁ => h₁.2)
  refine after_bind (h₁.2.close.mono (fun _ s₂ h₂ => ?_) fun _ _ => False.elim)
  exact after_bind (after_get (after_bind (Bridge.after_storing
    ((Context.after_set h₂.1.sound _ _ _).mono
      (fun _ d hset => (h₂.1.withDisk hset.2.1).init bits)
      fun _ d hset => h₂.1.withDisk hset.2.1))))

theorem renew (h : s.Orderly first) (reset : Bool) (bits resetBits : RandomBits) :
    Leaves (Bridge.renew reset bits resetBits) s (Orderly first) := by
  refine after_bind (h.close.mono (fun _ s₁ h₁ => ?_) fun _ _ => False.elim)
  refine after_bind ((h₁.1.init bits).mono (fun _ s₂ h₂ => ?_) fun _ _ h₂ => h₂)
  cases reset
  · exact after_pure h₂
  · exact h₂.startOver resetBits

/-- Every request keeps the order, whether it succeeds or fails. -/
theorem work (h : s.Orderly first) (r : Request) : Leaves r.work s (Orderly first) := by
  have hdisk {x : Bridging Unit}
      (hx : Leaves x s fun s' => s.Minor s' ∧ s'.host.disk = s.host.disk) :
      Leaves x s (Orderly first) :=
    hx.mono (fun _ _ h' => h.minor_of_disk h'.1 h'.2) fun _ _ h' => h.minor_of_disk h'.1 h'.2
  cases r with
  | init bits => exact h.init bits
  | close => exact h.close.mono (fun _ _ h' => h'.1) fun _ _ => False.elim
  | renew reset bits resetBits => exact h.renew reset bits resetBits
  | addEndpoint deviceType id info attributes =>
      refine (Bridge.after_addEndpoint deviceType id info attributes).mono (fun _ s' h' => ?_)
        fun _ s' h' => ?_
      · obtain ⟨hd, i, m, n, d, hi, hm, hnodes, hconfig, -, hfree, hids, hb⟩ := h'
        have ht : s'.tree = s.tree := congrArg Disk.tree hd
        exact ⟨h.lifecycle.attach hi hm hnodes hconfig hfree hids hb, ht ▸ h.sound⟩
      · obtain ⟨hd, hnodes, hb, -⟩ := h'
        exact h.minor_of_disk (.of_bridge hb (hnodes ▸ .refl _)) hd
  | setEndpointState id cluster name value => exact hdisk (Bridge.after_setEndpointState ..)
  | start now =>
      exact (Bridge.after_start h.sound now).mono
        (fun _ _ h' => h.minor h'.1 h'.2.1.steady.sound)
        fun _ _ h' => h.minor h'.1 h'.2.1.steady.sound
  | openWindow => exact hdisk Bridge.after_openWindow_minor
  | closeWindow => exact hdisk Bridge.after_closeWindow
  | removeFabric index => exact hdisk (Bridge.after_removeFabric index)

end Site.Orderly

namespace Site

variable {first : Nat} {s : Site}

/-- What others leave is a tree as it can be. -/
def Tidy : Action → Prop
  | .outside t => t.Sound
  | _ => True

theorem Orderly.act (h : s.Orderly first) {a : Action} (ha : Tidy a) : (s.act a).Orderly first := by
  cases a with
  | request r => exact (h.work r).stateAfter
  | deliver k =>
      obtain ⟨hm, hh⟩ := minor_deliver s k
      exact h.minor_of_disk hm (congrArg Host.disk hh)
  | outside t => exact h.withDisk ha
  | incident i =>
      by_cases hi : ∃ node, i = .eraseNode node
      · obtain ⟨node, rfl⟩ := hi
        obtain ⟨hcont, hs⟩ := (Host.leaves_eraseNode h.sound node).stateAfter
        exact h.minor (.of_bridge rfl hcont) hs
      · obtain ⟨hd, hcont⟩ := (leaves_incident s.host fun node heq => hi ⟨node, heq⟩).stateAfter
        exact h.minor_of_disk (.of_bridge rfl hcont) hd

theorem Orderly.run (h : s.Orderly first) {as : List Action}
    (htidy : ∀ a ∈ as, Tidy a) : (s.run as).Orderly first := by
  induction as generalizing s with
  | nil => exact h
  | cons a as ih =>
      exact ih (h.act (htidy a List.mem_cons_self)) fun b hb => htidy b (List.mem_cons_of_mem a hb)

theorem orderly_new {h : Host} (hs : h.disk.tree.Sound) (c : BridgeConfig) :
    Orderly h.stack.nodes.length ⟨h, { config := c }⟩ := by
  refine ⟨⟨Nat.le_refl _, fun _ => ⟨rfl, rfl, rfl⟩, fun i hi => ?_, fun j n hj _ hn => ?_⟩, hs⟩
  · contradiction
  · rw [List.getElem?_eq_none hj] at hn
    contradiction

/-! ## Starting over -/

/-- The bridge holds a new node, made from a configuration under an id, and nothing else. -/
structure StartsAnew (c : BridgeConfig) (id : UniqueId) (s : Site) : Prop where
  uniqueId : s.bridge.uniqueId = some id
  devices : s.bridge.devices = []
  closed : s.bridge.window.isOpen = false
  node : ∃ i, s.bridge.node = some i ∧ s.nodes[i]? = some (Bridge.freshNode { config := c } id)

/-- Erasing the data of the node that the bridge holds empties the namespace, where a document has
been read. -/
theorem Orderly.erase_place (h : s.Orderly first) {i : Nat} (hi : s.bridge.node = some i)
    {text : String} (hread : s.tree.read s.bridge.appContext.path = .ok text) (operation : String) :
    After (Bridge.delegating operation (Host.eraseNode i)) s
      (fun _ s' => s'.bridge = s.bridge ∧ ∀ l, s'.tree.entry? l =
        if s.bridge.storage.home <+: l then none else s.tree.entry? l)
      (fun _ _ => True) := by
  obtain ⟨-, n, id, hn, -, hconfig, -⟩ := h.lifecycle.held i hi
  have hstorage : n.config.storage = s.bridge.storage := by rw [hconfig]; rfl
  have herase : After n.config.storage.erase s.host.disk
      (fun _ d => ∀ l, d.tree.entry? l =
        if s.bridge.storage.home <+: l then none else s.tree.entry? l) (fun _ _ => True) :=
    (Namespace.after_erase_place h.sound _).mono (fun _ d h' => by
      rw [hstorage] at h'
      exact h'.2 s.bridge.appContext text rfl hread) fun _ _ _ => trivial
  exact Bridge.after_delegating ((Bridge.after_eraseNode hn herase).mono
    (fun _ _ h' => ⟨rfl, h'.2⟩) fun _ _ _ => trivial)

/-- Starting over leaves nothing of what was. -/
theorem Orderly.startOver_afresh (h : s.Orderly first) {text : String}
    (hread : s.tree.read s.bridge.appContext.path = .ok text) (bits : RandomBits) :
    After (Bridge.startOver bits) s
      (fun _ s' => s.bridge.Afresh (.random bits) s.tree s'.tree ∧
        s'.StartsAnew s.bridge.config (.random bits))
      (fun _ _ => True) := by
  refine after_bind (Bridge.after_heldNode (fun i hi => ?_) fun _ => trivial)
  refine after_bind (((h.erase_place hi hread _).and (h.eraseNode _ i)).mono
    (fun _ s₁ h₁ => ?_) fun _ _ _ => trivial)
  obtain ⟨⟨hb₁, hplace⟩, -, h₁⟩ := h₁
  refine after_bind (h₁.close.mono (fun _ s₂ h₂ => ?_) fun _ _ => False.elim)
  obtain ⟨h₂, hb₂, ht₂⟩ := h₂
  rw [← ht₂] at hplace
  have hconfig : s₂.bridge.config = s.bridge.config := by
    rw [hb₂, Bridge.config_forget, hb₁]
  have hstorage := Bridge.storage_congr hconfig
  have hset := (Context.after_set h₂.sound s₂.bridge.appContext Bridge.uniqueIdKey
    (.string (UniqueId.random bits).text)).and (Context.after_set_written h₂.sound _ _ _)
  refine after_bind (after_get (after_bind (Bridge.after_storing
    (hset.mono (fun _ d hset => ?_) fun _ _ _ => trivial))))
  obtain ⟨⟨-, hs₃, -, entries, hshow, hread₃⟩, entries', hshow', hwritten⟩ := hset
  obtain rfl := hshow.unique hshow'
  have h₃ := h₂.withDisk hs₃
  refine ((Bridge.after_init hs₃ bits).and (Bridge.after_init_recorded hs₃ bits)).mono
    (fun _ s₄ h₄ => ?_) fun _ _ _ => trivial
  obtain ⟨⟨hnode, id, hmade, hb₄⟩, id', hid', hrecorded⟩ := h₄
  -- The unique id that was just set is the one under which the node is made.
  obtain rfl : id = .random bits := hmade.resolves.eq_of_keeps (Context.keeps_of_set hshow hread₃)
  obtain rfl : id' = .random bits := by
    rw [hb₄] at hid'
    exact (Option.some.inj hid').symm
  refine ⟨?_, ?_⟩
  · refine (Bridge.afresh_of_recorded (b := s₂.bridge) ?_ hshow hwritten hread₃ hrecorded).congr
      hstorage.symm
    rw [hstorage]
    exact hplace
  · refine ⟨by rw [hb₄], ?_, ?_, s₂.nodes.length, by rw [hb₄], ?_⟩
    · rw [hb₄]
      exact hb₂ ▸ Bridge.devices_forget _
    · rw [hb₄]
      exact hb₂ ▸ Bridge.isOpen_forget _
    · rw [hmade.nodes, ← hconfig]
      exact List.getElem?_concat_length

/-- Closing the node and making a new one before that makes no difference. -/
theorem Orderly.renew_afresh (h : s.Orderly first) (bits resetBits : RandomBits) :
    After (Bridge.renew true bits resetBits) s
      (fun _ s' => s.bridge.Afresh (.random resetBits) s.tree s'.tree ∧
        s'.StartsAnew s.bridge.config (.random resetBits))
      (fun _ _ => True) := by
  refine after_bind (h.close.mono (fun _ s₁ h₁ => ?_) fun _ _ => False.elim)
  obtain ⟨h₁, hb₁, ht₁⟩ := h₁
  refine after_bind ((((Bridge.after_init h₁.sound bits).and
    (Bridge.after_init_recorded h₁.sound bits)).and (h₁.init bits)).mono (fun _ s₂ h₂ => ?_)
    fun _ _ _ => trivial)
  obtain ⟨⟨⟨-, id, hmade, hb₂⟩, id', -, hrecorded⟩, h₂⟩ := h₂
  obtain ⟨kept, hread, -⟩ := hmade.keeps
  have hconfig : s₂.bridge.config = s.bridge.config := by
    rw [hb₂, hb₁]
    exact Bridge.config_forget _
  have hcontext : s₁.bridge.appContext = s₂.bridge.appContext :=
    Bridge.appContext_congr (by rw [hb₂])
  rw [hcontext] at hread
  refine (h₂.startOver_afresh hread resetBits).imp fun _ s₃ h₃ => ⟨?_, ?_⟩
  · rw [← ht₁]
    refine Bridge.Afresh.congr (b := s₁.bridge) ?_ ?_
    · exact (h₃.1.congr (Bridge.storage_congr (by rw [hb₂]))).of_recorded hrecorded
    · exact Bridge.storage_congr (by rw [hb₁, Bridge.config_forget])
  · exact hconfig ▸ h₃.2

/-- Starting over leaves nothing of what was. Whatever happened to a bridge, on whatever disk, and
whatever others left in its namespace, once it has started over: (a) the namespace holds two
documents, one with the unique id and one with the mark of the stack, and nothing else than
directories on the way to it; (b) outside nothing has changed but that missing directories on the
way have been made, which are those that the namespace lies in unless the path leads out of
directories again; (c) the unique id is the one made for it, no matter what was kept: a random one,
which is another one than all that were made from other bits, and than the one of old bridges; the
bridge has no devices and no open window; (d) it holds a node under that id which is open and not
started, and every other node that it made is closed. -/
theorem starts_over (h : Host) (c : BridgeConfig) (as : List Action) (bits resetBits : RandomBits)
    {s' : Site} (hsound : h.disk.tree.Sound) (htidy : ∀ a ∈ as, Tidy a)
    (hx : Bridge.renew true bits resetBits (run ⟨h, { config := c }⟩ as) = .ok () s') :
    let s : Site := run ⟨h, { config := c }⟩ as
    let id : UniqueId := .random resetBits
    let home := s.bridge.storage.home
    let way := s.bridge.storage.dir.way
    (∀ l, s'.tree.entry? l =
        if l = s.bridge.appContext.path.location then
          some (.file (.text (Value.object [(Bridge.uniqueIdKey, .string id.text)]).pretty))
        else if l = s.bridge.rootContext.path.location then
          some (.file (.text (Value.object
            [(Stack.rootNumberKey, .number (.integer (.ofUInt64 0)))]).pretty))
        else if l ∈ way then some .directory
        else if home <+: l then none
        else s.tree.entry? l) ∧
      (∀ l ∈ way, ¬ home <+: l → s.tree.entry? l = none ∨ s.tree.entry? l = some .directory) ∧
      (s.bridge.storage.dir.Straight → ∀ l ∈ way, l <+: home) ∧
      s'.bridge.uniqueId = some id ∧ id.IsVersion4 ∧
      (∀ bits' : RandomBits, .random bits' = id ↔ bits'.free = resetBits.free) ∧ id ≠ .legacy ∧
      s'.bridge.devices = [] ∧ s'.bridge.window.isOpen = false ∧
      (∃ i n, s'.bridge.node = some i ∧ s'.nodes[i]? = some n ∧ n.closed = false ∧
        n.started = false ∧ n.config.basicInformation.uniqueId = id.text) ∧
      ∀ j n, h.stack.nodes.length ≤ j → s'.bridge.node ≠ some j → s'.nodes[j]? = some n →
        n.closed = true := by
  intro s id home way
  have hs : s.Orderly h.stack.nodes.length := (orderly_new hsound c).run htidy
  have hs' : s'.Orderly h.stack.nodes.length := (hs.renew true bits resetBits).of_ok hx
  obtain ⟨⟨hclear, hplace⟩, huniqueId, hdevices, hclosed, i, hi, hn⟩ :=
    (hs.renew_afresh bits resetBits).of_ok hx
  refine ⟨hplace, fun l hl hout => ?_,
    fun hstraight _ => Onward.isPrefix_of_mem_way hstraight, huniqueId,
    UniqueId.isVersion4_random resetBits, fun _ => UniqueId.random_eq_iff,
    UniqueId.random_ne_legacy resetBits, hdevices, hclosed, ⟨i, _, hi, hn, rfl, rfl, rfl⟩,
    hs'.lifecycle.others⟩
  have hfile := hclear l hl hout
  cases he : s.tree.entry? l with
  | none => exact .inl rfl
  | some e =>
      cases e with
      | directory => exact .inr rfl
      | file x => exact absurd he (hfile x)

/-- A bridge makes a node, opens a window and starts over. -/
theorem starts_over_of_open :
    let s : Site := run ⟨{}, { config := { storagePath := ⟨"/s"⟩ } }⟩
      [.request (.init ⟨0, 0⟩), .request .openWindow]
    ∃ s', Bridge.renew true ⟨1, 1⟩ ⟨2, 2⟩ s = .ok () s' ∧ s.bridge.window.isOpen = true ∧
      s.bridge.uniqueId = some (.random ⟨0, 0⟩) ∧ s'.bridge.uniqueId = some (.random ⟨2, 2⟩) ∧
      s'.bridge.uniqueId ≠ s.bridge.uniqueId ∧ s'.bridge.window.isOpen = false ∧
      s'.tree.entry? ["/", "s", "bridge-0", "bridge.json"] = some (.file (.text (Value.object
        [(Bridge.uniqueIdKey, .string (UniqueId.random ⟨2, 2⟩).text)]).pretty)) := by
  intro s
  have hx := eq_ok_of_succeeds
    (show succeeds (Bridge.renew true ⟨1, 1⟩ ⟨2, 2⟩) s = true by decide +kernel)
  have htidy : ∀ a ∈ [Action.request (.init ⟨0, 0⟩), .request .openWindow], Tidy a := by
    simp [Tidy]
  have hbefore : s.bridge.uniqueId = some (.random ⟨0, 0⟩) := by decide +kernel
  obtain ⟨hplace, -, -, hid, -, hfresh, -, -, hclosed, -⟩ :=
    starts_over {} _ _ ⟨1, 1⟩ ⟨2, 2⟩ Tree.sound_nil htidy hx
  refine ⟨_, hx, by decide +kernel, hbefore, hid, ?_, hclosed, ?_⟩
  · rw [hid, hbefore]
    exact fun hsame => absurd ((hfresh ⟨0, 0⟩).mp (Option.some.inj hsame.symm)) (by decide)
  · rw [hplace, if_pos (by decide +kernel)]

end Site

end DeviceBridge
