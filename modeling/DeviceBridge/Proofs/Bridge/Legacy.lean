import DeviceBridge.Proofs.Bridge.Identity
import DeviceBridge.Proofs.Identity

/-!
# DeviceBridge.Proofs.Bridge.Legacy

When a bridge takes the id of bridges from before ids were kept. The mark of the stack is written
before the unique id is kept. If making a node fails between the two, and no start was ever
recorded, the documents look as those bridges left them, and the next node gets their id
(`Site.legacy_of_orphaned`). That is the only way: in a namespace that began without a mark and
without an id, no node gets that id otherwise (`Site.Genuine.run`).
-/

namespace DeviceBridge

open Files (Path Tree Disk)

theorem UniqueId.text_ne {id id' : UniqueId} (h : id ≠ id') : id.text ≠ id'.text := fun ht => by
  cases id
  exact h (congrArg UniqueId.mk ht)

namespace Bridge

/-! ## What the documents say -/

/-- No id is kept, and nothing speaks for a bridge from before ids were kept: either the mark of the
stack is missing, or a start was recorded. -/
def Unclaimed (b : Bridge) (t : Tree) : Prop :=
  b.appContext.Lacks t uniqueIdKey ∧
    (b.rootContext.Lacks t Stack.rootNumberKey ∨ ¬ b.appContext.Lacks t lastStartKey)

/-- An id is kept, and it is not that of bridges from before ids were kept. -/
def Claimed (b : Bridge) (t : Tree) : Prop :=
  ∃ id : UniqueId, id ≠ .legacy ∧ b.appContext.Keeps t uniqueIdKey (.string id.text)

variable {b : Bridge} {t t' : Tree} {bits : RandomBits} {id : UniqueId}

theorem Unclaimed.untouched (h : b.Unclaimed t) (hu : b.storage.Untouched t t') :
    b.Unclaimed t' := by
  unfold Unclaimed
  rw [(hu b.appContext rfl).lacks_iff, (hu b.appContext rfl).lacks_iff,
    (hu b.rootContext rfl).lacks_iff]
  exact h

theorem Resolves.ne_legacy (h : b.Resolves t bits id) (hd : b.Unclaimed t ∨ b.Claimed t) :
    id ≠ .legacy := by
  rcases hd with ⟨hid, hold⟩ | ⟨id', hne, hk⟩
  · cases h with
    | kept happ hv hdecode =>
        rw [hid.get?_eq_none happ] at hv
        contradiction
    | random happ hv hroot hnew => exact UniqueId.random_ne_legacy bits
    | @legacy entries marks happ hv hroot hmark hstart =>
        rcases hold with hlacks | hstarted
        · have hnone := hlacks.get?_eq_none hroot
          simp [Dictionary.contains, hnone] at hmark
        · have hne : marks ≠ [] := by
            rintro rfl
            contradiction
          have hstored := happ.stored?_eq hroot hne rfl
          refine absurd (fun es hes => ?_) hstarted
          obtain rfl := Option.some.inj (hstored.symm.trans hes)
          simpa [Dictionary.contains] using hstart
  · rw [h.eq_of_keeps hk]
    exact hne

/-- Where an id is kept, one is found whenever the documents can be read. -/
theorem Resolves.not_lacks (h : b.Resolves t bits id) (hc : b.Claimed t) :
    ¬ b.appContext.Lacks t uniqueIdKey := fun hl => by
  obtain ⟨id', -, hk⟩ := hc
  have happ : ∃ entries, b.appContext.Shows t entries := by
    cases h with
    | kept happ | legacy happ | random happ => exact ⟨_, happ⟩
  obtain ⟨entries, hshow⟩ := happ
  have hsome := hk.get?_eq hshow
  rw [hl.get?_eq_none hshow, Json.Value.reread_string] at hsome
  contradiction

end Bridge

/-! ## Orphaned documents -/

/-- Making a node fails after the stack has left its mark, while no id is kept and no start was ever
recorded. -/
def Site.OrphanedBy (s : Site) (bits : RandomBits) : Prop :=
  ∃ e s', Bridge.init bits s = .error e s' ∧ s.nodes.length < s'.nodes.length ∧
    s.bridge.appContext.Lacks s.tree Bridge.uniqueIdKey ∧
    s.bridge.appContext.Lacks s.tree Bridge.lastStartKey

/-- A step in which that happens. -/
def Site.Orphans (s : Site) : Action → Prop
  | .request (.init bits) => s.OrphanedBy bits
  | .request (.renew _ bits _) => ∃ s', Bridge.close s = .ok () s' ∧ s'.OrphanedBy bits
  | _ => False

namespace Site

variable {first : Nat} {s s' : Site}

theorem OrphanedBy.stranded {bits : RandomBits} (h : s.OrphanedBy bits) (hs : s.tree.Sound) :
    ∃ e s' id, Bridge.init bits s = .error e s' ∧ Bridge.Stranded bits id s s' := by
  obtain ⟨e, s', hx, hlt, -⟩ := h
  obtain ⟨-, hnot | ⟨-, id, hstranded⟩⟩ := (Bridge.after_init hs bits).of_error hx
  · rw [hnot.nodes] at hlt
    exact absurd hlt (Nat.lt_irrefl _)
  · exact ⟨e, s', id, hx, hstranded⟩

/-- Orphaned documents give the next node the id of bridges from before ids were kept, whoever makes
it and whenever. -/
theorem legacy_of_orphaned {bits : RandomBits} (h : s.OrphanedBy bits) (hs : s.tree.Sound)
    {s₁ : Site} (hc : s₁.bridge.config = s.bridge.config) (hs₁ : s₁.tree.Sound)
    (hu : s.bridge.storage.Untouched (s.act (.request (.init bits))).tree s₁.tree)
    {bits' : RandomBits} {s₂ : Site} (hx : Bridge.init bits' s₁ = .ok () s₂) :
    s₂.bridge.uniqueId = some .legacy := by
  obtain ⟨e, s', id, hx', hstranded⟩ := h.stranded hs
  obtain ⟨-, -, -, -, hid, hstart⟩ := h
  have hact : s.act (.request (.init bits)) = s' := by
    change stateAfter (Bridge.init bits) s = s'
    unfold stateAfter
    rw [hx']
  rw [hact] at hu
  have happ : s₁.bridge.appContext = s.bridge.appContext := Bridge.appContext_congr hc
  have hroot : s₁.bridge.rootContext = s.bridge.rootContext := Bridge.rootContext_congr hc
  have huntouched := hstranded.untouched.trans (hu s.bridge.appContext rfl)
  have hid₁ : s₁.bridge.appContext.Lacks s₁.tree Bridge.uniqueIdKey :=
    happ ▸ huntouched.lacks_iff.mpr hid
  have hstart₁ : s₁.bridge.appContext.Lacks s₁.tree Bridge.lastStartKey :=
    happ ▸ huntouched.lacks_iff.mpr hstart
  have hmark₁ : s₁.bridge.rootContext.Keeps s₁.tree Stack.rootNumberKey Bridge.mark :=
    hroot ▸ (hu s.bridge.rootContext rfl).keeps hstranded.marked
  obtain ⟨-, id₂, hmade, hb⟩ := (Bridge.after_init hs₁ bits').of_ok hx
  have hlegacy : id₂ = .legacy := by
    cases hmade.resolves with
    | kept happ hv hdecode =>
        rw [hid₁.get?_eq_none happ] at hv
        contradiction
    | legacy => rfl
    | random happ hv hroot hnew =>
        have hmark := hmark₁.get?_eq hroot
        have hnone := hstart₁.get?_eq_none happ
        rcases hnew with hnew | hnew
        · simp [Dictionary.contains, hmark, Bridge.mark] at hnew
        · simp [Dictionary.contains, hnone] at hnew
  rw [hb, hlegacy]

/-! ## Genuine bridges -/

/-- A bridge of which no node, from a number on, has the id of bridges from before ids were kept,
and none will. -/
structure Genuine (first : Nat) (s : Site) : Prop where
  holds : s.Holds first
  documents : s.bridge.node = none ∧ s.bridge.Unclaimed s.tree ∨ s.bridge.Claimed s.tree
  nodes : ∀ j n, first ≤ j → s.nodes[j]? = some n →
    n.config.basicInformation.uniqueId ≠ UniqueId.legacy.text

theorem unclaimed_congr {b b' : Bridge} {t : Tree} (hc : b'.config = b.config) :
    b'.Unclaimed t ↔ b.Unclaimed t := by
  unfold Bridge.Unclaimed
  rw [Bridge.appContext_congr hc, Bridge.rootContext_congr hc]

theorem claimed_congr {b b' : Bridge} {t : Tree} (hc : b'.config = b.config) :
    b'.Claimed t ↔ b.Claimed t := by
  unfold Bridge.Claimed
  rw [Bridge.appContext_congr hc]

namespace Genuine

/-- All nodes keep their ids. -/
theorem nodes_of_continue (h : s.Genuine first) (hcont : NodesContinue s.nodes s'.nodes) :
    ∀ j n, first ≤ j → s'.nodes[j]? = some n →
      n.config.basicInformation.uniqueId ≠ UniqueId.legacy.text := fun j n hj hn => by
  obtain ⟨m, hm, hmn⟩ := hcont.of_getElem? hn
  rw [hmn.config]
  exact h.nodes j m hj hm

/-- All nodes keep their ids, and the new one has another. -/
theorem nodes_of_append (h : s.Genuine first) {m : ServerNode}
    (hm : m.config.basicInformation.uniqueId ≠ UniqueId.legacy.text)
    (hnodes : s'.nodes = s.nodes ++ [m]) :
    ∀ j n, first ≤ j → s'.nodes[j]? = some n →
      n.config.basicInformation.uniqueId ≠ UniqueId.legacy.text := fun j n hj hn => by
  rw [hnodes] at hn
  rcases Nat.lt_trichotomy j s.nodes.length with hlt | rfl | hgt
  · rw [List.getElem?_append_left hlt] at hn
    exact h.nodes j n hj hn
  · rw [List.getElem?_concat_length] at hn
    exact Option.some.inj hn ▸ hm
  · rw [List.getElem?_eq_none (by simp; omega)] at hn
    contradiction

/-- What concerns neither the node nor the id that is kept. -/
theorem minor (h : s.Genuine first) (hm : s.Minor s') (hr : s.RetainsId s')
    (hidle : s.bridge.node = none → s.bridge.storage.Untouched s.tree s'.tree) :
    s'.Genuine first := by
  refine ⟨h.holds.minor hm hr, ?_, h.nodes_of_continue hm.continues⟩
  rw [unclaimed_congr hm.config, claimed_congr hm.config, hm.node]
  rcases h.documents with ⟨hnode, hun⟩ | ⟨id, hne, hk⟩
  · exact .inl ⟨hnode, hun.untouched (hidle hnode)⟩
  · exact .inr ⟨id, hne, hr.keeps id hk⟩

theorem minor_of_disk (h : s.Genuine first) (hm : s.Minor s')
    (hd : s'.host.disk = s.host.disk) : s'.Genuine first := by
  have ht : s'.tree = s.tree := congrArg Disk.tree hd
  exact h.minor hm (.of_disk h.holds.sound hd hm.config) fun _ => Namespace.untouched_of_eq ht

theorem init (h : s.Genuine first) {bits : RandomBits} (hno : ¬ s.OrphanedBy bits) :
    Leaves (Bridge.init bits) s (Genuine first) := by
  have hholds := h.holds.init bits
  have hafter := Bridge.after_init h.holds.sound bits
  have hdocs : s.bridge.Unclaimed s.tree ∨ s.bridge.Claimed s.tree := h.documents.imp_left And.right
  refine .intro (fun u s' hx => ?_) fun e s' hx => ?_
  · obtain ⟨-, id, hmade, hb⟩ := hafter.of_ok hx
    have hne := hmade.resolves.ne_legacy hdocs
    refine ⟨hholds.of_ok hx, .inr ?_, h.nodes_of_append (UniqueId.text_ne hne) hmade.nodes⟩
    rw [claimed_congr (by rw [hb])]
    exact ⟨id, hne, hmade.keeps⟩
  · obtain ⟨hb, hnot | ⟨hnode, id, hstranded⟩⟩ := hafter.of_error hx
    · exact h.minor (hnot.minor hb) (hnot.retainsId hb) fun _ => hnot.untouched
    · have hne := hstranded.resolves.ne_legacy hdocs
      obtain ⟨m, hm, -, hnodes⟩ := hstranded.nodes
      have hconfig : m.config.basicInformation.uniqueId ≠ UniqueId.legacy.text := by
        rw [hm]
        exact UniqueId.text_ne hne
      refine ⟨hholds.of_error hx, ?_, h.nodes_of_append hconfig hnodes⟩
      rw [hb]
      rcases hdocs with ⟨hid, hold⟩ | ⟨id', hne', hk⟩
      · -- Without a recorded start the documents would be orphaned.
        refine .inl ⟨hnode, hstranded.untouched.lacks_iff.mpr hid, .inr fun hl => hno ?_⟩
        exact ⟨e, s', hx, by rw [hnodes]; simp, hid, hstranded.untouched.lacks_iff.mp hl⟩
      · exact .inr ⟨id', hne', hstranded.untouched.keeps hk⟩

theorem close (h : s.Genuine first) :
    After Bridge.close s
      (fun _ s' => s'.Genuine first ∧ s'.bridge.node = none ∧ s'.host.disk = s.host.disk)
      (fun _ _ => False) := by
  have hholds := Holds.close h.holds.lifecycle h.holds.sound h.holds.whole
  refine (hholds.and (Bridge.after_close s)).mono (fun _ s' h' => ?_) fun _ _ h' => h'.1.elim
  obtain ⟨⟨hs', hnode, hd, hc⟩, -, -, hcont, -⟩ := h'
  have ht : s'.tree = s.tree := congrArg Disk.tree hd
  refine ⟨⟨hs', ?_, h.nodes_of_continue hcont⟩, hnode, hd⟩
  rw [unclaimed_congr hc, claimed_congr hc, ht]
  exact h.documents.imp_left fun h => ⟨hnode, h.2⟩

/-- Where an id is kept, making a node orphans nothing. -/
theorem not_orphanedBy (h : s.Genuine first) (hc : s.bridge.Claimed s.tree)
    (bits : RandomBits) : ¬ s.OrphanedBy bits := fun ho => by
  obtain ⟨e, s', id, -, hstranded⟩ := ho.stranded h.holds.sound
  obtain ⟨-, -, -, -, hid, -⟩ := ho
  exact hstranded.resolves.not_lacks hc hid

theorem startOver (h : s.Genuine first) (bits : RandomBits) :
    Leaves (Bridge.startOver bits) s (Genuine first) := by
  refine after_bind (Bridge.after_heldNode (fun i hi => ?_) fun _ => h)
  refine after_bind ((h.holds.erase hi).mono (fun _ s₁ h₁ => ?_) fun _ s₁ h₁ =>
    h.minor h₁.1 h₁.2 fun hnone => ?_)
  · obtain ⟨hm, hsteady, hgone⟩ := h₁
    have hclose := Holds.close (h.holds.lifecycle.minor hm) hsteady.sound
      (h.holds.whole.of_faults hsteady.faults)
    refine after_bind ((hclose.and (Bridge.after_close s₁)).mono (fun _ s₂ h₂ => ?_)
      fun _ _ h₂ => h₂.1.elim)
    obtain ⟨⟨h₂, hnode, hd, hc⟩, -, -, hcont, -⟩ := h₂
    -- All documents are gone, the mark of the stack among them.
    have hc' : s₂.bridge.config = s.bridge.config := hc.trans hm.config
    have ht : s₂.tree = s₁.tree := congrArg Disk.tree hd
    have hun : s₂.bridge.Unclaimed s₂.tree := by
      rw [unclaimed_congr hc', ht]
      exact ⟨Context.lacks_of_text? (hgone _ rfl) _,
        .inl (Context.lacks_of_text? (hgone _ rfl) _)⟩
    have hnodes := h.nodes_of_continue (hm.continues.trans hcont)
    refine after_bind (after_get (after_bind (Bridge.after_storing
      ((Context.after_set h₂.sound _ _ _).mono (fun _ d hset => ?_) fun _ d hset => ?_))))
    · obtain ⟨hf, hs, -, entries, hshow, hread⟩ := hset
      have hclaimed : s₂.bridge.Claimed d.tree :=
        ⟨.random bits, UniqueId.random_ne_legacy bits, Context.keeps_of_set hshow hread⟩
      have h₃ : Genuine first { s₂ with host := { s₂.host with disk := d } } :=
        ⟨h₂.withDisk hnode hf hs, .inr hclaimed, hnodes⟩
      exact h₃.init (h₃.not_orphanedBy hclaimed bits)
    · exact ⟨h₂.withDisk hnode hset.1 hset.2.1, .inl ⟨hnode, hun.untouched hset.2.2⟩, hnodes⟩
  · rw [hi] at hnone
    contradiction

theorem renew (h : s.Genuine first) {reset : Bool} {bits resetBits : RandomBits}
    (hno : ¬ s.Orphans (.request (.renew reset bits resetBits))) :
    Leaves (Bridge.renew reset bits resetBits) s (Genuine first) := by
  refine after_bind (.intro (fun u s₁ hx => ?_) fun e s₁ hx => (h.close.of_error hx).elim)
  obtain ⟨h₁, -, -⟩ := h.close.of_ok hx
  refine after_bind ((h₁.init fun ho => hno ⟨s₁, hx, ho⟩).mono (fun _ s₂ h₂ => ?_)
    fun _ _ h₂ => h₂)
  cases reset
  · exact after_pure h₂
  · exact h₂.startOver resetBits

theorem addEndpoint (h : s.Genuine first) (deviceType : String) (id : EndpointId)
    (info : DeviceInfo) (attributes : List (String × Json.Value)) :
    Leaves (Bridge.addEndpoint deviceType id info attributes) s (Genuine first) := by
  refine ((h.holds.addEndpoint deviceType id info attributes).and
    (Bridge.after_addEndpoint deviceType id info attributes)).mono
      (fun _ s' h' => ?_) fun _ s' h' => ?_
  · obtain ⟨hs', hd, i, m, n, d, hi, hm, hnodes, hconfig, -, -, -, hb⟩ := h'
    have ht : s'.tree = s.tree := congrArg Disk.tree hd
    refine ⟨hs', .inr ?_, fun j n' hj hn' => ?_⟩
    · rw [claimed_congr (by rw [hb]), ht]
      refine h.documents.resolve_left fun hidle => ?_
      rw [hi] at hidle
      exact Option.some_ne_none i hidle.1
    · rw [hnodes, List.getElem?_set] at hn'
      split at hn'
      · next hij =>
        split at hn'
        · obtain rfl := Option.some.inj hn'
          rw [hconfig]
          exact h.nodes j m hj (hij ▸ hm)
        · contradiction
      · exact h.nodes j n' hj hn'
  · obtain ⟨-, hd, hnodes, hb, -⟩ := h'
    exact h.minor_of_disk (.of_bridge hb (hnodes ▸ .refl _)) hd

/-- Every request that orphans nothing leaves a genuine bridge. -/
theorem work (h : s.Genuine first) {r : Request} (hno : ¬ s.Orphans (.request r)) :
    Leaves r.work s (Genuine first) := by
  have hdisk {x : Bridging Unit}
      (hx : Leaves x s fun s' => s.Minor s' ∧ s'.host.disk = s.host.disk) :
      Leaves x s (Genuine first) :=
    hx.mono (fun _ _ h' => h.minor_of_disk h'.1 h'.2) fun _ _ h' => h.minor_of_disk h'.1 h'.2
  cases r with
  | init bits => exact h.init hno
  | close => exact h.close.mono (fun _ _ h' => h'.1) fun _ _ hfalse => hfalse.elim
  | renew reset bits resetBits => exact h.renew hno
  | addEndpoint deviceType id info attributes =>
      exact h.addEndpoint deviceType id info attributes
  | setEndpointState id cluster name value => exact hdisk (Bridge.after_setEndpointState ..)
  | start now =>
      have hidle {s' : Site} (hd : s.bridge.node = none → s'.host.disk = s.host.disk)
          (hnone : s.bridge.node = none) : s.bridge.storage.Untouched s.tree s'.tree := by
        have ht : s'.tree = s.tree := congrArg Disk.tree (hd hnone)
        exact Namespace.untouched_of_eq ht
      exact (Bridge.after_start h.holds.sound now).mono
        (fun _ _ h' => h.minor h'.1 h'.2.1 (hidle h'.2.2))
        fun _ _ h' => h.minor h'.1 h'.2.1 (hidle h'.2.2)
  | openWindow => exact hdisk Bridge.after_openWindow_minor
  | closeWindow => exact hdisk Bridge.after_closeWindow
  | removeFabric index => exact hdisk (Bridge.after_removeFabric index)

theorem act (h : s.Genuine first) {a : Action} (ha : s.SoleWriter a) (hno : ¬ s.Orphans a) :
    (s.act a).Genuine first := by
  cases a with
  | request r => exact (h.work hno).stateAfter
  | deliver k =>
      obtain ⟨hm, hh⟩ := minor_deliver s k
      exact h.minor_of_disk hm (congrArg Host.disk hh)
  | incident i =>
      obtain ⟨hd, hcont⟩ := (leaves_incident s.host ha.ne_eraseNode).stateAfter
      exact h.minor_of_disk (.of_bridge rfl hcont) hd
  | outside t =>
      exact h.minor (.of_bridge rfl (.refl _))
        ⟨⟨rfl, ha.1⟩, rfl, fun _ hk => (ha.2 _ rfl).keeps hk⟩ fun _ => ha.2

/-- Every run that orphans nothing leaves a genuine bridge. -/
theorem run (h : s.Genuine first) {as : List Action} (hsole : s.Admits SoleWriter as)
    (hno : s.Admits (fun s a => ¬ s.Orphans a) as) : (s.run as).Genuine first := by
  have hstep (s : Site) (a : Action) (ha : s.SoleWriter a ∧ ¬ s.Orphans a) (hs : s.Genuine first) :
      (s.act a).Genuine first := hs.act ha.1 ha.2
  exact (hsole.and hno).preserves hstep h

end Genuine

theorem genuine_new {h : Host} (hs : h.disk.tree.Sound) (hw : h.disk.RemovesWhole)
    {c : BridgeConfig}
    (hmark : Context.Lacks (Bridge.rootContext { config := c }) h.disk.tree Stack.rootNumberKey)
    (hid : Context.Lacks (Bridge.appContext { config := c }) h.disk.tree Bridge.uniqueIdKey) :
    Genuine h.stack.nodes.length ⟨h, { config := c }⟩ := by
  refine ⟨holds_new hs hw c, .inl ⟨rfl, hid, .inl hmark⟩, fun j n hj hn => ?_⟩
  rw [List.getElem?_eq_none hj] at hn
  contradiction

/-- The id of the bridge is that of the node it holds, so it is no other. -/
theorem Genuine.uniqueId_ne (h : s.Genuine first) :
    s.bridge.uniqueId ≠ some .legacy := fun hid => by
  cases hnode : s.bridge.node with
  | none =>
      rw [(h.holds.lifecycle.idle hnode).2.1] at hid
      contradiction
  | some i =>
      obtain ⟨hi, n, id, hn, hid', hconfig, -⟩ := h.holds.lifecycle.held i hnode
      refine h.nodes i n hi hn ?_
      rw [hconfig, Option.some.inj (hid'.symm.trans hid)]
      rfl

/-- A bridge whose namespace began without a mark and without an id has the id of bridges from
before ids were kept only if its documents were orphaned: after a run in which that did not happen,
and no removal was broken off, no node that the bridge made has that id. And as soon as it happens,
the next node that is made has it, as long as nobody else writes the documents in between. -/
theorem legacy_iff_orphaned (h : Host) (c : BridgeConfig) (as : List Action)
    (hsound : h.disk.tree.Sound) (hwhole : h.disk.RemovesWhole)
    (hmark : Context.Lacks (Bridge.rootContext { config := c }) h.disk.tree Stack.rootNumberKey)
    (hid : Context.Lacks (Bridge.appContext { config := c }) h.disk.tree Bridge.uniqueIdKey)
    (hsole : Admits SoleWriter ⟨h, { config := c }⟩ as) :
    let s : Site := run ⟨h, { config := c }⟩ as
    (Admits (fun s a => ¬ s.Orphans a) ⟨h, { config := c }⟩ as →
        s.bridge.uniqueId ≠ some .legacy ∧
          ∀ j n, h.stack.nodes.length ≤ j → s.nodes[j]? = some n →
            n.config.basicInformation.uniqueId ≠ UniqueId.legacy.text) ∧
      ∀ bits, s.OrphanedBy bits → ∀ s₁ : Site, s₁.bridge.config = s.bridge.config →
        s₁.tree.Sound →
        s.bridge.storage.Untouched (s.act (.request (.init bits))).tree s₁.tree →
        ∀ bits' s₂, Bridge.init bits' s₁ = .ok () s₂ → s₂.bridge.uniqueId = some .legacy := by
  intro s
  have hholds : s.Holds h.stack.nodes.length := (holds_new hsound hwhole c).run hsole
  refine ⟨fun hno => ?_, fun bits ho s₁ hc hs₁ hu bits' s₂ hx =>
    legacy_of_orphaned ho hholds.sound hc hs₁ hu hx⟩
  have hs : s.Genuine h.stack.nodes.length := (genuine_new hsound hwhole hmark hid).run hsole hno
  exact ⟨hs.uniqueId_ne, hs.nodes⟩

/-- A disk on which one access is denied. -/
def deniedOnce (access : Nat) : Disk where
  faults k := if k = access then some { error := .denied, ne_notFound := by decide } else none

theorem removesWhole_deniedOnce (access : Nat) : (deniedOnce access).RemovesWhole := by
  intro k f hf l
  unfold deniedOnce at hf
  dsimp only at hf
  split at hf
  · exact Option.some.inj hf ▸ rfl
  · contradiction

/-- A new bridge on an empty disk, whose eleventh access to the disk is denied. That access would
write its unique id. -/
def deniedId : Site :=
  ⟨{ disk := deniedOnce 10 }, { config := { storagePath := ⟨"s"⟩ } }⟩

/-- If the unique id of a new bridge cannot be written, the next node has the id of bridges from
before ids were kept. -/
theorem legacy_of_denied_access :
    ∃ s, Bridge.init ⟨1, 1⟩ (deniedId.act (.request (.init ⟨0, 0⟩))) = .ok () s ∧
      s.bridge.uniqueId = some .legacy := by
  obtain ⟨e, he⟩ := eq_error_of_not_succeeds
    (show succeeds (Bridge.init ⟨0, 0⟩) deniedId = false by decide +kernel)
  have hgrown : deniedId.nodes.length <
      (stateAfter (Bridge.init ⟨0, 0⟩) deniedId).nodes.length := by decide +kernel
  have hnext := eq_ok_of_succeeds
    (show succeeds (Bridge.init ⟨1, 1⟩) (deniedId.act (.request (.init ⟨0, 0⟩))) = true by
      decide +kernel)
  have happ : deniedId.bridge.appContext.text? deniedId.tree = none := by decide +kernel
  have hroot : deniedId.bridge.rootContext.text? deniedId.tree = none := by decide +kernel
  have horphaned : deniedId.OrphanedBy ⟨0, 0⟩ :=
    ⟨e, _, he, hgrown, Context.lacks_of_text? happ _, Context.lacks_of_text? happ _⟩
  obtain ⟨hb, hsteady⟩ : (deniedId.act (.request (.init ⟨0, 0⟩))).bridge = deniedId.bridge ∧
      deniedId.Steady (deniedId.act (.request (.init ⟨0, 0⟩))) := by
    obtain ⟨hb, hnot | ⟨-, id, hstranded⟩⟩ := (Bridge.after_init Tree.sound_nil _).of_error he
    · exact ⟨hb, hnot.steady⟩
    · exact ⟨hb, hstranded.steady⟩
  have hrun := (legacy_iff_orphaned deniedId.host deniedId.bridge.config [] Tree.sound_nil
    (removesWhole_deniedOnce 10) (Context.lacks_of_text? hroot _) (Context.lacks_of_text? happ _)
    trivial).2
  rw [run_nil, show (⟨deniedId.host, { config := deniedId.bridge.config }⟩ : Site) = deniedId
    from rfl] at hrun
  have hlegacy := hrun ⟨0, 0⟩ horphaned
  -- What the failed attempt leaves is known well enough, and costly to compute again.
  generalize deniedId.act (.request (.init ⟨0, 0⟩)) = s₁ at hnext hb hsteady hlegacy ⊢
  exact ⟨_, hnext, hlegacy s₁ (by rw [hb]) hsteady.sound (Namespace.untouched_of_eq rfl)
    ⟨1, 1⟩ _ hnext⟩

end Site

end DeviceBridge
