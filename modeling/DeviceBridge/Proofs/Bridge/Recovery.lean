import DeviceBridge.Proofs.Bridge.StartOver
import DeviceBridge.Proofs.Storage.Room

/-!
# DeviceBridge.Proofs.Bridge.Recovery

When a reset succeeds. Before it erases anything, a reset closes the node and makes a new one from
what is stored, so it needs all that making a node needs: documents that can be read and written
(`Bridge.Legible`). Where nothing else stands in the way (`Site.Calm`), that is enough
(`Site.Orderly.attains_renew`): what comes after the erasing finds nothing but what it has written
itself (`Bridge.legible_of_erased`). And it is necessary, on any disk
(`Bridge.after_renew_legible`).
-/

namespace DeviceBridge

open Json (Value Object)
open Files

namespace Bridge

/-- A bridge can make a node from what is stored in a tree. -/
structure Legible (b : Bridge) (t : Tree) : Prop where
  /-- The document of the stack can be read, or is missing. -/
  root : ∃ marks, b.rootContext.Shows t marks
  /-- The document of the bridge can be read, or is missing, and a unique id in it is a text. -/
  app : ∃ entries, b.appContext.Shows t entries ∧
    ∀ v, entries.get? uniqueIdKey = some v → ∃ id : UniqueId, Json.decodeValue v = .ok id
  /-- It can be read also when the directories on the way, of which some may have been missing, have
  been made. -/
  again : ∃ entries, b.appContext.Displays t entries
  rootWritable : b.rootContext.Writable t
  appWritable : b.appContext.Writable t

theorem Legible.congr {b b' : Bridge} {t : Tree} (h : b.Legible t) (hb : b'.config = b.config) :
    b'.Legible t := by
  obtain ⟨hroot, happ, hagain, hrw, haw⟩ := h
  rw [← appContext_congr hb] at happ hagain haw
  rw [← rootContext_congr hb] at hroot hrw
  exact ⟨hroot, happ, hagain, hrw, haw⟩

section
variable {b : Bridge} {t t' : Tree} {marks : Object}

/-- While the mark of the stack is written, the document of the bridge stays at its place. -/
theorem entry?_app_of_written (hroot : b.rootContext.Written marks t t')
    (happ : b.appContext.path.location ∉ b.storage.dir.way) :
    t'.entry? b.appContext.path.location = t.entry? b.appContext.path.location := by
  have hpath : b.appContext.path.location ≠ b.rootContext.path.location :=
    Context.path_ne_path rfl (appContext_ne_rootContext b)
  have hdraft : b.appContext.path.location ≠ b.rootContext.draft.location :=
    Context.path_ne_draft _ _
  exact hroot.place_other hpath hdraft happ

/-- So does its draft, if there is one. -/
theorem entry?_draft_of_written (hroot : b.rootContext.Written marks t t')
    (happ : b.appContext.draft.location ∉ b.storage.dir.way) :
    t'.entry? b.appContext.draft.location = t.entry? b.appContext.draft.location := by
  have hpath : b.rootContext.path.location ≠ b.appContext.draft.location :=
    Context.path_ne_draft _ _
  have hdraft : b.appContext.draft.location ≠ b.rootContext.draft.location :=
    Context.draft_ne_draft rfl (appContext_ne_rootContext b)
  exact hroot.place_other hpath.symm hdraft happ

theorem writable_app_iff (hroot : b.rootContext.Written marks t t') :
    b.appContext.Writable t' ↔ b.appContext.Writable t := by
  constructor
  · intro h
    have hpath := h.path
    have hdraft := h.draft
    rw [entry?_app_of_written hroot h.path_not_mem_way] at hpath
    rw [entry?_draft_of_written hroot h.draft_not_mem_way] at hdraft
    exact ⟨h.passable, h.path_not_mem_way, hpath, h.draft_not_mem_way, hdraft⟩
  · intro h
    have hpath := h.path
    have hdraft := h.draft
    rw [← entry?_app_of_written hroot h.path_not_mem_way] at hpath
    rw [← entry?_draft_of_written hroot h.draft_not_mem_way] at hdraft
    exact ⟨h.passable, h.path_not_mem_way, hpath, h.draft_not_mem_way, hdraft⟩

end

end Bridge

/-! ## Making a node -/

/-- Nothing stands in the way of making a node but what is stored: the disk has no faults, and the
stack will not refuse. -/
structure Site.Calm (s : Site) : Prop where
  faultless : s.host.disk.Faultless
  sound : s.tree.Sound
  willing : s.host.stack.createFailure = none

namespace Bridge

variable {s : Site}

theorem attains_isLegacy (h : s.host.disk.Faultless) (hl : s.bridge.Legible s.tree) :
    Attains isLegacy s (fun _ _ => True) := by
  obtain ⟨⟨marks, hroot⟩, ⟨entries, happ, -⟩, -⟩ := hl
  refine after_bind (after_get (after_bind (after_storing ((Context.attains_has h hroot _).imp
    fun marked d₁ h₁ => ?_))))
  cases marked with
  | false => exact after_pure trivial
  | true =>
      have happ₁ : s.bridge.appContext.Shows d₁.tree entries := h₁.2 ▸ happ
      exact after_bind (after_storing ((Context.attains_has h₁.1 happ₁ _).imp fun _ _ _ =>
        after_pure trivial))

theorem attains_resolveUniqueId (h : s.host.disk.Faultless) (hl : s.bridge.Legible s.tree)
    (bits : RandomBits) : Attains (resolveUniqueId bits) s (fun _ _ => True) := by
  obtain ⟨entries, happ, hid⟩ := hl.app
  refine after_bind (after_get (after_bind (after_storing ((Context.attains_get? h happ hid).imp
    fun kept d₁ h₁ => ?_))))
  cases kept with
  | some id => exact after_pure trivial
  | none =>
      have hl₁ : s.bridge.Legible d₁.tree := h₁.2 ▸ hl
      refine after_bind ((attains_isLegacy (s := { s with host := { s.host with disk := d₁ } })
        h₁.1 hl₁).imp fun legacy _ _ => ?_)
      cases legacy <;> exact after_pure trivial

theorem attains_createNode {h : Host} {marks : Object} (config : ServerNodeConfig)
    (hd : h.disk.Faultless) (hs : h.disk.tree.Sound) (hc : h.stack.createFailure = none)
    (hn : config.storage.Unblocked h.disk.tree)
    (hw : Context.Writable ⟨config.storage, Stack.rootContext⟩ h.disk.tree)
    (hshow : Context.Shows ⟨config.storage, Stack.rootContext⟩ h.disk.tree marks) :
    Attains (Host.createNode config) h (fun i h' => h'.disk.Faultless ∧
      h'.stack.createFailure = none ∧ i = h.stack.nodes.length ∧
      h'.stack.nodes = h.stack.nodes ++ [{ config := config }] ∧
      Context.Written ⟨config.storage, Stack.rootContext⟩
        (marks.insert Stack.rootNumberKey mark) h.disk.tree h'.disk.tree) := by
  have hset := Context.attains_set_writable (c := ⟨config.storage, Stack.rootContext⟩) hd hs hn hw
    hshow Stack.rootNumberKey mark
  refine after_bind (after_get ?_)
  dsimp only
  rw [hc]
  refine after_bind (Host.after_storing (hset.imp fun _ d₁ h₁ => ?_))
  exact after_bind (after_modify (after_pure ⟨h₁.1, hc, rfl, rfl, h₁.2⟩))

/-- A node that was just made is furnished if the document of the bridge can be read and written. -/
theorem attains_furnish {i : Nat} {n : ServerNode} {entries : Object} (h : s.Calm)
    (hi : s.nodes[i]? = some n) (hopen : n.closed = false) (hbare : n.aggregator = none)
    (hn : s.bridge.storage.Unblocked s.tree) (hw : s.bridge.appContext.Writable s.tree)
    (hshow : s.bridge.appContext.Shows s.tree entries) (id : UniqueId) :
    Attains (furnish i id) s (fun _ s' => s'.Calm) := by
  have hset := Context.attains_set_writable (c := s.bridge.appContext) h.faultless h.sound hn hw
    hshow uniqueIdKey (.string id.text)
  refine after_bind (after_hosted (Host.after_changing (fun st hst => ?_) fun e he => ?_))
  · obtain ⟨m, m', -, -, rfl⟩ := Stack.onNode_eq_ok_iff.mp hst
    exact after_bind (after_get (after_storing (hset.imp fun _ d₁ h₁ =>
      ⟨h₁.1, h₁.2.sound, h.willing⟩)))
  · have hadd : n.addAggregator aggregatorId =
        .ok { n with aggregator := some { id := aggregatorId } } := by
      unfold ServerNode.addAggregator
      rw [if_neg (by simp [hopen]), hbare]
    cases (Stack.onNode_eq_ok_iff.mpr ⟨n, _, hi, hadd, rfl⟩).symm.trans he

theorem attains_buildNode (h : s.Calm) (hn : s.bridge.storage.Unblocked s.tree)
    (hl : s.bridge.Legible s.tree) (bits : RandomBits) :
    Attains (buildNode bits) s (fun _ s' => s'.Calm) := by
  have hresolve := (attains_resolveUniqueId h.faultless hl bits).and
    (after_resolveUniqueId bits s)
  refine after_bind (hresolve.mono (fun id s₁ h₁ => ?_) fun _ _ h => h.1)
  obtain ⟨-, ⟨hb₁, hst₁, hf₁, ht₁⟩, -⟩ := h₁
  have h₁ : s₁.Calm := ⟨fun k => (congrFun hf₁ k).trans (h.faultless k), ht₁ ▸ h.sound,
    hst₁ ▸ h.willing⟩
  rw [← hb₁, ← ht₁] at hn hl
  obtain ⟨marks, hroot⟩ := hl.root
  obtain ⟨kept, hkept⟩ := hl.again
  refine after_bind (after_get (after_bind (after_hosted ((attains_createNode
    (nodeConfig s₁.bridge id) h₁.faultless h₁.sound h₁.willing hn hl.rootWritable
    hroot).imp fun i h₂ hmade => ?_))))
  obtain ⟨hf₂, hc₂, rfl, hnodes₂, hwritten⟩ := hmade
  have hcalm : Site.Calm { s₁ with host := h₂ } := ⟨hf₂, hwritten.sound, hc₂⟩
  have hlast : h₂.stack.nodes[s₁.host.stack.nodes.length]? =
      some { config := nodeConfig s₁.bridge id } := by
    rw [hnodes₂]
    exact List.getElem?_concat_length
  have hpresent : s₁.bridge.storage.Present h₂.disk.tree := hwritten.present
  have hw₂ : s₁.bridge.appContext.Writable h₂.disk.tree :=
    (writable_app_iff hwritten).mpr hl.appWritable
  have hshow₂ : s₁.bridge.appContext.Shows h₂.disk.tree kept :=
    (hkept.congr (entry?_app_of_written hwritten
      hl.appWritable.path_not_mem_way)).shows_of_present
        (Context.passable_path hl.appWritable.passable) hpresent
  exact after_furnish_or (attains_furnish hcalm hlast rfl rfl hpresent.unblocked hw₂ hshow₂ id)

/-- A bridge that holds no node makes one from what is stored. -/
theorem attains_init (h : s.Calm) (hnode : s.bridge.node = none)
    (hn : s.bridge.storage.Unblocked s.tree) (hl : s.bridge.Legible s.tree) (bits : RandomBits) :
    Attains (init bits) s (fun _ s' => s'.Calm) := by
  refine after_bind (after_get ?_)
  rw [hnode]
  exact after_bind (after_logging ((attains_buildNode h hn hl bits).mono
    (fun _ _ h₁ => after_update ⟨h₁.faultless, h₁.sound, h₁.willing⟩) fun _ _ => False.elim))

/-! ## Starting over -/

/-- Closing the node does not stand in the way of making another one. -/
theorem calm_close (h : s.Calm) : Leaves close s Site.Calm := by
  have hdisk (s' : Site) (hd : s'.host.disk = s.host.disk)
      (hc : s'.host.stack.createFailure = s.host.stack.createFailure) : s'.Calm := by
    refine ⟨hd ▸ h.faultless, ?_, hc.trans h.willing⟩
    rw [Site.tree, hd]
    exact h.sound
  have hrefuse : Leaves close s
      (fun s' => s'.host.stack.createFailure = s.host.stack.createFailure) := by
    unfold Leaves After close
    cases s.bridge.node with
    | none => rfl
    | some i =>
        unfold Host.changing
        dsimp only
        cases hx : s.host.stack.onNode i ServerNode.close with
        | ok st =>
            obtain ⟨n, n', -, -, rfl⟩ := Stack.onNode_eq_ok_iff.mp hx
            rfl
        | error e => cases e <;> rfl
  exact ((after_close s).and hrefuse).mono (fun _ s' h' => hdisk s' h'.1.2.1 h'.2)
    fun _ s' h' => hdisk s' h'.1.2.1 h'.2

section
variable {b : Bridge} {t t' : Tree} {id : UniqueId}

theorem plain_idDocument (id : UniqueId) :
    (Value.object (idDocument id)).Plain Json.nestingLimit :=
  ⟨by decide, List.pairwise_singleton _ _, trivial, trivial⟩

/-- Where nothing is left in the namespace, documents can be written if their names allow it. -/
theorem writable_of_erased {c : Context} (h : c.Writable t) {t₁ : Tree}
    (herased : ∀ l, c.space.home <+: l → t₁.entry? l = none) : c.Writable t₁ := by
  refine ⟨h.passable, h.path_not_mem_way, ?_, h.draft_not_mem_way, ?_⟩
  · rw [herased _ c.home_isPrefix_path]
    exact nofun
  · rw [herased _ c.home_isPrefix_draft]
    exact nofun

/-- Once nothing but a unique id has been written, a node can be made. -/
theorem legible_of_erased (hroot : b.rootContext.Writable t) (happ : b.appContext.Writable t)
    (herased : ∀ l, b.storage.home <+: l → t.entry? l = none)
    (hset : b.appContext.Written (idDocument id) t t') : b.Legible t' := by
  have hpath : b.rootContext.path.location ≠ b.appContext.path.location :=
    Context.path_ne_path rfl (appContext_ne_rootContext b).symm
  have hpathDraft : b.rootContext.path.location ≠ b.appContext.draft.location :=
    Context.path_ne_draft _ _
  have hdraftPath : b.appContext.path.location ≠ b.rootContext.draft.location :=
    Context.path_ne_draft _ _
  have hdraft : b.rootContext.draft.location ≠ b.appContext.draft.location :=
    Context.draft_ne_draft rfl (appContext_ne_rootContext b).symm
  -- Nothing is where the document of the stack and its draft belong.
  have hmark : t'.entry? b.rootContext.path.location = none :=
    (hset.place_other hpath hpathDraft hroot.path_not_mem_way).trans
      (herased _ b.rootContext.home_isPrefix_path)
  have hmarkDraft : t'.entry? b.rootContext.draft.location = none :=
    (hset.place_other hdraftPath.symm hdraft hroot.draft_not_mem_way).trans
      (herased _ b.rootContext.home_isPrefix_draft)
  have hpresent : b.storage.Present t' := hset.present
  have hdisplays : b.appContext.Displays t' (idDocument id) :=
    hset.displays (plain_idDocument id)
  refine ⟨⟨[], Context.shows_nil (Context.passable_path hroot.passable) hpresent.unblocked hmark⟩,
    ⟨_, hdisplays.shows_of_present (Context.passable_path happ.passable) hpresent,
      fun v hv => ?_⟩, ⟨_, hdisplays⟩,
    ⟨hroot.passable, hroot.path_not_mem_way, by rw [hmark]; exact nofun,
      hroot.draft_not_mem_way, by rw [hmarkDraft]; exact nofun⟩,
    ⟨happ.passable, happ.path_not_mem_way, hdisplays.not_directory, happ.draft_not_mem_way, ?_⟩⟩
  · obtain rfl : Value.string id.text = v := Option.some.inj hv
    exact ⟨id, rfl⟩
  · rw [hset.place, if_neg (Context.path_ne_draft _ _).symm, if_pos rfl]
    exact nofun

end

end Bridge

namespace Site

variable {first : Nat} {s : Site}

/-- Erasing the data of the node that the bridge holds succeeds where its namespace is there. -/
theorem Orderly.attains_eraseNode (ho : s.Orderly first) (h : s.Calm) {i : Nat}
    (hi : s.bridge.node = some i) (hp : s.bridge.storage.dir.Passable)
    (hn : s.bridge.storage.Present s.tree) (operation : String) :
    Attains (Bridge.delegating operation (Host.eraseNode i)) s (fun _ s' => s'.Calm ∧
      s'.bridge = s.bridge ∧ s'.Orderly first ∧ ∀ l, s'.tree.entry? l =
        if s.bridge.storage.home <+: l then none else s.tree.entry? l) := by
  obtain ⟨-, n, id, hget, -, hconfig, -⟩ := ho.lifecycle.held i hi
  have hstorage : n.config.storage = s.bridge.storage := by rw [hconfig]; rfl
  have herase := Namespace.attains_erase_present h.faultless h.sound hp hn
  have hwork : Attains (Bridge.delegating operation (Host.eraseNode i)) s (fun _ s' => s'.Calm ∧
      s'.bridge = s.bridge ∧ ∀ l, s'.tree.entry? l =
        if s.bridge.storage.home <+: l then none else s.tree.entry? l) := by
    refine Bridge.after_delegating (after_bind (after_get ?_))
    rw [show s.host.stack.nodes[i]? = some n from hget]
    refine after_bind (after_modify (Host.after_storing ?_))
    rw [hstorage]
    exact herase.imp fun _ d h' => ⟨⟨h'.1, h'.2.1, h.willing⟩, rfl, h'.2.2⟩
  exact (hwork.and (ho.eraseNode operation i)).mono
    (fun _ _ h' => ⟨h'.1.1, h'.1.2.1, h'.2.2, h'.1.2.2⟩) fun _ _ h' => h'.1

/-- Once a node has been made, starting over succeeds. -/
theorem Orderly.attains_startOver (ho : s.Orderly first) (h : s.Calm) {i : Nat}
    (hi : s.bridge.node = some i) (hn : s.bridge.storage.Present s.tree) {t : Tree}
    (hroot : s.bridge.rootContext.Writable t) (happ : s.bridge.appContext.Writable t)
    (bits : RandomBits) : Attains (Bridge.startOver bits) s (fun _ s' => s'.Calm) := by
  refine after_bind (Bridge.after_heldNode (fun j hj => ?_) fun hnone => ?_)
  · obtain rfl : i = j := Option.some.inj (hi.symm.trans hj)
    have hdirPassable := Context.passable_dir (Context.passable_path happ.passable)
    refine after_bind ((ho.attains_eraseNode h hi hdirPassable hn _).imp
      fun _ s₁ h₁ => ?_)
    obtain ⟨hcalm₁, hb₁, ho₁, hplace⟩ := h₁
    refine after_bind ((ho₁.close.and (Bridge.calm_close hcalm₁)).mono (fun _ s₂ h₂ => ?_)
      fun _ _ h' => h'.1)
    obtain ⟨⟨ho₂, hb₂, ht₂⟩, hcalm₂⟩ := h₂
    have hconfig : s₂.bridge.config = s.bridge.config := by
      rw [hb₂, Bridge.config_forget, hb₁]
    have hnode : s₂.bridge.node = none := by rw [hb₂, Bridge.node_forget]
    rw [← Bridge.rootContext_congr hconfig] at hroot
    rw [← Bridge.appContext_congr hconfig] at happ
    rw [← ht₂, ← Bridge.storage_congr hconfig] at hplace
    rw [← Bridge.storage_congr hconfig] at hn
    have herased (l : Location) (hl : s₂.bridge.storage.home <+: l) :
        s₂.tree.entry? l = none := by
      rw [hplace, if_pos hl]
    have hunblocked : s₂.bridge.storage.Unblocked s₂.tree := fun l hl x => by
      rw [hplace, hn l hl]
      split <;> exact nofun
    have hshow : s₂.bridge.appContext.Shows s₂.tree [] :=
      Context.shows_nil (Context.passable_path happ.passable) hunblocked
        (herased _ s₂.bridge.appContext.home_isPrefix_path)
    have hset := Context.attains_set_writable (c := s₂.bridge.appContext) hcalm₂.faultless
      hcalm₂.sound hunblocked (Bridge.writable_of_erased happ herased) hshow Bridge.uniqueIdKey
      (.string (UniqueId.random bits).text)
    refine after_bind (after_get (after_bind (Bridge.after_storing (hset.imp fun _ d h₃ => ?_))))
    obtain ⟨hf₃, hwritten⟩ := h₃
    have hcalm₃ : Calm { s₂ with host := { s₂.host with disk := d } } :=
      ⟨hf₃, hwritten.sound, hcalm₂.willing⟩
    have hlegible : s₂.bridge.Legible d.tree :=
      Bridge.legible_of_erased (Bridge.writable_of_erased hroot herased)
        (Bridge.writable_of_erased happ herased) herased hwritten
    exact Bridge.attains_init hcalm₃ hnode hwritten.present.unblocked hlegible bits
  · cases hi.symm.trans hnone

/-- A reset succeeds where a node can be made from what is stored. -/
theorem Orderly.attains_renew (ho : s.Orderly first) (h : s.Calm)
    (hn : s.bridge.storage.Unblocked s.tree) (hl : s.bridge.Legible s.tree)
    (bits resetBits : RandomBits) :
    Attains (Bridge.renew true bits resetBits) s (fun _ s' => s'.Calm) := by
  refine after_bind ((ho.close.and (Bridge.calm_close h)).mono (fun _ s₁ h₁ => ?_)
    fun _ _ h' => h'.1)
  obtain ⟨⟨ho₁, hb₁, ht₁⟩, hcalm₁⟩ := h₁
  have hconfig : s₁.bridge.config = s.bridge.config := by rw [hb₁, Bridge.config_forget]
  have hnode : s₁.bridge.node = none := by rw [hb₁, Bridge.node_forget]
  replace hl : s₁.bridge.Legible s₁.tree := ht₁ ▸ hl.congr hconfig
  rw [← Bridge.storage_congr hconfig, ← ht₁] at hn
  refine after_bind ((((Bridge.attains_init hcalm₁ hnode hn hl bits).and (ho₁.init bits)).and
    ((Bridge.after_init ho₁.sound bits).and (Bridge.after_init_recorded ho₁.sound bits))).mono
      (fun _ s₂ h₂ => ?_) fun _ _ h' => h'.1.1)
  obtain ⟨⟨hcalm₂, ho₂⟩, ⟨-, id, hmade, hb₂⟩, id', -, hrecorded⟩ := h₂
  obtain ⟨marks, entries, t, -, -, -, -, hwritten⟩ := hrecorded
  have hconfig₂ : s₂.bridge.config = s₁.bridge.config := by rw [hb₂]
  have hpresent : s₂.bridge.storage.Present s₂.tree := by
    rw [Bridge.storage_congr hconfig₂]
    exact hwritten.present
  have hl₂ := hl.congr hconfig₂
  exact ho₂.attains_startOver hcalm₂ (by rw [hb₂]) hpresent hl₂.rootWritable hl₂.appWritable
    resetBits

end Site

/-! ## What is needed -/

namespace Bridge

variable {s : Site}

/-- What has been written on the way to a node was legible. -/
theorem legible_of_written {b : Bridge} {bits : RandomBits} {id : UniqueId} {t t' : Tree}
    {marks entries : Object} (hresolves : b.Resolves t bits id)
    (hroot : b.rootContext.Shows t marks) (hrw : b.rootContext.Writable t)
    (hwritten : b.rootContext.Written (marks.insert Stack.rootNumberKey mark) t t')
    (happ : b.appContext.Shows t' entries) (haw : b.appContext.Writable t') : b.Legible t := by
  have haw' := (writable_app_iff hwritten).mp haw
  refine ⟨⟨marks, hroot⟩, ?_, ⟨entries, ?_⟩, hrw, haw'⟩
  · cases hresolves with
    | kept hshow hv hid =>
        refine ⟨_, hshow, fun v hv' => ?_⟩
        obtain rfl := Option.some.inj (hv.symm.trans hv')
        exact ⟨_, hid⟩
    | legacy hshow hv _ _ _ => exact ⟨_, hshow, fun v hv' => by rw [hv] at hv'; cases hv'⟩
    | random hshow hv _ _ => exact ⟨_, hshow, fun v hv' => by rw [hv] at hv'; cases hv'⟩
  · exact (happ.displays_of_present (Context.passable_path haw.passable) hwritten.present).congr
      (entry?_app_of_written hwritten haw.path_not_mem_way).symm

theorem after_createNode_writable {h : Host} (hs : h.disk.tree.Sound) (config : ServerNodeConfig) :
    After (Host.createNode config) h
      (fun _ _ => Context.Writable ⟨config.storage, Stack.rootContext⟩ h.disk.tree)
      (fun _ _ => True) := by
  refine after_bind (after_get ?_)
  dsimp only
  cases h.stack.createFailure with
  | some text => exact after_bind (after_modify (after_throw trivial))
  | none =>
      refine after_bind (Host.after_storing ((Context.after_set_writable hs _ _ _).mono
        (fun _ _ hw => ?_) fun _ _ _ => trivial))
      exact after_bind (after_modify (after_pure hw))

theorem after_furnish_writable (hs : s.tree.Sound) (node : Nat) (id : UniqueId) :
    After (furnish node id) s (fun _ _ => s.bridge.appContext.Writable s.tree)
      (fun _ _ => True) :=
  after_bind (after_hosted (Host.after_changing
    (fun _ _ => after_bind (after_get (after_storing (Context.after_set_writable hs _ _ _))))
    fun _ _ => trivial))

/-- A node is made only from what is legible, also on a disk with faults. -/
theorem after_buildNode_legible (hs : s.tree.Sound) (bits : RandomBits) :
    After (buildNode bits) s (fun _ _ => s.bridge.Legible s.tree) (fun _ _ => True) := by
  refine after_bind ((after_resolveUniqueId bits s).mono (fun id s₁ h₁ => ?_) fun _ _ _ => trivial)
  obtain ⟨⟨hb₁, -, -, ht₁⟩, hresolves⟩ := h₁
  rw [← ht₁] at hs hresolves ⊢
  rw [← hb₁] at hresolves ⊢
  refine after_bind (after_get (after_bind (after_hosted (((after_createNode_written hs _).and
    (after_createNode_writable hs _)).mono (fun i h₂ hmarked => ?_) fun _ _ _ => trivial))))
  obtain ⟨⟨marks, hroot, hwritten, -⟩, hrw⟩ := hmarked
  have hs₂ := hwritten.sound
  refine after_furnish_or (((after_furnish_written (s := { s₁ with host := h₂ }) hs₂ i id).and
    (after_furnish_writable (s := { s₁ with host := h₂ }) hs₂ i id)).mono (fun _ s₃ h₃ => ?_)
      fun _ _ _ => trivial)
  obtain ⟨⟨entries, happ, -⟩, haw⟩ := h₃
  exact legible_of_written hresolves hroot hrw hwritten happ haw

theorem after_init_legible (hs : s.tree.Sound) (bits : RandomBits) :
    After (init bits) s (fun _ _ => s.bridge.Legible s.tree) (fun _ _ => True) := by
  refine after_bind (after_get ?_)
  cases s.bridge.node with
  | some i => exact after_throw trivial
  | none =>
      exact after_bind (after_logging ((after_buildNode_legible hs bits).mono
        (fun _ _ h => after_update h) fun _ _ _ => trivial))

/-- A bridge is renewed only if what is stored was legible, whether or not all of it is to be
erased. -/
theorem after_renew_legible (hs : s.tree.Sound) (reset : Bool) (bits resetBits : RandomBits) :
    After (renew reset bits resetBits) s (fun _ _ => s.bridge.Legible s.tree)
      (fun _ _ => True) := by
  refine after_bind ((after_close s).mono (fun _ s₁ h₁ => ?_) fun _ _ _ => trivial)
  obtain ⟨hb₁, hd₁, -⟩ := h₁
  have hconfig : s.bridge.config = s₁.bridge.config := by rw [hb₁, config_forget]
  have ht₁ : s₁.tree = s.tree := congrArg Disk.tree hd₁
  rw [← ht₁] at hs ⊢
  refine after_bind ((after_init_legible hs bits).mono (fun _ s₂ h₂ => ?_) fun _ _ _ => trivial)
  exact .intro (fun _ _ _ => h₂.congr hconfig) fun _ _ _ => trivial

end Bridge

end DeviceBridge
