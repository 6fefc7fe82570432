import DeviceBridge.Proofs.Storage.Staging

/-!
# DeviceBridge.Proofs.Storage.Build

A conversion without faults of a file that waits for it. First the staging directory is taken away,
and what is done then depends on the rest of the tree only (`Legacy.Pending.convert_eq`). The
staging directory can be made and reached at any time (`Legacy.Pending.attains_makeDirs`), so it can
be renamed when it is complete (`Legacy.Pending.attains_rename`) and taken away when something fails
(`Legacy.Pending.after_build_faultless`).
-/

namespace DeviceBridge

open Json (Value Object)
open Files

namespace Context

variable {α : Type} {d : Disk}

theorem attains_ofDisk {x : Access α} {done : α → Disk → Prop} (h : Attains x d done) :
    Attains (Storing.ofDisk x) d done := after_ofDisk h

end Context

/-- The directory of a namespace is there and can be reached. -/
def Namespace.Reached (n : Namespace) (t : Tree) : Prop :=
  t.locate n.dir = .ok n.home ∧ t.entry? n.home = some .directory

theorem Namespace.Reached.of_spares {n : Namespace} {ls : List Location} {t t' : Tree}
    (h : n.Reached t) (hs : Tree.Spares ls t t') : n.Reached t' :=
  ⟨Tree.locate_of_directories hs.directory h.1, hs.directory _ h.2⟩

/-- While documents are written on a disk without faults, either nothing has happened yet or the
staging directory can be reached. -/
structure Legacy.Ready (staging : Namespace) (base : Tree) (d : Disk) : Prop where
  faultless : d.Faultless
  confined : Tree.Confined staging.home base d.tree
  reached : d.tree = base ∨ staging.Reached d.tree

/-- What has been written can be taken away as a whole. -/
theorem Legacy.Ready.after_removeTree {staging : Namespace} {base : Tree} {d : Disk}
    (hr : Ready staging base d) :
    Leaves (Disk.removeTree staging.dir) d fun d' => d'.tree = base := by
  refine (Disk.after_change (·.removeTree staging.dir) _).mono (fun _ d' h' => ?_) fun _ d' h' => ?_
  · rw [(Tree.of_removeTree_eq_ok h'.2).2.2.2]
    exact hr.confined.rest
  · obtain ⟨-, ⟨hfail, ht⟩ | ⟨k, f, hk, -, -⟩⟩ := h'
    · rcases hr.reached with heq | ⟨hl, hdir⟩
      · exact ht.trans heq
      · rw [Tree.removeTree_of_directory hl hdir staging.home_isBase] at hfail
        contradiction
    · rw [hr.faultless k] at hk
      contradiction

namespace Legacy.Pending

variable {location : Path} {id : String} {staging : Namespace} {contexts : Object} {t : Tree}
  {d : Disk} (h : Pending location id staging contexts t)
include h

/-! ## The start -/

theorem attains_readContexts (hd : d.Faultless) (ht : d.tree = t) :
    Attains (readContexts location) d
      (fun cs d' => d'.Faultless ∧ d'.tree = t ∧ cs = contexts) := by
  obtain ⟨s, hr, hv⟩ := h.text
  refine after_bind ((Context.after_ofDisk
    (Disk.attains_look hd (·.read location) (ht ▸ hr))).imp fun _ d₁ h₁ => ?_)
  obtain ⟨hf, ht₁, rfl⟩ := h₁
  rw [hv]
  exact after_bind (after_pure (after_pure ⟨hf, ht₁.trans ht, rfl⟩))

/-- Without faults, the staging directory is taken away before anything is written. -/
theorem convertFile_eq (hd : d.Faultless) (ht : d.tree = t) :
    ∃ d', d'.Faultless ∧ d'.tree = t.prune staging.home ∧
      convertFile location staging.root (staging.root.join id) id d =
        build staging (staging.root.join id) contexts d' := by
  obtain ⟨cs, d₁, hx₁, hd₁, ht₁, rfl⟩ := (h.attains_readContexts hd ht).exists_ok
  have hparse : Namespace.parse staging.root (stagingName id) = .ok staging :=
    h.name ▸ staging.parse_text
  have hpresent : (∃ k, d₁.tree.stat staging.dir = .ok k) ∨
      d₁.tree.stat staging.dir = .error .notFound :=
    ht₁ ▸ h.staging.imp_left fun hs => ⟨_, hs⟩
  obtain ⟨b, d₂, hx₂, hd₂, ht₂, hb⟩ :=
    (Context.attains_ofDisk (Disk.attains_isPresent hd₁ hpresent)).exists_ok
  rw [ht₁] at ht₂ hb
  have hspace : Storing.ofExcept (.ok staging) d₁ = .ok staging d₁ := rfl
  unfold convertFile
  rw [bind_eq_of_ok hx₁, hparse, bind_eq_of_ok hspace, bind_eq_of_ok hx₂]
  obtain ⟨hl, hhome⟩ := h.locate_staging
  obtain ⟨rfl, k, hk⟩ | ⟨rfl, hn⟩ := hb
  · -- What is there is a directory.
    have hdir : t.entry? staging.home = some .directory := hhome.resolve_right fun hn => by
      rw [Tree.stat_of_none hl hn] at hk
      contradiction
    have hremove := Tree.removeTree_of_directory hl hdir staging.home_isBase
    obtain ⟨_, d₃, hx₃, hd₃, ht₃⟩ := (Context.attains_ofDisk (Disk.attains_change hd₂
      (·.removeTree staging.dir) _ (ht₂ ▸ hremove))).exists_ok
    rw [ht₂] at ht₃
    exact ⟨d₃, hd₃, ht₃, bind_eq_of_ok hx₃⟩
  · have hnone : t.entry? staging.home = none := hhome.resolve_left fun hdir => by
      rw [Tree.stat_of_directory hl hdir] at hn
      contradiction
    exact ⟨d₂, hd₂, ht₂.trans (h.sound.prune_eq_self hnone).symm, rfl⟩

/-- Without faults a file that waits is converted, and what that does depends on the tree without
the staging directory only. -/
theorem convert_eq (hd : d.Faultless) (ht : d.tree = t) :
    ∃ d', d'.Faultless ∧ d'.tree = t.prune staging.home ∧
      convert location d = (do
        build staging (staging.root.join id) contexts
        return ⟨staging.root, id, true⟩ : Storing Conversion) d' := by
  obtain ⟨hl, s, hf⟩ := h.file
  have hstat : t.stat location = .ok .file := Tree.stat_of_file hl hf
  obtain ⟨r, d₁, hx₁, hd₁, ht₁, hr⟩ := (Context.attains_ofDisk
    (Disk.attains_ifPresent_look hd (·.stat location) (.inl ⟨_, ht ▸ hstat⟩))).exists_ok
  rw [ht] at ht₁ hr
  obtain rfl : r = some .file := by
    cases r with
    | none => rw [hstat] at hr; contradiction
    | some k => rw [Except.ok.inj (hr.symm.trans hstat)]
  have hlook : Storing.ofDisk (Disk.ifPresent (Disk.stat location)) d = .ok (some .file) d₁ := hx₁
  obtain ⟨b, d₂, hx₂, hd₂, ht₂, hb⟩ := (Context.attains_ofDisk
    (Disk.attains_isPresent hd₁ (p := staging.root.join id) (.inr (ht₁ ▸ h.target)))).exists_ok
  rw [ht₁] at ht₂ hb
  obtain rfl : b = false := hb.elim (fun ⟨_, _, hk⟩ => by rw [h.target] at hk; contradiction)
    fun hb => hb.1
  obtain ⟨d₃, hd₃, ht₃, hx₃⟩ := h.convertFile_eq hd₂ ht₂
  have hsplit : Storing.ofExcept (.ok (staging.root, id)) d = .ok (staging.root, id) d := rfl
  refine ⟨d₃, hd₃, ht₃, ?_⟩
  unfold convert
  rw [h.split, bind_eq_of_ok hsplit]
  dsimp only
  rw [bind_eq_of_ok hlook]
  dsimp only
  rw [bind_eq_of_ok hx₂]
  exact bind_congr_of_eq hx₃

/-! ## The staging directory -/

theorem ready (hd : d.Faultless) (ht : d.tree = t.prune staging.home) :
    Ready staging (t.prune staging.home) d :=
  ⟨hd, ht ▸ h.confined.prune staging.home_isBase, .inl ht⟩

/-- The staging directory can be made and reached at any time. -/
theorem attains_makeDirs (hr : Ready staging (t.prune staging.home) d) :
    Attains (Disk.makeDirs staging.dir) d (fun _ d' => d'.Faultless ∧
      Tree.Confined staging.home (t.prune staging.home) d'.tree ∧ staging.Reached d'.tree ∧
      d.tree.Paved staging.dir.way d'.tree) := by
  have hb := staging.home_isBase
  have hpassable := Tree.passable_of_locate h.locate_staging.1
  have hclear : ∀ m ∈ staging.dir.way, ∀ c, d.tree.entry? m ≠ some (.file c) := fun m hm c => by
    rcases hr.reached with heq | ⟨hl, hdir⟩
    · rw [heq]
      rcases h.way m hm with hp | hdir
      · rw [Tree.entry?_prune hb, if_pos hp]
        simp
      · simp [hdir]
    · simp [Tree.directories_of_locate hl hdir m hm]
  refine ((Disk.attains_makeDirs_way hr.faultless hr.confined.sound hpassable hclear).and
    (Disk.maintains_makeDirs hb h.way d hr.confined)).mono (fun _ d' h' => ?_) fun _ _ h' => h'.1
  obtain ⟨⟨hf, hpaved⟩, hc⟩ := h'
  have hway : ∀ m ∈ staging.dir.way, d'.tree.entry? m = some .directory := fun m hm => by
    rw [hpaved.place, if_pos hm]
  exact ⟨hf, hc, ⟨Tree.locate_of_way hpassable hway, hway _ staging.dir.location_mem_way⟩, hpaved⟩

theorem maintains_save {c : Context} (hc : c.space = staging) (entries : Object) :
    Maintains (Ready staging (t.prune staging.home)) (c.save entries) := by
  subst hc
  intro d hr
  have hne : c.draft.location ≠ c.path.location := (Context.path_ne_draft _ _).symm
  have hreached : Leaves (c.save entries) d fun d' => c.space.Reached d'.tree := by
    refine Context.after_ofDisk (after_bind ((h.attains_makeDirs hr).mono (fun _ d₁ h₁ => ?_)
      fun _ _ => False.elim))
    obtain ⟨-, hc₁, hr₁, -⟩ := h₁
    refine after_bind ((Disk.after_write hc₁.sound c.draft _).mono (fun _ d₂ h₂ => ?_)
      fun _ d₂ h₂ => hr₁.of_spares h₂.2.2)
    obtain ⟨-, hs₂, hsp₂, -, he₂⟩ := h₂
    have hr₂ := hr₁.of_spares hsp₂
    exact (Disk.after_rename hs₂ he₂ hne).mono (fun _ _ h₃ => hr₂.of_spares h₃.2.2.1)
      fun _ _ h₃ => h₃.2 ▸ hr₂
  have hfaults : Leaves (c.save entries) d Disk.Faultless :=
    (Context.after_save hr.confined.sound c entries).mono (fun _ _ h' k => h'.1 ▸ hr.faultless k)
      fun _ _ h' k => h'.1 ▸ hr.faultless k
  have hconfined := c.maintains_save h.way entries d hr.confined
  exact ((hfaults.and hconfined).and hreached).mono (fun _ _ h' => ⟨h'.1.1, h'.1.2, .inr h'.2⟩)
    fun _ _ h' => ⟨h'.1.1, h'.1.2, .inr h'.2⟩

/-- The staging directory can be renamed once it is complete. -/
theorem attains_rename (hd : d.Faultless)
    (hc : Tree.Confined staging.home (t.prune staging.home) d.tree)
    (hr : staging.Reached d.tree) :
    Attains (Disk.rename staging.dir (staging.root.join id)) d (fun _ d' => d'.Faultless ∧
      d'.tree.Sound ∧ d'.tree = d.tree.move staging.home (staging.root.join id).location) := by
  have hb := staging.home_isBase
  obtain ⟨⟨htext, -⟩, hslash, -⟩ := h.of_file
  obtain ⟨htarget, hnone⟩ := h.locate_target
  have hout := h.not_isPrefix_target []
  rw [List.append_nil] at hout
  obtain ⟨hroot, hrootdir, -⟩ := Path.directory_of_locate_join
    staging.name.isFileName.slashless htext hr.1
  have hpassable := Tree.passable_of_locate htarget
  have hlocate := Path.locate_join_of_fits hslash hroot hrootdir hpassable.sayable
    (hpassable.fits_join hslash)
  have hfree : d.tree.entry? (staging.root.join id).location = none := by
    rw [hc.entry?_eq hb hout, Tree.entry?_prune hb, if_neg hout, hnone]
  have hrename := Tree.rename_directory hr.1 hlocate hr.2 hfree hb hout
  have hbt : isBase (staging.root.join id).location = false :=
    Tree.not_isBase_of_entry? (t := d.tree) (by simp [hfree])
  have hsound := hc.sound.move_directory hb hbt hout (hc.sound.parent_of_locate hlocate)
  exact (Disk.attains_change hd (Tree.rename · staging.dir _) _ hrename).imp
    fun _ _ h' => ⟨h'.1, h'.2 ▸ hsound, h'.2⟩

/-- If something fails without faults, nothing is left of the staging directory. -/
theorem after_build_faultless (hd : d.Faultless) (ht : d.tree = t.prune staging.home) :
    After (build staging (staging.root.join id) contexts) d (fun _ _ => True)
      (fun _ d' => d'.tree = t.prune staging.home) := by
  have hwrite := maintains_writeContexts (fun c entries hc => h.maintains_save hc entries) contexts
    d (h.ready hd ht)
  refine after_bind ((after_orDiscard (hwrite.mono (fun _ _ h' => h')
    fun _ d₁ h₁ => h₁.after_removeTree)).imp fun _ d₁ hr₁ => ?_)
  refine Context.after_ofDisk (after_bind ((h.attains_makeDirs hr₁).mono (fun _ d₂ h₂ => ?_)
    fun _ _ => False.elim))
  obtain ⟨hd₂, hc₂, hr₂, -⟩ := h₂
  exact (h.attains_rename hd₂ hc₂ hr₂).mono (fun _ _ _ => trivial) fun _ _ => False.elim

end Legacy.Pending

end DeviceBridge
