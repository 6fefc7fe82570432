import DeviceBridge.Proofs.Storage.Layout
import DeviceBridge.Proofs.Storage.Refinement

/-!
# DeviceBridge.Proofs.Storage.Conversion

A conversion loses nothing (`Legacy.convert_lossless`): afterwards the namespace holds the contexts
of the file and nothing else, each of them reads as in the file, and nothing else has changed. The
file system has to have room for the names of the drafts, and the file has to be reached without the
staging directory (`Legacy.convert_lossy`).
-/

namespace DeviceBridge

open Json (Value Object)
open Files

/-! ## Filling the staging directory -/

namespace Legacy

/-- The documents of some contexts have been collected in the staging directory, which is not made
before the first of them. -/
structure Filled (staging : Namespace) (base : Tree) (written : Object) (d : Disk) : Prop
    extends Ready staging base d where
  below : ∀ r, d.tree.entry? (staging.home ++ r) =
    if written = [] then none else layout written r

end Legacy

namespace Legacy.Pending

variable {location : Path} {id : String} {staging : Namespace} {contexts written : Object}
  {t : Tree} {d : Disk} (h : Pending location id staging contexts t)
  (hr : Tree.locate (t.prune staging.home) location = t.locate location)
include h hr

/-- If the file can be reached without the staging directory, so can the directory of the file. -/
theorem not_isPrefix_of_mem_way : ∀ m ∈ staging.root.way, ¬ staging.home <+: m := by
  have hb := staging.home_isBase
  obtain ⟨⟨-, hl, hd⟩, -⟩ := (h.of_confined (h.confined.prune hb) hr).of_file
  intro m hm hp
  have hdir := Tree.directories_of_locate hl hd m hm
  rw [Tree.entry?_prune hb, if_pos hp] at hdir
  cases hdir

/-- With the staging directory made, there is all that has been collected. -/
theorem attains_makeDirs_filled (hf : Filled staging (t.prune staging.home) written d) :
    Attains (Disk.makeDirs staging.dir) d (fun _ d' => d'.Faultless ∧
      Tree.Confined staging.home (t.prune staging.home) d'.tree ∧ staging.Reached d'.tree ∧
      ∀ r, d'.tree.entry? (staging.home ++ r) = layout written r) := by
  refine (h.attains_makeDirs hf.toReady).imp fun _ d' h' => ?_
  obtain ⟨hd', hc', hr', hpaved⟩ := h'
  refine ⟨hd', hc', hr', fun r => ?_⟩
  cases r with
  | nil =>
      rw [List.append_nil]
      exact hr'.2
  | cons file r =>
      have hoff : staging.home ++ file :: r ∉ staging.dir.way := fun hm => by
        obtain hm | hm := h.mem_way_iff.mp hm
        · exact h.not_isPrefix_of_mem_way hr _ hm (List.prefix_append _ _)
        · simp at hm
      rw [hpaved.place, if_neg hoff, hf.below]
      split
      · next hnil => rw [hnil]; cases r <;> rfl
      · rfl

/-- One document is collected after the other. -/
theorem attains_save {c : Context} (hc : c.space = staging) (hroom : c.HasRoom)
    (hnew : ∀ e ∈ written, e.1 ≠ c.name.text) (v : Value)
    (hf : Filled staging (t.prune staging.home) written d) :
    Attains (c.save (Legacy.contents c.name.text v)) d
      (fun _ => Filled staging (t.prune staging.home) (written ++ [(c.name.text, v)])) := by
  have hready := h.maintains_save hc (Legacy.contents c.name.text v) d hf.toReady
  subst hc
  have hne : c.draft.location ≠ c.path.location := (Context.path_ne_draft _ _).symm
  have hplace : Attains (c.save (Legacy.contents c.name.text v)) d fun _ d' =>
      ∀ r, d'.tree.entry? (c.space.home ++ r) = layout (written ++ [(c.name.text, v)]) r := by
    refine Context.attains_ofDisk (after_bind ((h.attains_makeDirs_filled hr hf).imp
      fun _ d₁ h₁ => ?_))
    obtain ⟨hd₁, hc₁, hr₁, he₁⟩ := h₁
    have hdraft : d₁.tree.entry? c.draft.location ≠ some .directory := by
      rw [c.draft_location, he₁, layout_draft]
      simp
    have hpath : d₁.tree.entry? c.path.location ≠ some .directory := by
      rw [c.path_location, he₁, layout_path]
      cases written.get? c.name.text <;> simp [document]
    refine (Disk.attains_replace hd₁ hc₁.sound _ (hroom.locate_draft hr₁) (hroom.locate_path hr₁)
      hdraft hpath hne).imp fun _ d₂ h₂ r => ?_
    obtain ⟨-, -, he₂⟩ := h₂
    rw [he₂, layout_append hnew, c.path_location, c.draft_location, he₁]
    simp only [List.append_cancel_left_eq]
    split
    · rfl
    · split
      · next hr => rw [hr, layout_draft]
      · rfl
  refine (hplace.and hready).mono (fun _ d' h' => ⟨h'.2, fun r => ?_⟩) fun _ _ h' => h'.1
  rw [h'.1, if_neg (by simp)]

/-- All documents are collected, each under its name. -/
theorem attains_writeContexts (hd : d.Faultless) (ht : d.tree = t.prune staging.home)
    (hordered : contexts.Ordered) (hnames : ∀ e ∈ contexts, isStorageName e.1.toList = true)
    (hroom : ∀ c : Context, c.space = staging → c.name.text ∈ contexts.keys → c.HasRoom) :
    Attains (writeContexts staging contexts) d
      (fun _ => Filled staging (t.prune staging.home) contexts) := by
  have hstart : Filled staging (t.prune staging.home) [] d := by
    refine ⟨h.ready hd ht, fun r => ?_⟩
    rw [ht, Tree.entry?_prune staging.home_isBase, if_pos (List.prefix_append _ _), if_pos rfl]
  unfold writeContexts
  refine after_bind ((after_forM (I := fun _ => (· = d)) (fun _ e hp d₁ h₁ => ?_) rfl).imp
    fun _ d₁ h₁ => after_forM (I := Filled staging (t.prune staging.home))
      (fun written e hp d₂ h₂ => ?_) (h₁ ▸ hstart))
  all_goals
    obtain ⟨name, v⟩ := e
    have hmem : (name, v) ∈ contexts := hp.subset (by simp)
    obtain ⟨n, rfl⟩ : ∃ n : StorageName, n.text = name := ⟨⟨name, hnames _ hmem⟩, rfl⟩
    dsimp only
  · rw [n.parse_text]
    exact h₁
  · rw [staging.context_text n]
    exact after_bind (after_pure (h.attains_save hr (c := ⟨staging, n⟩) rfl
      (hroom _ rfl (List.mem_map.mpr ⟨_, hmem, rfl⟩)) (hordered.ne_of_isPrefix hp) v h₂))

end Legacy.Pending

/-! ## The conversion -/

namespace Legacy

/-- A file of contexts that can be converted into a namespace. -/
structure Convertible (location : Path) (n : Namespace) (contexts : Object) (t : Tree) : Prop where
  pending : Pending location n.name.text n.staging contexts t
  names : ∀ name ∈ contexts.keys, isStorageName name.toList = true
  floatFree : (Value.object contexts).FloatFree
  /-- The file system has room for the names of the documents and of their drafts. -/
  room : ∀ c : Context, c.space = n → c.name.text ∈ contexts.keys → c.staged.HasRoom
  /-- The way to the file does not lead through the staging directory. -/
  reached : Tree.locate (t.prune n.staging.home) location = t.locate location

/-- From one tree to another the directory of a namespace has come to hold documents and nothing
else, the staging directory has gone, and whatever lies elsewhere is as it was. -/
structure Placed (n : Namespace) (contexts : Object) (t t' : Tree) : Prop where
  sound : t'.Sound
  place : ∀ l, t'.entry? l =
    if n.home <+: l then layout contexts (l.drop n.home.length)
    else if n.staging.home <+: l then none else t.entry? l

/-- What a conversion makes of a tree. -/
structure Converted (location : Path) (n : Namespace) (contexts : Object) (t : Tree) (d : Disk) :
    Prop extends Placed n contexts t d.tree where
  /-- The file reads as it did. -/
  file : d.tree.read location = t.read location
  /-- Each context of the file is a context of the namespace and reads as in the file. -/
  loaded : ∀ name v, contexts.get? name = some v →
    ∃ c d', n.context name = .ok c ∧ c.load d = .ok (contents name v) d' ∧ d'.tree = d.tree
  /-- No other context has a document. -/
  absent : ∀ c : Context, c.space = n → contexts.get? c.name.text = none →
    d.tree.entry? c.path.location = none

variable {location : Path} {n : Namespace} {contexts : Object} {t t' : Tree} {d : Disk}

/-- What stood in an object within the limit makes a document within the limit. -/
theorem plain_contents (h : (Value.object contexts).Plain Json.nestingLimit) {name : String}
    {v : Value} (hv : contexts.get? name = some v) :
    (Value.object (contents name v)).Plain Json.nestingLimit := by
  have hplain := h.get? hv
  cases v with
  | object entries => exact hplain.mono (Nat.sub_le _ _)
  | null | bool b | number k | string s | array items =>
      exact ⟨by decide, List.pairwise_singleton _ _, hplain, trivial⟩

/-- There is a document for each context and no other. -/
theorem Placed.entry?_path (hp : Placed n contexts t t') {c : Context} (hc : c.space = n) :
    t'.entry? c.path.location = (contexts.get? c.name.text).map (document c.name.text) := by
  rw [hp.place, c.path_location, hc, if_pos (List.prefix_append _ _), List.drop_left, layout_path]

namespace Convertible

section
variable (h : Convertible location n contexts t)
include h

theorem plain : (Value.object contexts).Plain Json.nestingLimit := by
  obtain ⟨s, -, hv⟩ := h.pending.text
  exact Json.plain_of_readValue hv h.floatFree

/-- The staging directory becomes that of the namespace. -/
theorem attains_build (hd : d.Faultless) (ht : d.tree = t.prune n.staging.home) :
    Attains (build n.staging (n.staging.root.join n.name.text) contexts) d
      (fun _ d' => d'.Faultless ∧ Placed n contexts t d'.tree) := by
  have hb := n.staging.home_isBase
  have hwrite := h.pending.attains_writeContexts h.reached hd ht h.plain.2.1
    (fun e he => h.names _ (List.mem_map.mpr ⟨e, he, rfl⟩))
    fun c hc => by
      obtain ⟨space, name⟩ := c
      obtain rfl : space = n.staging := hc
      exact h.room ⟨n, name⟩ rfl
  refine after_bind ((after_orDiscard (hwrite.mono (fun _ _ h' => h') fun _ _ =>
    False.elim)).imp fun _ d₁ h₁ => ?_)
  refine Context.attains_ofDisk (after_bind
    ((h.pending.attains_makeDirs_filled h.reached h₁).imp fun _ d₂ h₂ => ?_))
  obtain ⟨hd₂, hc₂, hr₂, he₂⟩ := h₂
  refine (h.pending.attains_rename hd₂ hc₂ hr₂).imp fun _ d₃ h₃ => ?_
  obtain ⟨hd₃, hs₃, ht₃⟩ := h₃
  refine ⟨hd₃, hs₃, fun l => ?_⟩
  have hmove := hc₂.sound.entry?_move hb n.home_isBase l
  rw [he₂] at hmove
  rw [ht₃]
  refine hmove.trans ?_
  split
  · rfl
  · split
    · rfl
    · next hl => rw [hc₂.entry?_eq hb hl, Tree.entry?_prune hb, if_neg hl]

section
variable (hp : Placed n contexts t t')
include hp

/-- What was there without the staging directory is there still. -/
theorem kept {l : Location} {e : Entry}
    (he : Tree.entry? (t.prune n.staging.home) l = some e) : t'.entry? l = some e := by
  rw [Tree.entry?_prune n.staging.home_isBase] at he
  split at he
  · cases he
  · next hout =>
    have hin : ¬ n.home <+: l := h.pending.not_isPrefix_of_entry? (by simp [he])
    rw [hp.place, if_neg hin, if_neg hout, he]

theorem locate_kept {p : Path} {l : Location}
    (hl : Tree.locate (t.prune n.staging.home) p = .ok l) : t'.locate p = .ok l :=
  Tree.locate_of_directories (fun _ => h.kept hp) hl

theorem read_eq : t'.read location = t.read location := by
  obtain ⟨s, hr, -⟩ := h.pending.text
  obtain ⟨hl, hf⟩ := Tree.read_eq_ok_iff.mp hr
  rw [hr]
  refine Tree.read_eq_ok_iff.mpr ⟨h.locate_kept hp (h.reached.trans hl), h.kept hp ?_⟩
  rw [Tree.entry?_prune n.staging.home_isBase, if_neg h.pending.not_isPrefix_file, hf]

/-- The directory of the namespace is there. -/
theorem reached_of_placed : n.Reached t' := by
  obtain ⟨⟨-, hl, hd⟩, -⟩ := (h.pending.of_confined
    (h.pending.confined.prune n.staging.home_isBase) h.reached).of_file
  have htarget := Tree.passable_of_locate h.pending.locate_target.1
  have hslash := n.name.isFileName.slashless
  refine ⟨Path.locate_join_of_fits hslash (h.locate_kept hp hl) (h.kept hp hd) htarget.sayable
    (htarget.fits_join hslash), ?_⟩
  rw [hp.place, if_pos List.prefix_rfl, List.drop_length]
  rfl

/-- A context of the file is shown as what stood in the file. -/
theorem shows {c : Context} (hc : c.space = n) {v : Value}
    (hv : contexts.get? c.name.text = some v) : c.Shows t' (contents c.name.text v) := by
  subst hc
  have hkey : c.name.text ∈ contexts.keys := Dictionary.mem_keys_iff.mpr (by simp [hv])
  have hlocate := (Context.HasRoom.of_staged (h.room c rfl hkey)).locate_path
    (h.reached_of_placed hp)
  refine .inr ⟨_, Tree.read_eq_ok_iff.mpr ⟨hlocate, ?_⟩,
    Json.readValue_pretty_of_plain (plain_contents h.plain hv)⟩
  rw [hp.entry?_path rfl, hv]
  rfl

end

end

end Convertible

/-- A conversion without faults succeeds, and nothing is lost by it. -/
theorem convert_lossless (h : Convertible location n contexts d.tree) (hd : d.Faultless) :
    ∃ r d', convert location d = .ok r d' ∧ r.converted = true ∧
      Namespace.parse r.outputDir r.id = .ok n ∧ Converted location n contexts d.tree d' := by
  obtain ⟨d₁, hd₁, ht₁, hx₁⟩ := h.pending.convert_eq hd rfl
  obtain ⟨_, d', hx, hd', hp⟩ := (h.attains_build hd₁ ht₁).exists_ok
  refine ⟨⟨n.root, n.name.text, true⟩, d', hx₁.trans (bind_eq_of_ok hx), rfl, n.parse_text, hp,
    h.read_eq hp, fun name v hv => ?_, fun c hc hv => ?_⟩
  · have hname := h.names name (Dictionary.mem_keys_iff.mpr (by simp [hv]))
    obtain ⟨entries, d'', hload, -, ht, rfl⟩ := (Context.attains_load hd'
      (h.shows hp (c := ⟨n, ⟨name, hname⟩⟩) rfl hv)).exists_ok
    exact ⟨_, d'', n.context_text ⟨name, hname⟩, hload, ht⟩
  · rw [hp.entry?_path hc, hv]
    rfl

/-! ## A file beside a staging directory -/

/-- A file that contexts have been printed to waits for its conversion. -/
theorem Pending.of_pretty (hs : t.Sound) (hplain : (Value.object contexts).Plain Json.nestingLimit)
    (hsplit : (Legacy.split location).toOption = some (n.root, n.name.text))
    (hlocate : ∀ p ∈ [location, n.dir, n.staging.dir], (t.locate p).toOption = some p.location)
    (hfile : t.entry? location.location = some (.file (.text (Value.object contexts).pretty)))
    (htarget : t.entry? n.home = none) (hstaging : t.entry? n.staging.home = some .directory) :
    Pending location n.name.text n.staging contexts t := by
  replace hlocate p hp := eq_ok_of_toOption (hlocate p hp)
  refine ⟨hs, eq_ok_of_toOption hsplit, rfl, ⟨_, ?_, Json.readValue_pretty_of_plain hplain⟩, ?_, ?_⟩
  · exact Tree.read_eq_ok_iff.mpr ⟨hlocate _ (by simp), hfile⟩
  · exact Tree.stat_of_none (hlocate n.dir (by simp)) htarget
  · exact .inl (Tree.stat_of_directory (hlocate _ (by simp)) hstaging)

/-- A file with a text beside a staging directory that an earlier call has left. -/
def leftover (text : String) : Tree :=
  [(["/", "v"], .directory), (["/", "v", "c.converting"], .directory),
    (["/", "v", "c.converting", "old.json"], .file (.text "\x7b\x7d")),
    (["/", "v", "c.json"], .file (.text text))]

theorem sound_leftover (text : String) : (leftover text).Sound := by
  refine Tree.sound_of_entries ?_ ?_
  · have hkeys : [["/", "v"], ["/", "v", "c.converting"], ["/", "v", "c.converting", "old.json"],
        ["/", "v", "c.json"]].Pairwise (· < ·) := by decide
    exact (List.pairwise_map (f := Prod.fst) (l := leftover text)).mp hkeys
  · intro e he
    simp only [leftover, List.mem_cons, List.not_mem_nil, or_false] at he
    rcases he with rfl | rfl | rfl | rfl <;> rfl

/-- An object, and a value that is none. -/
def mixed : Object := [("a", .object [("k", .bool true)]), ("b", .null)]

theorem plain_mixed : (Value.object mixed).Plain Json.nestingLimit :=
  ⟨by decide, by decide, ⟨by decide, by decide, trivial, trivial⟩, trivial, trivial⟩

theorem isStorageName_leftover : isStorageName "c".toList = true := by decide

/-- The namespace beside such a file, by a path of the directory that both lie in. -/
def besideLeftover (root : String) : Namespace := ⟨⟨root⟩, ⟨"c", isStorageName_leftover⟩⟩

theorem room_mixed {root : String}
    (ha : (Context.staged ⟨besideLeftover root, ⟨"a", by decide⟩⟩).HasRoom)
    (hb : (Context.staged ⟨besideLeftover root, ⟨"b", by decide⟩⟩).HasRoom) (c : Context)
    (hc : c.space = besideLeftover root) (hk : c.name.text ∈ mixed.keys) : c.staged.HasRoom := by
  obtain ⟨space, name⟩ := c
  subst hc
  have hname : name.text = "a" ∨ name.text = "b" := by simpa [mixed, Dictionary.keys] using hk
  rcases hname with h | h
  · obtain rfl : name = ⟨"a", by decide⟩ := StorageName.ext h
    exact ha
  · obtain rfl : name = ⟨"b", by decide⟩ := StorageName.ext h
    exact hb

theorem convert_lossless_leftover :
    let n := besideLeftover "/v"
    let d : Disk := { tree := leftover (Value.object mixed).pretty }
    (Convertible ⟨"/v/c.json"⟩ n mixed d.tree ∧ d.Faultless) ∧
      ∃ r d', convert ⟨"/v/c.json"⟩ d = .ok r d' ∧ r.converted = true ∧
        Namespace.parse r.outputDir r.id = .ok n ∧ Converted ⟨"/v/c.json"⟩ n mixed d.tree d' := by
  intro n d
  have hpending : Pending ⟨"/v/c.json"⟩ n.name.text n.staging mixed d.tree :=
    .of_pretty (sound_leftover _) plain_mixed (by decide +kernel) (by decide +kernel) rfl
      (by decide +kernel) (by decide +kernel)
  have hdirect : (Tree.locate (d.tree.prune n.staging.home) ⟨"/v/c.json"⟩).toOption =
      some (Path.location ⟨"/v/c.json"⟩) := by decide +kernel
  have h : Convertible ⟨"/v/c.json"⟩ n mixed d.tree :=
    ⟨hpending, by decide, plain_mixed.floatFree,
      room_mixed ⟨by decide +kernel, by decide +kernel⟩ ⟨by decide +kernel, by decide +kernel⟩,
      (eq_ok_of_toOption hdirect).trans hpending.file.1.symm⟩
  have hd : d.Faultless := fun _ => rfl
  exact ⟨⟨h, hd⟩, convert_lossless h hd⟩

/-! ## What cannot be converted -/

/-- Where all contexts have been written, there was room for the drafts. -/
theorem after_writeContexts_size (space : Namespace) (contexts : Object) :
    After (writeContexts space contexts) d
      (fun _ _ => ∀ e ∈ contexts, e.1.utf8ByteSize + 9 ≤ nameLimit) fun _ _ => True := by
  unfold writeContexts
  refine after_bind (.intro (fun _ d₁ _ => ?_) fun _ _ _ => trivial)
  refine after_forM (I := fun (written : Object) _ =>
    ∀ e ∈ written, e.1.utf8ByteSize + 9 ≤ nameLimit) (fun written e _ d₂ h₂ => ?_) (by simp)
  obtain ⟨name, v⟩ := e
  dsimp only
  cases hc : space.context name with
  | error e => exact after_bind (after_throw trivial)
  | ok c =>
      refine after_bind (after_pure ((c.after_save_size _).imp fun _ _ hsize => ?_))
      rw [(Namespace.of_context_eq_ok hc).2] at hsize
      exact List.forall_mem_append.mpr ⟨h₂, List.forall_mem_singleton.mpr hsize⟩

theorem Pending.size_le_of_convert (h : Pending location n.name.text n.staging contexts d.tree)
    (hd : d.Faultless) {r : Conversion} {d' : Disk} (hx : convert location d = .ok r d') :
    ∀ e ∈ contexts, e.1.utf8ByteSize + 9 ≤ nameLimit := by
  obtain ⟨d₁, -, -, hx₁⟩ := h.convert_eq hd rfl
  have hwrite : After (orDiscard n.staging (writeContexts n.staging contexts)) d₁
      (fun _ _ => ∀ e ∈ contexts, e.1.utf8ByteSize + 9 ≤ nameLimit) fun _ _ => True :=
    after_orDiscard ((after_writeContexts_size _ _).mono (fun _ _ hsize => hsize)
      fun _ _ _ => .intro (fun _ _ _ => trivial) fun _ _ _ => trivial)
  have hrest : After (do
      build n.staging (n.staging.root.join n.name.text) contexts
      return ⟨n.staging.root, n.name.text, true⟩ : Storing Conversion) d₁
      (fun _ _ => ∀ e ∈ contexts, e.1.utf8ByteSize + 9 ≤ nameLimit) fun _ _ => True :=
    after_bind (after_bind (hwrite.imp fun _ _ hsize =>
      .intro (fun _ _ _ => after_pure hsize) fun _ _ _ => trivial))
  exact hrest.of_ok (hx₁.symm.trans hx)

/-- Where a context can be read in the end, the way to the namespace did not lead through the
staging directory. -/
theorem Converted.not_isPrefix_of_mem_way (h : Converted location n contexts t d)
    (hp : Pending location n.name.text n.staging contexts t) {name : String} {v : Value}
    (hv : contexts.get? name = some v) (hne : contents name v ≠ []) :
    ∀ m ∈ n.root.way, ¬ n.staging.home <+: m := by
  intro m hm hpre
  obtain ⟨c, d', hc, hload, -⟩ := h.loaded name v hv
  obtain ⟨rfl, -⟩ := Namespace.of_context_eq_ok hc
  obtain ⟨-, hnil⟩ | ⟨s, hr, -⟩ := ((Context.after_load c).of_ok hload).2.2
  · exact hne hnil
  · obtain ⟨⟨htext, -⟩, -⟩ := hp.of_file
    obtain ⟨hspace, -⟩ := Path.directory_of_locate_join c.isFileName.slashless
      c.space.dir_text_ne_empty (Tree.read_eq_ok_iff.mp hr).1
    obtain ⟨hroot, hd, -⟩ := Path.directory_of_locate_join c.space.name.isFileName.slashless
      htext hspace
    have hgone := h.place m
    have hout : ¬ c.space.home <+: m := by
      rintro ⟨l, rfl⟩
      have heq : c.space.staging = c.space := Namespace.eq_of_home_isPrefix rfl hpre
      exact stagingName_ne _ (congrArg (·.name.text) heq)
    rw [if_neg hout, if_pos hpre, Tree.directories_of_locate hroot hd m hm] at hgone
    cases hgone

/-- A context whose document has a name that fits a file, but whose draft does not. -/
def overlong : Object := [(Storable.longName.text, .null)]

theorem plain_overlong : (Value.object overlong).Plain Json.nestingLimit :=
  ⟨by decide, List.pairwise_singleton _ _, trivial, trivial⟩

/-- Not every file can be converted that waits for it: the names may leave no room for the drafts,
and where the location leads through the staging directory, so does the root of the namespace, which
is out of reach then. -/
theorem convert_lossy :
    (¬ ∀ (location : Path) (n : Namespace) (contexts : Object) (d : Disk), d.Faultless →
      Pending location n.name.text n.staging contexts d.tree →
      (∀ name ∈ contexts.keys, isStorageName name.toList = true) →
      (Value.object contexts).FloatFree →
      Tree.locate (d.tree.prune n.staging.home) location = d.tree.locate location →
      ∃ r d', convert location d = .ok r d' ∧ r.converted = true ∧
        Namespace.parse r.outputDir r.id = .ok n ∧ Converted location n contexts d.tree d') ∧
    (¬ ∀ (location : Path) (n : Namespace) (contexts : Object) (d : Disk), d.Faultless →
      Pending location n.name.text n.staging contexts d.tree →
      (∀ name ∈ contexts.keys, isStorageName name.toList = true) →
      (Value.object contexts).FloatFree →
      (∀ c : Context, c.space = n → c.name.text ∈ contexts.keys → c.staged.HasRoom) →
      ∃ r d', convert location d = .ok r d' ∧ r.converted = true ∧
        Namespace.parse r.outputDir r.id = .ok n ∧ Converted location n contexts d.tree d') := by
  refine ⟨fun hall => ?_, fun hall => ?_⟩
  · let n := besideLeftover "/v"
    let d : Disk := { tree := leftover (Value.object overlong).pretty }
    have hd : d.Faultless := fun _ => rfl
    have hpending : Pending ⟨"/v/c.json"⟩ n.name.text n.staging overlong d.tree :=
      .of_pretty (sound_leftover _) plain_overlong (by decide +kernel) (by decide +kernel) rfl
        (by decide +kernel) (by decide +kernel)
    have hdirect : (Tree.locate (d.tree.prune n.staging.home) ⟨"/v/c.json"⟩).toOption =
        some (Path.location ⟨"/v/c.json"⟩) := by decide +kernel
    obtain ⟨r, d', hx, -⟩ := hall ⟨"/v/c.json"⟩ n overlong d hd hpending
      (List.forall_mem_singleton.mpr Storable.longName.valid) plain_overlong.floatFree
      ((eq_ok_of_toOption hdirect).trans hpending.file.1.symm)
    have hsize := hpending.size_le_of_convert hd hx (Storable.longName.text, .null)
      List.mem_cons_self
    rw [Storable.utf8ByteSize_longName] at hsize
    exact absurd hsize (by decide)
  · let n := besideLeftover "/v/c.converting/.."
    let d : Disk := { tree := leftover (Value.object mixed).pretty }
    have hpending : Pending ⟨"/v/c.converting/../c.json"⟩ n.name.text n.staging mixed d.tree :=
      .of_pretty (sound_leftover _) plain_mixed (by decide +kernel) (by decide +kernel)
        (by decide +kernel) (by decide +kernel) (by decide +kernel)
    have hroom : ∀ c : Context, c.space = n → c.name.text ∈ mixed.keys → c.staged.HasRoom :=
      room_mixed ⟨by decide +kernel, by decide +kernel⟩ ⟨by decide +kernel, by decide +kernel⟩
    obtain ⟨r, d', hx, -, -, hconverted⟩ := hall ⟨"/v/c.converting/../c.json"⟩ n mixed d
      (fun _ => rfl) hpending (by decide) plain_mixed.floatFree hroom
    have hget : mixed.get? "a" = some (.object [("k", .bool true)]) := rfl
    exact hconverted.not_isPrefix_of_mem_way hpending hget (by simp [contents])
      ["/", "v", "c.converting"] (by decide +kernel) (by decide +kernel)

end Legacy

end DeviceBridge
