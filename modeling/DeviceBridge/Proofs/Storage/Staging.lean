import DeviceBridge.Proofs.Files.Parent
import DeviceBridge.Proofs.Files.Subtree
import DeviceBridge.Proofs.Storage.Place
import DeviceBridge.Storage.Legacy

/-!
# DeviceBridge.Proofs.Storage.Staging

A file of contexts that waits for its conversion (`Legacy.Pending`), and what a conversion can leave
if it is broken off: as long as the staging directory has not been renamed, nothing has changed
outside of it (`Legacy.after_convert`), and the file still waits there if it can be reached without
the staging directory (`Legacy.Pending.of_confined`).
-/

namespace DeviceBridge

open Json (Value Object)
open Files

namespace Storing

theorem maintains_ofExcept {α : Type} {P : Disk → Prop} (x : Except StorageError α) :
    Maintains P (ofExcept x) := by
  cases x with
  | ok a => exact maintains_pure a
  | error e => exact maintains_throw e

end Storing

/-- Every namespace is found by its name. -/
theorem Namespace.parse_text (n : Namespace) : parse n.root n.name.text = .ok n := by
  unfold parse
  rw [StorageName.parse_text]
  rfl

theorem Namespace.context_text (n : Namespace) (name : StorageName) :
    n.context name.text = .ok ⟨n, name⟩ := by
  unfold context
  rw [StorageName.parse_text]
  rfl

theorem Namespace.of_context_eq_ok {space : Namespace} {name : String} {c : Context}
    (h : space.context name = .ok c) : c.space = space ∧ c.name.text = name := by
  unfold context StorageName.parse at h
  split at h
  · obtain rfl := Except.ok.inj h
    exact ⟨rfl, rfl⟩
  · contradiction

theorem Namespace.of_parse_eq_ok {root : Path} {name : String} {space : Namespace}
    (h : parse root name = .ok space) : space.root = root ∧ space.name.text = name := by
  unfold parse StorageName.parse at h
  split at h
  · obtain rfl := Except.ok.inj h
    exact ⟨rfl, rfl⟩
  · contradiction

/-- Writing beside a document and renaming into its place stays within its namespace. -/
theorem Context.maintains_replace (c : Context) (base : Tree) (x : Content) :
    Maintains (fun d => Tree.Confined c.space.home base d.tree)
      (do Disk.write c.draft x; Disk.rename c.draft c.path) := by
  intro d hd
  have hpath : c.path.location ≠ c.space.home := fun heq =>
    path_not_isPrefix_home rfl ⟨[], (List.append_nil _).trans heq⟩
  have hdraft : c.draft.location ≠ c.space.home := fun heq =>
    draft_not_isPrefix_home rfl ⟨[], (List.append_nil _).trans heq⟩
  refine after_bind (((Disk.after_write hd.sound c.draft _).and
    (Disk.maintains_write c.space.home_isBase c.home_isPrefix_draft hdraft _ d hd)).mono
    (fun _ d₂ h₂ => ?_) fun _ _ h => h.2)
  obtain ⟨⟨-, -, -, -, he₂⟩, hc₂⟩ := h₂
  refine (Disk.after_change (·.rename c.draft c.path) fun _ t => t).mono
    (fun _ d₃ h₃ => ?_) fun _ d₃ h₃ => ?_
  · exact hc₂.rename_file he₂ (path_ne_draft _ _).symm c.home_isPrefix_draft
      c.home_isPrefix_path hpath h₃.2
  · obtain ⟨-, ⟨-, ht⟩ | ⟨_, _, -, -, ht⟩⟩ := h₃ <;> exact ht ▸ hc₂

/-- Saving a document stays within its namespace. -/
theorem Context.maintains_save {c : Context} {base : Tree}
    (hway : ∀ m ∈ c.space.dir.way, c.space.home <+: m ∨ base.entry? m = some .directory)
    (entries : Object) :
    Maintains (fun d => Tree.Confined c.space.home base d.tree) (c.save entries) := fun d hd =>
  after_ofDisk (after_bind ((Disk.maintains_makeDirs c.space.home_isBase hway d hd).imp
    fun _ d₁ h₁ => c.maintains_replace base _ d₁ h₁))

namespace Legacy

/-! ## Writing into the staging directory -/

section
variable {α : Type} {space : Namespace} {d : Disk}

theorem maintains_writeContexts {P : Disk → Prop}
    (h : ∀ (c : Context) (entries : Object), c.space = space → Maintains P (c.save entries))
    (contexts : Object) : Maintains P (writeContexts space contexts) := by
  unfold writeContexts
  refine maintains_bind (maintains_forM fun e _ => ?_) fun _ => maintains_forM fun e _ => ?_
  · exact maintains_bind (Storing.maintains_ofExcept _) fun _ => maintains_pure _
  · obtain ⟨name, v⟩ := e
    dsimp only
    cases hc : space.context name with
    | error e => exact fun d hd => after_bind (after_throw hd)
    | ok c => exact h c _ (Namespace.of_context_eq_ok hc).1

section
variable {x : Storing α} {d' : Disk}

theorem orDiscard_eq_ok {a : α} (hx : x d = .ok a d') : orDiscard space x d = .ok a d' := by
  unfold orDiscard
  rw [hx]

/-- When work fails, the namespace is taken away from what it has left. -/
theorem orDiscard_eq_error {e : StorageError} (hx : x d = .error e d') :
    orDiscard space x d = .error e (stateAfter (Disk.removeTree space.dir) d') := by
  unfold orDiscard stateAfter
  rw [hx]
  dsimp only
  cases Disk.removeTree space.dir d' <;> rfl

end

theorem after_orDiscard {x : Storing α} {done : α → Disk → Prop}
    {failed : StorageError → Disk → Prop}
    (h : After x d done fun e d₁ => Leaves (Disk.removeTree space.dir) d₁ (failed e)) :
    After (orDiscard space x) d done failed := by
  unfold After
  cases hx : x d with
  | ok a d₁ =>
      rw [orDiscard_eq_ok hx]
      exact h.of_ok hx
  | error e d₁ =>
      rw [orDiscard_eq_error hx]
      exact (h.of_error hx).stateAfter

end

/-- Of the contexts of a namespace, those that have been written hold what has been written, and
the others have no document. -/
def Collected (space : Namespace) (written : Object) (t : Tree) : Prop :=
  ∀ c : Context, c.space = space →
    match written.get? c.name.text with
    | some v => t.read c.path = .ok (Value.object (contents c.name.text v)).pretty
    | none => c.text? t = none

theorem Collected.untouched {space : Namespace} {written : Object} {t t' : Tree}
    (h : Collected space written t) (hu : space.Untouched t t') : Collected space written t' := by
  intro c hc
  have hcollected := h c hc
  cases hv : written.get? c.name.text with
  | some v =>
      rw [hv] at hcollected
      exact (hu c hc).read _ hcollected
  | none =>
      rw [hv] at hcollected
      exact (hu c hc).text.trans hcollected

/-- One more document is written beside those of other contexts. -/
theorem Collected.append {c : Context} {written : Object} {t t' : Tree} {v : Value}
    (h : Collected c.space written t) (hnew : ∀ e ∈ written, e.1 ≠ c.name.text)
    (hothers : c.SparesOthers t t')
    (hread : t'.read c.path = .ok (Value.object (contents c.name.text v)).pretty) :
    Collected c.space (written ++ [(c.name.text, v)]) t' := by
  intro c' hc'
  rw [Dictionary.get?_append, Dictionary.get?_cons, Dictionary.get?_nil]
  by_cases heq : c' = c
  · have hnone : written.get? c.name.text = none := Option.eq_none_iff_forall_ne_some.mpr
      fun w hw => hnew _ (Dictionary.mem_of_get? hw) rfl
    subst heq
    rw [hnone, if_pos rfl]
    exact hread
  · have hname : c'.name.text ≠ c.name.text := fun hname => by
      obtain ⟨space, name⟩ := c
      obtain ⟨space', name'⟩ := c'
      obtain rfl : space' = space := hc'
      exact heq (congrArg _ (StorageName.ext hname))
    have hcollected := h c' hc'
    have hu := hothers c' hc' heq
    rw [if_neg hname, Option.or_none]
    cases hv : written.get? c'.name.text with
    | some w =>
        rw [hv] at hcollected
        exact hu.read _ hcollected
    | none =>
        rw [hv] at hcollected
        exact hu.text.trans hcollected

/-- One document is written after the other. -/
theorem after_writeContexts_collected {space : Namespace} {contexts : Object} {d : Disk}
    (hs : d.tree.Sound) (hempty : Collected space [] d.tree) (hordered : contexts.Ordered) :
    After (writeContexts space contexts) d
      (fun _ d' => d'.tree.Sound ∧ Collected space contexts d'.tree) fun _ _ => True := by
  unfold writeContexts
  refine after_bind ((after_forM (I := fun _ => (· = d)) (fun _ e _ d₁ h₁ => ?_) rfl).imp
    fun _ d₁ h₁ => after_forM (I := fun written (d : Disk) =>
        d.tree.Sound ∧ Collected space written d.tree)
      (fun written e hp d₂ h₂ => ?_) (h₁ ▸ ⟨hs, hempty⟩))
  all_goals
    obtain ⟨name, v⟩ := e
    dsimp only
  · cases StorageName.parse name with
    | error e => exact after_throw trivial
    | ok n => exact h₁
  · cases hc : space.context name with
    | error e => exact after_bind (after_throw trivial)
    | ok c =>
        obtain ⟨rfl, rfl⟩ := Namespace.of_context_eq_ok hc
        refine after_bind (after_pure ((c.after_save h₂.1 _).mono (fun _ d₃ h₃ => ?_)
          fun _ _ _ => trivial))
        exact ⟨h₃.2.1, h₂.2.append (hordered.ne_of_isPrefix hp) h₃.2.2.1 h₃.2.2.2⟩

/-! ## A file that waits for its conversion -/

/-- A location leads to a file of contexts, and the namespace for them is missing. -/
structure Pending (location : Path) (id : String) (staging : Namespace) (contexts : Object)
    (t : Tree) : Prop where
  sound : t.Sound
  split : Legacy.split location = .ok (staging.root, id)
  name : staging.name.text = stagingName id
  text : ∃ s, t.read location = .ok s ∧ Json.readValue s = .ok (.object contexts)
  target : t.stat (staging.root.join id) = .error .notFound
  staging : t.stat staging.dir = .ok .directory ∨ t.stat staging.dir = .error .notFound

theorem stagingName_ne (id : String) : stagingName id ≠ id := fun heq => by
  have hlen := congrArg String.length heq
  unfold stagingName at hlen
  rw [String.length_append] at hlen
  simp at hlen

theorem mem_of_mem_dropExtension {name : List Char} {c : Char}
    (h : c ∈ Path.dropExtension name) : c ∈ name := by
  unfold Path.dropExtension at h
  split at h
  · next heq =>
    have hc := List.mem_reverse.mp h
    have hmem : c ∈ name.reverse.dropWhile (· ≠ '.') := by
      rw [heq]
      exact List.mem_cons_of_mem _ hc
    exact List.mem_reverse.mp ((List.dropWhile_sublist _).subset hmem)
  · exact h

/-- The directory that a file is split off from is there, and the file lies in it. -/
theorem root_of_split {location root : Path} {id : String} {t : Tree}
    (hs : split location = .ok (root, id)) (hl : t.locate location = .ok location.location)
    (hf : t.entry? location.location ≠ some .directory) :
    (root.text ≠ "" ∧ t.locate root = .ok root.location ∧
      t.entry? root.location = some .directory) ∧
      '/' ∉ id.toList ∧ ∃ name, location.location = root.location ++ [name] := by
  unfold split at hs
  cases hstem : location.stem? with
  | none => rw [hstem] at hs; contradiction
  | some stem =>
      rw [hstem] at hs
      unfold Path.stem? at hstem
      obtain ⟨name, hname, rfl⟩ := Option.map_eq_some_iff.mp hstem
      obtain ⟨hfile, hparent⟩ := Path.locate_parent? hl hf hname
      have hslash : '/' ∉ (String.ofList (Path.dropExtension name)).toList := by
        rw [String.toList_ofList]
        exact fun h => hfile.slashless (mem_of_mem_dropExtension h)
      obtain ⟨hp, hloc⟩ | ⟨dir, hp, htext, hdir, hd, hloc⟩ := hparent
      · -- Without anything before the name, the file lies in the working directory.
        rw [hp] at hs
        obtain ⟨rfl, rfl⟩ := Prod.mk.inj (Except.ok.inj hs)
        have hbase : t.entry? [] = some .directory := Tree.entry?_of_isBase rfl
        refine ⟨⟨by decide, Tree.locate_of_way ?_ ?_, hbase⟩, hslash, _, hloc⟩
        · exact ⟨by decide, by decide, by decide⟩
        · have hway : Path.way ⟨"."⟩ = [[]] := by decide
          rw [hway]
          simpa using hbase
      · rw [hp] at hs
        simp only [htext, if_false] at hs
        obtain ⟨rfl, rfl⟩ := Prod.mk.inj (Except.ok.inj hs)
        exact ⟨⟨htext, hdir, hd⟩, hslash, _, hloc⟩

namespace Pending

variable {location : Path} {id : String} {staging : Namespace} {contexts : Object} {t t' : Tree}

section
variable (h : Pending location id staging contexts t)
include h

theorem file : t.locate location = .ok location.location ∧
    ∃ s, t.entry? location.location = some (.file (.text s)) := by
  obtain ⟨s, hr, -⟩ := h.text
  exact ⟨(Tree.read_eq_ok_iff.mp hr).1, s, (Tree.read_eq_ok_iff.mp hr).2⟩

theorem of_file : (staging.root.text ≠ "" ∧ t.locate staging.root = .ok staging.root.location ∧
    t.entry? staging.root.location = some .directory) ∧
    '/' ∉ id.toList ∧ ∃ name, location.location = staging.root.location ++ [name] := by
  obtain ⟨hl, s, hf⟩ := h.file
  exact root_of_split h.split hl (by simp [hf])

theorem isFileName : IsFileName id.toList := by
  obtain ⟨⟨-, hl, hd⟩, hslash, -⟩ := h.of_file
  exact Path.isFileName_of_stat hl hd h.sound hslash h.target

theorem target_location :
    (staging.root.join id).location = staging.root.location ++ [id] :=
  Path.location_join staging.root h.isFileName

theorem home_eq : staging.home = staging.root.location ++ [stagingName id] :=
  h.name ▸ staging.home_eq

theorem locate_target : t.locate (staging.root.join id) = .ok (staging.root.join id).location ∧
    t.entry? (staging.root.join id).location = none := by
  obtain ⟨⟨-, hl, hd⟩, -⟩ := h.of_file
  exact Path.locate_join_of_stat hl hd h.isFileName h.target

/-- Nothing lies below the target as long as it is missing. -/
theorem not_isPrefix_of_entry? {l : Location} (hl : t.entry? l ≠ none) :
    ¬ (staging.root.join id).location <+: l := fun hp => by
  have hnone := h.locate_target.2
  by_cases heq : l = (staging.root.join id).location
  · exact hl (heq ▸ hnone)
  · exact hl (h.sound.below_isPrefix (by simp [hnone]) hp heq)

theorem locate_staging : t.locate staging.dir = .ok staging.home ∧
    (t.entry? staging.home = some .directory ∨ t.entry? staging.home = none) := by
  obtain ⟨⟨-, hl, hd⟩, -⟩ := h.of_file
  rcases h.staging with hs | hs
  · exact ⟨(Tree.of_stat_eq_ok hs).1, .inl (Tree.of_stat_eq_ok hs).2⟩
  · have hmissing := Path.locate_join_of_stat hl hd staging.name.isFileName hs
    exact ⟨hmissing.1, .inr hmissing.2⟩

theorem clear (c : Content) : t.entry? staging.home ≠ some (.file c) := by
  rcases h.locate_staging.2 with hd | hn
  · simp [hd]
  · simp [hn]

/-- The way to the staging directory is one step longer than that to the directory of the file. -/
theorem mem_way_iff {m : Location} :
    m ∈ staging.dir.way ↔ m ∈ staging.root.way ∨ m = staging.home :=
  Path.mem_way_join_iff h.of_file.1.1 staging.name.isFileName.slashless

/-- What is on the way to the staging directory lies in it or is there without it. -/
theorem way : ∀ m ∈ staging.dir.way,
    staging.home <+: m ∨ Tree.entry? (t.prune staging.home) m = some .directory := by
  obtain ⟨⟨-, hl, hd⟩, -⟩ := h.of_file
  intro m hm
  by_cases hp : staging.home <+: m
  · exact .inl hp
  · rw [Tree.entry?_prune staging.home_isBase, if_neg hp]
    obtain hm | rfl := h.mem_way_iff.mp hm
    · exact .inr (Tree.directories_of_locate hl hd m hm)
    · exact absurd List.prefix_rfl hp

theorem confined : Tree.Confined staging.home (t.prune staging.home) t :=
  h.sound.confined h.clear

/-- The file does not lie in the staging directory. -/
theorem not_isPrefix_file : ¬ staging.home <+: location.location := by
  obtain ⟨-, -, name, hloc⟩ := h.of_file
  obtain ⟨-, s, hf⟩ := h.file
  intro hp
  have hsame : staging.home = location.location := hp.eq_of_length (by
    rw [hloc, staging.home_eq, List.length_append, List.length_append]
    rfl)
  exact h.clear _ (hsame ▸ hf)

theorem not_isPrefix_target (r : Location) :
    ¬ staging.home <+: (staging.root.join id).location ++ r := by
  rw [h.target_location, h.home_eq, List.append_assoc, List.prefix_append_right_inj,
    List.singleton_append, List.cons_prefix_cons]
  exact fun heq => stagingName_ne id heq.1

/-- As long as the file can be reached without the staging directory, it waits for its conversion
whatever has become of that directory. -/
theorem of_confined (hc : Tree.Confined staging.home (t.prune staging.home) t')
    (hr : (t.prune staging.home).locate location = t.locate location) :
    Pending location id staging contexts t' := by
  have hb := staging.home_isBase
  have hsame {l : Location} (hl : ¬ staging.home <+: l) : t'.entry? l = t.entry? l := by
    rw [hc.entry?_eq hb hl, Tree.entry?_prune hb, if_neg hl]
  obtain ⟨hl, s, hf⟩ := h.file
  have hl' := hc.locate hb (hr.trans hl)
  have hf' := (hsame h.not_isPrefix_file).trans hf
  obtain ⟨⟨-, hroot, hd⟩, hslash, -⟩ := root_of_split h.split hl' (by simp [hf'])
  -- Names that could be said in the one tree can be said in the other.
  have hreach {file : String} (hn : '/' ∉ file.toList) {l : Location}
      (hj : t.locate (staging.root.join file) = .ok l) :
      t'.locate (staging.root.join file) = .ok (staging.root.join file).location := by
    have hp := Tree.passable_of_locate hj
    exact Path.locate_join_of_fits hn hroot hd hp.sayable (hp.fits_join hn)
  obtain ⟨htarget, hnone⟩ := h.locate_target
  refine ⟨hc.sound, h.split, h.name, ?_, ?_, ?_⟩
  · obtain ⟨s', hr', hv⟩ := h.text
    refine ⟨s', Tree.read_eq_ok_iff.mpr ⟨hl', ?_⟩, hv⟩
    rw [hsame h.not_isPrefix_file]
    exact (Tree.read_eq_ok_iff.mp hr').2
  · have hout := h.not_isPrefix_target []
    rw [List.append_nil] at hout
    exact Tree.stat_of_none (hreach hslash htarget) ((hsame hout).trans hnone)
  · have hstaging := hreach staging.name.isFileName.slashless h.locate_staging.1
    cases he : t'.entry? staging.home with
    | none => exact .inr (Tree.stat_of_none hstaging he)
    | some e =>
        cases e with
        | directory => exact .inl (Tree.stat_of_directory hstaging he)
        | file c => exact absurd he (hc.clear c)

end

end Pending

/-! ## A conversion that is broken off -/

/-- From one tree to another the file at a location has been converted, or nothing has happened. -/
def Finished (location : Path) (t t' : Tree) : Prop :=
  t' = t ∨ ∃ id staging contexts, Pending location id staging contexts t ∧ t'.Sound ∧
    t'.entry? (staging.root.join id).location = some .directory

/-- From one tree to another all contexts of a file have been carried over into the directory of the
namespace. -/
structure Carried (staging : Namespace) (target : Location) (contexts : Object) (t t' : Tree) :
    Prop where
  sound : t'.Sound
  directory : t'.entry? target = some .directory
  /-- Outside of the target and of the staging directory, all is as it was. -/
  elsewhere : ∀ l, ¬ target <+: l → ¬ staging.home <+: l → t'.entry? l = t.entry? l
  /-- Each context has its document, for which there was room in the staging directory. -/
  document : ∀ c : Context, c.space = staging → ∀ v, contexts.get? c.name.text = some v →
    c.path.Passable ∧ t'.entry? (target ++ [c.name.text ++ ".json"]) =
      some (.file (.text (Value.object (contents c.name.text v)).pretty))
  /-- No other context has one. -/
  absent : ∀ c : Context, c.space = staging → contexts.get? c.name.text = none →
    ∀ s, t'.entry? (target ++ [c.name.text ++ ".json"]) ≠ some (.file (.text s))

/-- From one tree to another the file at a location has been converted into the namespace with a
name. -/
def Made (location : Path) (id : String) (t t' : Tree) : Prop :=
  ∃ staging contexts, Pending location id staging contexts t ∧
    Carried staging (staging.root.join id).location contexts t t'

/-- What a conversion tells is what has happened from one tree to another. A file that has not been
converted has been left alone because there is something at the target. -/
structure Told (location : Path) (r : Conversion) (t t' : Tree) : Prop where
  split : Legacy.split location = .ok (r.outputDir, r.id)
  made : r.converted = true → Made location r.id t t'
  kept : r.converted = false → t' = t
  occupied : r.converted = false → t.stat location = .ok .file →
    ∃ k, t.stat (r.outputDir.join r.id) = .ok k

theorem Told.finished {location : Path} {r : Conversion} {t t' : Tree}
    (h : Told location r t t') : Finished location t t' := by
  cases hr : r.converted with
  | false => exact .inl (h.kept hr)
  | true =>
      obtain ⟨staging, contexts, hp, hcarried⟩ := h.made hr
      exact .inr ⟨r.id, staging, contexts, hp, hcarried.sound, hcarried.directory⟩

/-- From one tree to another nothing has changed but in the staging directory for a file that waits
for its conversion. -/
def BrokenOff (location : Path) (t t' : Tree) : Prop :=
  t' = t ∨ ∃ id staging contexts, Pending location id staging contexts t ∧
    Tree.Confined staging.home (t.prune staging.home) t'

section
variable {location outputDir target : Path} {id : String} {staging : Namespace}
  {contexts : Object} {base : Tree} {d : Disk}

theorem after_readContexts (location : Path) :
    After (readContexts location) d
      (fun contexts d' => d'.tree = d.tree ∧
        ∃ s, d.tree.read location = .ok s ∧ Json.readValue s = .ok (.object contexts))
      (fun _ d' => d'.tree = d.tree) := by
  unfold readContexts
  refine after_bind ((Context.after_ofDisk ((Disk.after_look (d := d) (·.read location)).mono
    (fun _ _ h => h) fun _ _ h => h.2.1)).imp fun s d₁ h₁ => ?_)
  obtain ⟨-, ht, hr⟩ := h₁
  cases hv : Json.readValue s with
  | error e => exact after_bind (after_throw ht)
  | ok v =>
      refine after_bind (after_pure ?_)
      cases v with
      | object entries => exact after_pure ⟨ht, s, hr, hv⟩
      | null | bool b | number n | string s | array items => exact after_throw ht

namespace Pending

variable (h : Pending location id staging contexts base)
include h

theorem ordered : contexts.Ordered := by
  obtain ⟨s, -, hv⟩ := h.text
  exact Json.ordered_of_readValue hv

/-- What has been collected is carried over when the staging directory is renamed. -/
theorem carried_move {t : Tree} (hc : Tree.Confined staging.home (base.prune staging.home) t)
    (hd : t.entry? staging.home = some .directory) (hcollected : Collected staging contexts t)
    (hbt : isBase (staging.root.join id).location = false)
    (hl : t.locate (staging.root.join id) = .ok (staging.root.join id).location) :
    Carried staging (staging.root.join id).location contexts base
      (t.move staging.home (staging.root.join id).location) := by
  have hb := staging.home_isBase
  have hmove := hc.sound.entry?_move hb hbt
  have hout := h.not_isPrefix_target []
  rw [List.append_nil] at hout
  have hdocument (c : Context) (hspace : c.space = staging) :
      Tree.entry? (t.move staging.home (staging.root.join id).location)
        ((staging.root.join id).location ++ [c.name.text ++ ".json"]) =
          t.entry? c.path.location := by
    rw [hmove, if_pos (List.prefix_append _ _), List.drop_left, c.path_location, hspace]
  refine ⟨hc.sound.move_directory hb hbt hout (hc.sound.parent_of_locate hl), ?_,
    fun l htarget hstaging => ?_, fun c hspace v hv => ?_, fun c hspace hv s => ?_⟩
  · rw [hmove, if_pos List.prefix_rfl, List.drop_length, List.append_nil, hd]
  · rw [hmove, if_neg htarget, if_neg hstaging, hc.entry?_eq hb hstaging, Tree.entry?_prune hb,
      if_neg hstaging]
  · have hread := hcollected c hspace
    rw [hv] at hread
    obtain ⟨hlocate, hfile⟩ := Tree.read_eq_ok_iff.mp hread
    exact ⟨Tree.passable_of_locate hlocate, (hdocument c hspace).trans hfile⟩
  · have hnone := hcollected c hspace
    rw [hv] at hnone
    rw [hdocument c hspace]
    intro hfile
    rw [Context.text?_eq_some_iff.mpr hfile] at hnone
    contradiction

/-- Until the staging directory is renamed, nothing changes outside of it. -/
theorem after_build (ht : d.tree = base.prune staging.home) :
    After (build staging (staging.root.join id) contexts) d
      (fun _ d' => Carried staging (staging.root.join id).location contexts base d'.tree)
      (fun _ d' => BrokenOff location base d'.tree) := by
  have hb := staging.home_isBase
  have hbroken {d' : Disk}
      (hc : Tree.Confined staging.home (base.prune staging.home) d'.tree) :
      BrokenOff location base d'.tree := .inr ⟨id, staging, contexts, h, hc⟩
  have hstart : Tree.Confined staging.home (base.prune staging.home) d.tree := by
    rw [ht]
    exact h.confined.prune hb
  have hempty : Collected staging [] d.tree := by
    intro c hspace
    have hin : staging.home <+: c.path.location := by
      rw [← hspace]
      exact c.home_isPrefix_path
    have hnone : d.tree.entry? c.path.location = none := by
      rw [ht, Tree.entry?_prune hb, if_pos hin]
    show c.text? d.tree = none
    unfold Context.text?
    rw [hnone]
  have hmaintains : Maintains
      (fun d => Tree.Confined staging.home (base.prune staging.home) d.tree)
      (writeContexts staging contexts) :=
    maintains_writeContexts (fun c entries hspace => hspace ▸
      c.maintains_save (hspace ▸ h.way) entries) contexts
  have hwrite := (hmaintains d hstart).and
    (after_writeContexts_collected hstart.sound hempty h.ordered)
  refine after_bind ((after_orDiscard (hwrite.mono (fun _ _ h₁ => h₁) fun _ d₁ h₁ =>
    (Disk.maintains_removeTree hb d₁ h₁.1).mono (fun _ _ => hbroken) fun _ _ => hbroken)).imp
      fun _ d₁ h₁ => ?_)
  obtain ⟨hc₁, hs₁, hcollected₁⟩ := h₁
  refine Context.after_ofDisk (after_bind
    (((Disk.after_makeDirs hs₁ staging.dir_text_ne_empty).and
      (Disk.maintains_makeDirs hb h.way d₁ hc₁)).mono (fun _ d₂ h₂ => ?_)
        fun _ _ h₂ => hbroken h₂.2))
  obtain ⟨⟨-, -, hspares, -, hd₂⟩, hc₂⟩ := h₂
  have hcollected₂ : Collected staging contexts d₂.tree :=
    hcollected₁.untouched fun c _ => Context.untouched_of_spares hspares (by simp)
  refine (Disk.after_change (·.rename staging.dir (staging.root.join id)) fun _ t => t).mono
    (fun _ d₃ h₃ => ?_) fun _ d₃ h₃ => ?_
  · obtain ⟨heq, -⟩ | ⟨-, hbt, -, hl, ht₃⟩ := Tree.of_rename_directory_eq_ok hd₂ h₃.2
    · have hout := h.not_isPrefix_target []
      rw [List.append_nil, ← heq] at hout
      exact absurd List.prefix_rfl hout
    · rw [ht₃]
      exact h.carried_move hc₂ hd₂ hcollected₂ hbt hl
  · obtain ⟨-, ⟨-, ht₃⟩ | ⟨_, _, -, -, ht₃⟩⟩ := h₃ <;> exact hbroken (ht₃ ▸ hc₂)

end Pending

/-- What is found in the way is taken away if it is a directory, and then the file waits. -/
theorem after_removeTree_staging
    (h : d.tree.stat staging.dir = .ok .directory → Pending location id staging contexts d.tree) :
    After (Storing.ofDisk (Disk.removeTree staging.dir)) d
      (fun _ d' => Pending location id staging contexts d.tree ∧
        d'.tree = d.tree.prune staging.home)
      (fun _ d' => BrokenOff location d.tree d'.tree) := by
  have hb := staging.home_isBase
  have hp {t' : Tree} (hok : d.tree.removeTree staging.dir = .ok t') :
      Pending location id staging contexts d.tree := by
    obtain ⟨hl, hd, -, -⟩ := Tree.of_removeTree_eq_ok hok
    exact h (Tree.stat_of_directory hl hd)
  refine Context.after_ofDisk ((Disk.after_change (·.removeTree staging.dir) _).mono
    (fun _ d' h' => ?_) fun _ d' h' => ?_)
  · exact ⟨hp h'.2, (Tree.of_removeTree_eq_ok h'.2).2.2.2⟩
  · obtain ⟨-, ⟨-, ht⟩ | ⟨_, f, -, -, ht⟩⟩ := h'
    · exact .inl ht
    · rw [ht]
      split
      · next hok hl =>
        obtain rfl := Tree.location_of_locate hl
        exact .inr ⟨id, staging, contexts, hp hok, (hp hok).confined.thin hb _⟩
      · exact .inl rfl

theorem after_convertFile (hs : d.tree.Sound) (hsplit : split location = .ok (outputDir, id))
    (htarget : d.tree.stat (outputDir.join id) = .error .notFound) :
    After (convertFile location outputDir (outputDir.join id) id) d
      (fun _ d' => Made location id d.tree d'.tree)
      (fun _ d' => BrokenOff location d.tree d'.tree) := by
  unfold convertFile
  refine after_bind ((after_readContexts location).mono (fun contexts d₁ h₁ => ?_)
    fun _ _ h => .inl h)
  obtain ⟨ht₁, htext⟩ := h₁
  cases hparse : Namespace.parse outputDir (stagingName id) with
  | error e => exact after_bind (after_throw (.inl ht₁))
  | ok staging =>
      obtain ⟨rfl, hname⟩ := Namespace.of_parse_eq_ok hparse
      refine after_bind (after_pure ?_)
      have hpending (h : d.tree.stat staging.dir = .ok .directory ∨
          d.tree.stat staging.dir = .error .notFound) :
          Pending location id staging contexts d.tree := ⟨hs, hsplit, hname, htext, htarget, h⟩
      refine after_bind ((Context.after_ofDisk (Disk.after_isPresent staging.dir)).mono
        (fun b d₂ h₂ => ?_) fun _ _ h => .inl (h.2.trans ht₁))
      obtain ⟨-, ht₂, hb⟩ := h₂
      rw [ht₁] at ht₂ hb
      rw [← ht₂] at hpending hb ⊢
      obtain ⟨rfl, -⟩ | ⟨rfl, hn⟩ := hb
      · refine after_bind ((after_removeTree_staging fun h => hpending (.inl h)).imp
          fun _ d₃ h₃ => ?_)
        exact (h₃.1.after_build h₃.2).imp fun _ _ hcarried => ⟨staging, contexts, h₃.1, hcarried⟩
      · have hp := hpending (.inr hn)
        have hnone := (Path.locate_join_of_stat hp.of_file.1.2.1 hp.of_file.1.2.2
          staging.name.isFileName hn).2
        exact (hp.after_build (hp.sound.prune_eq_self hnone).symm).imp
          fun _ _ hcarried => ⟨staging, contexts, hp, hcarried⟩

/-- A conversion that succeeds tells what has happened; one that fails has left everything outside
of the staging directory as it was. -/
theorem after_convert_told (hs : d.tree.Sound) (location : Path) :
    After (convert location) d
      (fun r d' => Told location r d.tree d'.tree)
      (fun _ d' => BrokenOff location d.tree d'.tree) := by
  unfold convert
  cases hsplit : split location with
  | error e => exact after_bind (after_throw (.inl rfl))
  | ok r =>
      obtain ⟨outputDir, id⟩ := r
      have hkept {d' : Disk} (ht : d'.tree = d.tree) (hoccupied : d.tree.stat location = .ok .file →
          ∃ k, d.tree.stat (outputDir.join id) = .ok k) :
          Told location ⟨outputDir, id, false⟩ d.tree d'.tree :=
        ⟨hsplit, nofun, fun _ => ht, fun _ => hoccupied⟩
      have hstat : After (Storing.ofDisk (Disk.ifPresent (Disk.stat location))) d
          (fun k? d' => d'.tree = d.tree ∧ (d.tree.stat location = .ok .file → k? = some .file))
          (fun _ d' => d'.tree = d.tree) := by
        refine Context.after_ofDisk ((Disk.after_ifPresent (Disk.after_look (d := d)
          (·.stat location))).mono (fun k? _ h => ?_) fun _ _ h => h.2.1)
        cases k? with
        | some k => exact ⟨h.2.1, fun hf => by rw [Except.ok.inj (h.2.2.symm.trans hf)]⟩
        | none => exact ⟨h.2.1, fun hf => by cases hf.symm.trans (h.2.2 rfl)⟩
      refine after_bind (after_pure (after_bind (hstat.mono (fun k? d₁ h₁ => ?_)
        fun _ _ h => .inl h)))
      obtain ⟨ht₁, hk⟩ := h₁
      cases k? with
      | none => exact after_pure (hkept ht₁ fun hf => absurd (hk hf) (by simp))
      | some k =>
          cases k with
          | directory => exact after_pure (hkept ht₁ fun hf => absurd (hk hf) (by simp))
          | file =>
              refine after_bind ((Context.after_ofDisk (Disk.after_isPresent _)).mono
                (fun b d₂ h₂ => ?_) fun _ _ h => .inl (h.2.trans ht₁))
              obtain ⟨-, ht₂, hb⟩ := h₂
              rw [ht₁] at ht₂ hb
              obtain ⟨rfl, hpresent⟩ | ⟨rfl, hn⟩ := hb
              · exact after_pure (hkept ht₂ fun _ => hpresent)
              · rw [← ht₂] at hs hn ⊢
                exact after_bind ((after_convertFile hs hsplit hn).imp fun _ d₃ h₃ =>
                  after_pure ⟨hsplit, fun _ => h₃, nofun, nofun⟩)

/-- A conversion succeeds as a whole, or it leaves everything outside of the staging directory as it
was. -/
theorem after_convert (hs : d.tree.Sound) (location : Path) :
    After (convert location) d
      (fun _ d' => Finished location d.tree d'.tree)
      (fun _ d' => BrokenOff location d.tree d'.tree) :=
  (after_convert_told hs location).imp fun _ _ h => h.finished

theorem Pending.home_of_split {id' : String} {t : Tree}
    (hsplit : Legacy.split location = .ok (outputDir, id))
    (h : Pending location id' staging contexts t) :
    staging.home = outputDir.location ++ [stagingName id] := by
  obtain ⟨hroot, rfl⟩ := Prod.mk.inj (Except.ok.inj (h.split.symm.trans hsplit))
  exact hroot ▸ h.home_eq

/-- Outside of the staging directory all is as it was. -/
theorem BrokenOff.entry?_eq {t t' : Tree} (h : BrokenOff location t t')
    (hsplit : split location = .ok (outputDir, id)) {l : Location}
    (hl : ¬ outputDir.location ++ [stagingName id] <+: l) : t'.entry? l = t.entry? l := by
  obtain ht | ⟨id', staging, contexts, hp, hc⟩ := h
  · rw [ht]
  · rw [← hp.home_of_split hsplit] at hl
    have hb := staging.home_isBase
    rw [hc.entry?_eq hb hl, Tree.entry?_prune hb, if_neg hl]

/-- Whatever becomes of a conversion, nothing changes outside of the directory of the namespace and
of the staging directory. -/
theorem after_convert_elsewhere (hs : d.tree.Sound)
    (hsplit : split location = .ok (outputDir, id)) :
    Leaves (convert location) d fun d' => ∀ l, ¬ outputDir.location ++ [id] <+: l →
      ¬ outputDir.location ++ [stagingName id] <+: l → d'.tree.entry? l = d.tree.entry? l := by
  refine (after_convert_told hs location).mono (fun r d' h l htarget hstaging => ?_)
    fun _ d' h l _ hstaging => h.entry?_eq hsplit hstaging
  have hid : r.id = id := congrArg Prod.snd (Except.ok.inj (h.split.symm.trans hsplit))
  cases hr : r.converted with
  | false => rw [h.kept hr]
  | true =>
      obtain ⟨staging, _, hp, hcarried⟩ := h.made hr
      have hstagingRoot : staging.root = outputDir :=
        congrArg Prod.fst (Except.ok.inj (hp.split.symm.trans hsplit))
      refine hcarried.elsewhere l ?_ ?_
      · rw [hp.target_location, hstagingRoot, hid]
        exact htarget
      · rw [hp.home_of_split hsplit]
        exact hstaging

/-- Where the namespace is there already, no file waits. -/
theorem not_pending_of_directory {id' : String} {t : Tree}
    (hsplit : split location = .ok (outputDir, id))
    (hd : t.entry? (outputDir.join id).location = some .directory) :
    ¬ Pending location id' staging contexts t := fun h => by
  obtain ⟨rfl, rfl⟩ := Prod.mk.inj (Except.ok.inj (hsplit.symm.trans h.split))
  rw [h.locate_target.2] at hd
  contradiction

/-- Where the namespace is there already, nothing is converted. -/
theorem after_convert_kept (hs : d.tree.Sound) (hsplit : split location = .ok (outputDir, id))
    (hd : d.tree.entry? (outputDir.join id).location = some .directory) :
    After (convert location) d (fun r d' => r.converted = false ∧ d'.tree = d.tree)
      (fun _ d' => d'.tree = d.tree) := by
  refine (after_convert_told hs location).mono (fun r d' h => ?_) fun _ d' h => ?_
  · have hr : r.converted = false := Bool.eq_false_iff.mpr fun hr => by
      obtain ⟨_, _, hp, -⟩ := h.made hr
      exact not_pending_of_directory hsplit hd hp
    exact ⟨hr, h.kept hr⟩
  · exact h.resolve_right fun ⟨_, _, _, hp, _⟩ => not_pending_of_directory hsplit hd hp

end

end Legacy

end DeviceBridge
