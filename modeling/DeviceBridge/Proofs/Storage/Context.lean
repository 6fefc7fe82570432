import DeviceBridge.Proofs.Files.Disk
import DeviceBridge.Proofs.Json.Reread
import DeviceBridge.Storage.Context

/-!
# DeviceBridge.Proofs.Storage.Context

What the storage does to the documents of a namespace. A document keeps a value (`Context.Keeps`) if
its text is the written form of an object with that value, and it lacks a key (`Context.Lacks`) if
there is nothing at the key. Setting a value touches one document only, and none if it fails
(`Context.after_set`); erasing a namespace touches all of them (`Namespace.after_erase`).
-/

namespace DeviceBridge

open Json (Value Object)
open Files

/-! ## Names of files -/

namespace StorageName

theorem isFileName (n : StorageName) : IsFileName n.text.toList := by
  have hvalid := n.valid
  simp only [isStorageName, decide_eq_true_eq, List.all_eq_true] at hvalid
  obtain ⟨hne, hdot, hdots, hall⟩ := hvalid
  exact ⟨fun hm => (hall '/' hm).1 rfl, by simp [isIdle, hne, hdot], hdots⟩

/-- With a suffix that is more than dots, a name is a name still. -/
theorem isFileName_append (n : StorageName) {suffix : String} (hs : '/' ∉ suffix.toList)
    (hj : 'j' ∈ suffix.toList) : IsFileName (n.text ++ suffix).toList := by
  have hmem : 'j' ∈ (n.text ++ suffix).toList := by simp [hj]
  refine ⟨?_, ?_, ?_⟩
  · rw [String.toList_append, List.mem_append]
    exact fun h => h.elim n.isFileName.slashless hs
  · refine Bool.eq_false_iff.mpr fun hi => ?_
    simp only [isIdle, decide_eq_true_eq] at hi
    rcases hi with hi | hi <;> rw [hi] at hmem <;> simp at hmem
  · intro hd
    rw [hd] at hmem
    simp at hmem

end StorageName

namespace Namespace

/-- Where the documents of a namespace lie. -/
def home (n : Namespace) : Location := n.dir.location

theorem home_eq (n : Namespace) : n.home = n.root.location ++ [n.name.text] :=
  Path.location_join n.root n.name.isFileName

theorem endsInName_dir (n : Namespace) : n.dir.EndsInName :=
  Path.endsInName_join n.root n.name.isFileName

theorem dir_text_ne_empty (n : Namespace) : n.dir.text ≠ "" :=
  Path.text_ne_empty n.endsInName_dir

end Namespace

namespace Context

theorem isFileName (c : Context) : IsFileName (c.name.text ++ ".json").toList :=
  c.name.isFileName_append (by decide) (by decide)

theorem draft_isFileName (c : Context) :
    IsFileName (c.name.text ++ ".json" ++ ".tmp").toList := by
  rw [String.append_assoc]
  exact c.name.isFileName_append (by decide) (by decide)

theorem path_location (c : Context) :
    c.path.location = c.space.home ++ [c.name.text ++ ".json"] :=
  Path.location_join c.space.dir c.isFileName

theorem draft_eq (c : Context) :
    c.draft = c.space.dir.join (c.name.text ++ ".json" ++ ".tmp") := by
  have hdrop : Path.dropExtension (c.name.text ++ ".json").toList = c.name.text.toList := by
    rw [String.toList_append]
    exact Path.dropExtension_append c.name.isFileName.ne_nil (by decide)
  unfold draft path
  rw [Path.withExtension_join c.space.endsInName_dir c.isFileName, hdrop]
  congr 1
  rw [← String.toList_inj]
  simp

theorem draft_location (c : Context) :
    c.draft.location = c.space.home ++ [c.name.text ++ ".json" ++ ".tmp"] := by
  rw [draft_eq]
  exact Path.location_join c.space.dir c.draft_isFileName

/-- No document lies where one is drafted. -/
theorem path_ne_draft (c c' : Context) : c.path.location ≠ c'.draft.location := by
  rw [path_location, draft_location]
  intro heq
  have hfile := List.singleton_inj.mp (List.append_inj' heq rfl).2
  have hlast := congrArg (fun s => s.toList.getLast?) hfile
  simp [String.toList_append] at hlast

section
variable {c c' : Context} (h : c.space.root = c'.space.root)
include h

/-- Below one root, a file that is named after a context belongs to that context only. -/
theorem eq_of_file_eq {suffix : String}
    (heq : c.space.home ++ [c.name.text ++ suffix] = c'.space.home ++ [c'.name.text ++ suffix]) :
    c = c' := by
  rw [Namespace.home_eq, Namespace.home_eq, h] at heq
  simp only [List.append_assoc, List.append_cancel_left_eq, List.cons_append, List.nil_append,
    List.cons.injEq, and_true] at heq
  obtain ⟨hspace, hname⟩ := heq
  rw [← String.toList_inj, String.toList_append, String.toList_append,
    List.append_left_inj, String.toList_inj] at hname
  obtain ⟨⟨root, n⟩, m⟩ := c
  obtain ⟨⟨root', n'⟩, m'⟩ := c'
  simp only at h hspace hname
  rw [h, StorageName.ext hspace, StorageName.ext hname]

theorem eq_of_path_eq (heq : c.path.location = c'.path.location) : c = c' := by
  rw [path_location, path_location] at heq
  exact eq_of_file_eq h heq

theorem eq_of_draft_eq (heq : c.draft.location = c'.draft.location) : c = c' := by
  rw [draft_location, draft_location, String.append_assoc, String.append_assoc] at heq
  exact eq_of_file_eq h heq

/-- Below one root, each place belongs to one context only. -/
theorem path_ne_path (hne : c ≠ c') : c.path.location ≠ c'.path.location := fun heq =>
  hne (eq_of_path_eq h heq)

/-- Below one root, drafts of two documents lie apart. -/
theorem draft_ne_draft (hne : c ≠ c') : c.draft.location ≠ c'.draft.location := fun heq =>
  hne (eq_of_draft_eq h heq)

end

/-! ## What a document holds -/

/-- The text at the place of a document. -/
def text? (c : Context) (t : Tree) : Option String :=
  match t.entry? c.path.location with
  | some (.file (.text s)) => some s
  | _ => none

/-- What the document holds, unless its text denotes no object. -/
def stored? (c : Context) (t : Tree) : Option Object :=
  match c.text? t with
  | none => some []
  | some s =>
    match Json.readValue s with
    | .ok (.object entries) => some entries
    | _ => none

/-- Nothing is at a key of the document. -/
def Lacks (c : Context) (t : Tree) (key : String) : Prop :=
  ∀ entries, c.stored? t = some entries → entries.get? key = none

/-- The document is there, written from entries with the value at the key. -/
def Keeps (c : Context) (t : Tree) (key : String) (v : Value) : Prop :=
  ∃ entries : Object, t.read c.path = .ok (Value.object entries).pretty ∧ entries.Ordered ∧
    entries.get? key = some v

/-- What a look at the document shows. -/
def Shows (c : Context) (t : Tree) (entries : Object) : Prop :=
  t.read c.path = .error .notFound ∧ entries = [] ∨
    ∃ s, t.read c.path = .ok s ∧ Json.readValue s = .ok (.object entries)

/-- The document is there, and whoever can read it finds the value at the key. -/
def Recalls (c : Context) (t : Tree) (key : String) (v : Value) : Prop :=
  ∃ s, t.read c.path = .ok s ∧
    ∀ entries : Object, Json.readValue s = .ok (.object entries) → entries.get? key = some v

/-- From one tree to another the document stays what it was. -/
structure Untouched (c : Context) (t t' : Tree) : Prop where
  text : c.text? t' = c.text? t
  read : ∀ s, t.read c.path = .ok s → t'.read c.path = .ok s

variable {c : Context} {t t' t'' : Tree} {key : String} {v : Value} {entries : Object}

theorem text?_of_read {s : String} (h : t.read c.path = .ok s) : c.text? t = some s := by
  unfold text?
  rw [(Tree.read_eq_ok_iff.mp h).2]

theorem text?_eq_some_iff {s : String} :
    c.text? t = some s ↔ t.entry? c.path.location = some (.file (.text s)) := by
  unfold text?
  split
  · next s' h => simp [h]
  · next h =>
    refine ⟨fun hs => absurd hs (by simp), fun hs => absurd hs (h s)⟩

theorem Shows.ordered (h : c.Shows t entries) : entries.Ordered := by
  obtain ⟨-, rfl⟩ | ⟨s, -, hs⟩ := h
  · exact List.Pairwise.nil
  · exact Json.ordered_of_readValue hs

theorem Shows.unique {entries' : Object} (h : c.Shows t entries) (h' : c.Shows t entries') :
    entries = entries' := by
  obtain ⟨hn, rfl⟩ | ⟨s, hr, hv⟩ := h <;> obtain ⟨hn', rfl⟩ | ⟨s', hr', hv'⟩ := h'
  · rfl
  · rw [hn] at hr'; cases hr'
  · rw [hr] at hn'; cases hn'
  · rw [hr, Except.ok.injEq] at hr'
    rw [hr', hv', Except.ok.injEq, Value.object.injEq] at hv
    exact hv.symm

/-- What lacks a key shows nothing there. -/
theorem Lacks.get?_eq_none (h : c.Lacks t key) (hs : c.Shows t entries) :
    entries.get? key = none := by
  obtain ⟨-, rfl⟩ | ⟨s, hr, hv⟩ := hs
  · rfl
  · refine h entries ?_
    unfold stored?
    rw [text?_of_read hr]
    simp only
    rw [hv]

/-- What keeps a value shows what the value is read back as. -/
theorem Keeps.get?_eq (h : c.Keeps t key v) (hs : c.Shows t entries) :
    entries.get? key = v.reread 1 := by
  obtain ⟨kept, hr, hord, hget⟩ := h
  obtain ⟨hn, -⟩ | ⟨s, hr', hv⟩ := hs
  · rw [hr] at hn
    cases hn
  · obtain rfl : (Value.object kept).pretty = s := Except.ok.inj (hr.symm.trans hr')
    obtain ⟨ms, hms, -, hall⟩ := Json.readValue_pretty hord hv
    obtain rfl := Value.object.inj hms
    rw [hall, hget, Option.bind_some]

theorem Recalls.get?_eq (h : c.Recalls t key v) (hs : c.Shows t entries) :
    entries.get? key = some v := by
  obtain ⟨s, hr, hget⟩ := h
  obtain ⟨hn, -⟩ | ⟨s', hr', hv⟩ := hs
  · rw [hr] at hn
    cases hn
  · obtain rfl := Except.ok.inj (hr.symm.trans hr')
    exact hget entries hv

/-- What is kept is recalled if it is read back as it was. -/
theorem Keeps.recalls (h : c.Keeps t key v) (hv : v.reread 1 = some v) : c.Recalls t key v := by
  obtain ⟨kept, hr, -⟩ := id h
  exact ⟨_, hr, fun entries hread => (h.get?_eq (.inr ⟨_, hr, hread⟩)).trans hv⟩

/-- Whole numbers that a document keeps at a key are the same. -/
theorem Keeps.integer_unique {i j : Json.Integer} (h : c.Keeps t key (.number (.integer i)))
    (h' : c.Keeps t key (.number (.integer j))) : i = j := by
  obtain ⟨kept, hr, -, hget⟩ := h
  obtain ⟨kept', hr', -, hget'⟩ := h'
  have hsame := Json.reread_of_pretty_eq (Except.ok.inj (hr.symm.trans hr')) key
  rw [hget, hget'] at hsame
  simpa [Value.toDocument, Json.Document.reread, Json.Number.reread] using hsame

/-- Where one document of a namespace has been reached, no other one is overlooked. -/
theorem Shows.stored?_eq (h : c.Shows t entries) {c' : Context} {marks : Object}
    (h' : c'.Shows t marks)
    (hne : marks ≠ []) (hspace : c.space = c'.space) : c.stored? t = some entries := by
  have hdir : t.locate c.space.dir = .ok c.space.dir.location ∧
      t.entry? c.space.dir.location = some .directory := by
    obtain ⟨-, rfl⟩ | ⟨s, hr, -⟩ := h'
    · exact absurd rfl hne
    · rw [hspace]
      obtain ⟨hlocate, hentry, -⟩ := Path.directory_of_locate_join
        c'.isFileName.slashless c'.space.dir_text_ne_empty (Tree.read_eq_ok_iff.mp hr).1
      exact ⟨hlocate, hentry⟩
  have hreached : t.locate c.path ≠ .error .notFound :=
    Path.locate_join_ne_notFound c.isFileName.slashless hdir.1 hdir.2
  unfold stored?
  obtain ⟨hn, rfl⟩ | ⟨s, hr, hv⟩ := h
  · have htext : c.text? t = none := by
      unfold Tree.read Tree.find at hn
      cases hl : t.locate c.path with
      | error e =>
          rw [hl] at hn
          exact absurd (hl.trans (congrArg Except.error (Except.error.inj hn))) hreached
      | ok l =>
          obtain rfl := Tree.location_of_locate hl
          rw [hl] at hn
          simp only [bind, Except.bind] at hn
          unfold text?
          cases he : t.entry? c.path.location with
          | none => rfl
          | some e =>
              rw [he] at hn
              rcases e with _ | _ | _ <;> cases hn
    rw [htext]
  · rw [text?_of_read hr]
    dsimp only
    rw [hv]

theorem lacks_of_text? (h : c.text? t = none) (key : String) : c.Lacks t key := fun entries hs => by
  unfold stored? at hs
  rw [h] at hs
  obtain rfl := Option.some.inj hs
  rfl

/-! ## What stays -/

namespace Untouched

theorem refl (c : Context) (t : Tree) : c.Untouched t t := ⟨rfl, fun _ h => h⟩

theorem trans (h : c.Untouched t t') (h' : c.Untouched t' t'') : c.Untouched t t'' :=
  ⟨h'.text.trans h.text, fun s hs => h'.read s (h.read s hs)⟩

theorem keeps (h : c.Untouched t t') (hk : c.Keeps t key v) : c.Keeps t' key v := by
  obtain ⟨kept, hr, hord, hget⟩ := hk
  exact ⟨kept, h.read _ hr, hord, hget⟩

theorem recalls (h : c.Untouched t t') (hr : c.Recalls t key v) : c.Recalls t' key v := by
  obtain ⟨s, hread, hget⟩ := hr
  exact ⟨s, h.read s hread, hget⟩

theorem lacks_iff (h : c.Untouched t t') : c.Lacks t' key ↔ c.Lacks t key := by
  unfold Lacks stored?
  rw [h.text]

end Untouched

theorem untouched_of_spares {ls : List Location} (h : Tree.Spares ls t t')
    (hc : c.path.location ∉ ls) : c.Untouched t t' := by
  refine ⟨?_, fun s hs => h.read hc hs⟩
  have htext (s : String) : c.text? t' = some s ↔ c.text? t = some s := by
    rw [text?_eq_some_iff, text?_eq_some_iff, h.file_iff hc]
  cases hs : c.text? t with
  | some s => exact (htext s).mpr hs
  | none =>
      cases hs' : c.text? t' with
      | none => rfl
      | some s => rw [(htext s).mp hs'] at hs; contradiction

end Context

/-- All documents of a namespace stay what they were. -/
def Namespace.Untouched (n : Namespace) (t t' : Tree) : Prop :=
  ∀ c : Context, c.space = n → c.Untouched t t'

theorem Namespace.untouched_of_eq {n : Namespace} {t t' : Tree} (h : t' = t) : n.Untouched t t' :=
  fun c _ => h ▸ .refl c t

namespace Context

/-! ## Looking at a document -/

variable {c : Context} {t t' : Tree} {key : String} {v : Value} {entries : Object} {d : Disk}

theorem after_ofDisk {α : Type} {x : Access α} {done : α → Disk → Prop} {failed : Disk → Prop}
    (h : After x d done fun _ => failed) : After (Storing.ofDisk x) d done fun _ => failed :=
  .within .io (by unfold Storing.ofDisk; cases x d <;> rfl) h

/-- A document is shown as it is, or cannot be read. -/
theorem after_load (c : Context) :
    After c.load d
      (fun entries d' => d'.faults = d.faults ∧ d'.tree = d.tree ∧ c.Shows d.tree entries)
      (fun _ d' => d'.faults = d.faults ∧ d'.tree = d.tree) := by
  unfold load
  refine after_bind ((after_ofDisk (Disk.after_ifPresent_read c.path)).imp fun r d' h => ?_)
  obtain ⟨hf, ht, hr⟩ := h
  cases r with
  | none => exact after_pure ⟨hf, ht, .inl ⟨hr, rfl⟩⟩
  | some s =>
      simp only at hr ⊢
      cases hv : Json.readValue s with
      | error e => exact after_bind (after_throw ⟨hf, ht⟩)
      | ok v =>
          refine after_bind (after_pure ?_)
          cases v with
          | object entries => exact after_pure ⟨hf, ht, .inr ⟨s, hr, hv⟩⟩
          | null | bool b | number n | string s | array items => exact after_throw ⟨hf, ht⟩

theorem after_has (c : Context) (key : String) :
    After (c.has key) d
      (fun b d' => d'.faults = d.faults ∧ d'.tree = d.tree ∧
        ∃ entries, c.Shows d.tree entries ∧ b = entries.contains key)
      (fun _ d' => d'.faults = d.faults ∧ d'.tree = d.tree) := by
  unfold has
  refine after_bind ((after_load c).imp fun entries d' h => ?_)
  exact after_pure ⟨h.1, h.2.1, entries, h.2.2, rfl⟩

theorem after_get? {α : Type} [Json.Codec α] (c : Context) (key : String) :
    After (c.get? α key) d
      (fun r d' => d'.faults = d.faults ∧ d'.tree = d.tree ∧
        ∃ entries, c.Shows d.tree entries ∧
          match entries.get? key with
          | some v => ∃ a, Json.decodeValue v = .ok a ∧ r = some a
          | none => r = none)
      (fun _ d' => d'.faults = d.faults ∧ d'.tree = d.tree) := by
  have hfind : After (c.find? key) d
      (fun r d' => d'.faults = d.faults ∧ d'.tree = d.tree ∧
        ∃ entries, c.Shows d.tree entries ∧ r = entries.get? key)
      (fun _ d' => d'.faults = d.faults ∧ d'.tree = d.tree) := by
    unfold find?
    refine after_bind ((after_load c).imp fun entries d' h => ?_)
    exact after_pure ⟨h.1, h.2.1, entries, h.2.2, rfl⟩
  unfold get?
  refine after_bind (hfind.imp fun r d' h => ?_)
  obtain ⟨hf, ht, entries, hs, rfl⟩ := h
  cases hv : entries.get? key with
  | none => exact after_pure ⟨hf, ht, entries, hs, by rw [hv]⟩
  | some v =>
      simp only
      refine after_bind ?_
      cases ha : (Json.decodeValue v : Except Json.Error α) with
      | error e => exact after_throw ⟨hf, ht⟩
      | ok a => exact after_pure (after_pure ⟨hf, ht, entries, hs, by rw [hv]; exact ⟨a, ha, rfl⟩⟩)

/-! ## Writing a document -/

/-- Apart from one document, all documents of its namespace stay what they were. -/
def SparesOthers (c : Context) (t t' : Tree) : Prop :=
  ∀ c' : Context, c'.space = c.space → c' ≠ c → c'.Untouched t t'

/-- Saving touches the document and its draft only, and the draft alone if it fails. -/
theorem after_save_spares (hs : d.tree.Sound) (c : Context) (entries : Object) :
    After (c.save entries) d
      (fun _ d' => d'.faults = d.faults ∧ d'.tree.Sound ∧
        Tree.Spares [c.path.location, c.draft.location] d.tree d'.tree ∧
        d'.tree.read c.path = .ok (Value.object entries).pretty)
      (fun _ d' => d'.faults = d.faults ∧ d'.tree.Sound ∧
        Tree.Spares [c.draft.location] d.tree d'.tree) := by
  have hne : c.draft.location ≠ c.path.location := (path_ne_draft _ _).symm
  refine after_ofDisk (after_bind ((Disk.after_makeDirs hs
    c.space.dir_text_ne_empty).mono (fun _ d₁ h₁ => ?_) fun _ d₁ h₁ => ?_))
  · obtain ⟨hf₁, hs₁, hsp₁, -, -⟩ := h₁
    refine after_bind ((Disk.after_write hs₁ c.draft _).mono
      (fun _ d₂ h₂ => ?_) (fun _ d₂ h₂ => ?_))
    · obtain ⟨hf₂, hs₂, hsp₂, hl₂, he₂⟩ := h₂
      have hsp := (hsp₁.mono fun _ h => absurd h List.not_mem_nil).trans hsp₂
      refine (Disk.after_rename hs₂ he₂ hne).mono (fun _ d₃ h₃ => ?_) (fun _ d₃ h₃ => ?_)
      · obtain ⟨hf₃, hs₃, hsp₃, hr₃⟩ := h₃
        refine ⟨(hf₃.trans hf₂).trans hf₁, hs₃, (hsp.mono (by simp)).trans hsp₃, ?_⟩
        rw [hr₃, Tree.read_eq_ok_iff]
        exact ⟨Tree.locate_of_directories hsp₂.directory hl₂, he₂⟩
      · obtain ⟨hf₃, ht₃⟩ := h₃
        exact ⟨(hf₃.trans hf₂).trans hf₁, ht₃ ▸ hs₂, ht₃ ▸ hsp⟩
    · obtain ⟨hf₂, hs₂, hsp₂⟩ := h₂
      exact ⟨hf₂.trans hf₁, hs₂, (hsp₁.mono fun _ h => absurd h List.not_mem_nil).trans hsp₂⟩
  · obtain ⟨hf₁, hs₁, hsp₁⟩ := h₁
    exact ⟨hf₁, hs₁, hsp₁.mono fun _ h => absurd h List.not_mem_nil⟩

/-- A draft is no document. -/
theorem untouched_of_draft (h : Tree.Spares [c.draft.location] t t') : c.space.Untouched t t' :=
  fun _ hc' => untouched_of_spares h (by simpa using path_ne_draft _ _)

theorem sparesOthers_of_spares (h : Tree.Spares [c.path.location, c.draft.location] t t') :
    c.SparesOthers t t' := fun _ hc' hne => by
  have hroot := congrArg Namespace.root hc'
  exact untouched_of_spares h (by simp [path_ne_path hroot hne, path_ne_draft _ _])

/-- Either the document has been replaced at one stroke, or it is as it was. -/
theorem after_save (hs : d.tree.Sound) (c : Context) (entries : Object) :
    After (c.save entries) d
      (fun _ d' => d'.faults = d.faults ∧ d'.tree.Sound ∧ c.SparesOthers d.tree d'.tree ∧
        d'.tree.read c.path = .ok (Value.object entries).pretty)
      (fun _ d' => d'.faults = d.faults ∧ d'.tree.Sound ∧ c.space.Untouched d.tree d'.tree) :=
  (after_save_spares hs c entries).mono
    (fun _ _ h => ⟨h.1, h.2.1, sparesOthers_of_spares h.2.2.1, h.2.2.2⟩)
    fun _ _ h => ⟨h.1, h.2.1, untouched_of_draft h.2.2⟩

/-- A value is set in what the document shows. -/
theorem after_set (hs : d.tree.Sound) (c : Context) (key : String) (v : Value) :
    After (c.set key v) d
      (fun _ d' => d'.faults = d.faults ∧ d'.tree.Sound ∧ c.SparesOthers d.tree d'.tree ∧
        ∃ entries, c.Shows d.tree entries ∧
          d'.tree.read c.path = .ok (Value.object (entries.insert key v)).pretty)
      (fun _ d' => d'.faults = d.faults ∧ d'.tree.Sound ∧
        c.space.Untouched d.tree d'.tree) := by
  unfold set
  refine after_bind ((after_load c).mono (fun entries d₁ h₁ => ?_) (fun _ d₁ h₁ => ?_))
  · obtain ⟨hf₁, ht₁, hshow⟩ := h₁
    refine (after_save (ht₁ ▸ hs) c _).mono (fun _ d₂ h₂ => ?_) (fun _ d₂ h₂ => ?_)
    · obtain ⟨hf₂, hs₂, hother, hr₂⟩ := h₂
      exact ⟨hf₂.trans hf₁, hs₂, ht₁ ▸ hother, entries, hshow, hr₂⟩
    · obtain ⟨hf₂, hs₂, hall⟩ := h₂
      exact ⟨hf₂.trans hf₁, hs₂, ht₁ ▸ hall⟩
  · obtain ⟨hf₁, ht₁⟩ := h₁
    exact ⟨hf₁, ht₁ ▸ hs, fun c' _ => ht₁ ▸ .refl c' _⟩

/-- What has been set is kept. -/
theorem keeps_of_set {w : Value} (hs : c.Shows t entries)
    (hr : t'.read c.path = .ok (Value.object (entries.insert key w)).pretty) :
    c.Keeps t' key w :=
  ⟨_, hr, hs.ordered.insert key w, by rw [Dictionary.get?_insert, if_pos rfl]⟩

/-- What stands at another key is kept as far as it is read back. -/
theorem Keeps.of_set {key' : String} {w : Value} (hk : c.Keeps t key v)
    (hv : v.reread 1 = some v) (hne : key ≠ key') (hs : c.Shows t entries)
    (hr : t'.read c.path = .ok (Value.object (entries.insert key' w)).pretty) :
    c.Keeps t' key v :=
  ⟨_, hr, hs.ordered.insert key' w,
    by rw [Dictionary.get?_insert, if_neg hne, hk.get?_eq hs, hv]⟩

/-- What stands at another key is recalled if it is read back as it was. -/
theorem Recalls.of_set {key' : String} {w : Value} (h : c.Recalls t key v)
    (hv : v.reread 1 = some v) (hne : key ≠ key') (hs : c.Shows t entries)
    (hr : t'.read c.path = .ok (Value.object (entries.insert key' w)).pretty) :
    c.Recalls t' key v := by
  refine Keeps.recalls ⟨_, hr, hs.ordered.insert key' w, ?_⟩ hv
  rw [Dictionary.get?_insert, if_neg hne, h.get?_eq hs]

end Context

/-! ## Erasing a namespace -/

namespace Namespace

variable {d : Disk}

/-- Where a document has been read, erasing its namespace takes all documents of the namespace, and
none as long as no removal is broken off. -/
theorem after_erase (hs : d.tree.Sound) (hw : d.RemovesWhole) {c : Context} {s : String}
    (hr : d.tree.read c.path = .ok s) :
    After c.space.erase d
      (fun _ d' => d'.faults = d.faults ∧ d'.tree.Sound ∧
        ∀ c' : Context, c'.space = c.space → c'.text? d'.tree = none)
      (fun _ d' => d'.faults = d.faults ∧ d'.tree = d.tree) := by
  obtain ⟨hlocate, hdir, -⟩ := Path.directory_of_locate_join c.isFileName.slashless
    c.space.dir_text_ne_empty (Tree.read_eq_ok_iff.mp hr).1
  have hremove := Disk.after_removeTree hs hw c.space.dir
  -- The directory is there, so its absence is no reason to be content.
  have hpresent : ∀ d', Disk.removeTree c.space.dir d ≠ .error .notFound d' := fun d' hx => by
    unfold Disk.removeTree Disk.access at hx
    cases hf : d.faults d.accesses with
    | some f =>
        rw [hf] at hx
        exact f.ne_notFound (EStateM.Result.error.inj hx).1
    | none =>
        rw [hf] at hx
        unfold Tree.removeTree at hx
        simp only [hlocate, bind, Except.bind, hdir] at hx
        cases hb : isBase c.space.dir.location <;> simp [hb, Except.map] at hx
  have hgone : ∀ u d', Disk.removeTree c.space.dir d = .ok u d' →
      d'.faults = d.faults ∧ d'.tree.Sound ∧
        ∀ c' : Context, c'.space = c.space → c'.text? d'.tree = none := fun u d' hx => by
    obtain ⟨hf, hs', hentry⟩ := hremove.of_ok hx
    refine ⟨hf, hs', fun c' hc' => ?_⟩
    have hnone : d'.tree.entry? c'.path.location = none := by
      rw [hentry, Context.path_location, hc']
      exact if_pos ( List.prefix_append _ _)
    unfold Context.text?
    rw [hnone]
  refine Context.after_ofDisk (after_bind (.intro (fun r d' hx => after_pure ?_) fun e d' hx => ?_))
  · unfold Disk.ifPresent at hx
    split at hx
    · next u d₁ hok => exact (EStateM.Result.ok.inj hx).2 ▸ hgone u d₁ hok
    · next d₁ hnf => exact absurd hnf (hpresent d₁)
    · cases hx
  · unfold Disk.ifPresent at hx
    split at hx
    · cases hx
    · cases hx
    · next e₁ d₁ _ herr => exact (EStateM.Result.error.inj hx).2 ▸ hremove.of_error herr

end Namespace

end DeviceBridge
