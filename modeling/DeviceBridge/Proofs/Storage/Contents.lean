import DeviceBridge.Proofs.Files.Way
import DeviceBridge.Proofs.Json.Exact
import DeviceBridge.Proofs.Storage.Context

/-!
# DeviceBridge.Proofs.Storage.Contents

What the documents below a root hold, as a map from contexts and keys to values (`contents`). In a
tree that is fit for it (`Storable`) no file is on the way to a namespace, and each document is
missing or holds an object without doubles.
-/

namespace DeviceBridge

open Json (Value Object)
open Files

/-! ## Contents -/

/-- What is at each key of each context. -/
abbrev Contents := Context → String → Option Value

/-- What the documents of a tree hold. -/
def contents (t : Tree) : Contents := fun c key => (c.stored? t).bind (·.get? key)

namespace Context

/-- At the place of the document there is nothing, or the text of an object. -/
def Displays (c : Context) (t : Tree) (entries : Object) : Prop :=
  t.entry? c.path.location = none ∧ entries = [] ∨
    ∃ s, t.entry? c.path.location = some (.file (.text s)) ∧
      Json.readValue s = .ok (.object entries)

end Context

namespace Namespace

/-- No file is on the way to the namespace. -/
def Unblocked (n : Namespace) (t : Tree) : Prop :=
  ∀ l ∈ n.dir.way, ∀ x, t.entry? l ≠ some (.file x)

/-- There are directories all the way to the namespace. -/
def Present (n : Namespace) (t : Tree) : Prop := ∀ l ∈ n.dir.way, t.entry? l = some .directory

/-- The path of the root does not lead through the namespace. -/
def Bypassed (n : Namespace) : Prop := ∀ l ∈ n.root.way, ¬ n.home <+: l

end Namespace

/-- The path of the root does not lead through the place of the document or of its draft. -/
def Context.Bypassed (c : Context) : Prop :=
  c.path.location ∉ c.space.root.way ∧ c.draft.location ∉ c.space.root.way

/-- A tree that can hold the documents below a root: no file is on the way to a namespace, and one
whose directory is there can be reached; each document, where there is one, is an object without
doubles, and the root does not lead through it. -/
structure Storable (root : Path) (t : Tree) : Prop where
  sound : t.Sound
  unblocked : ∀ n : Namespace, n.root = root → n.Unblocked t
  present : ∀ n : Namespace, n.root = root → t.entry? n.home = some .directory → n.Present t
  documents : ∀ c : Context, c.space.root = root →
    ∃ entries, c.Displays t entries ∧ (Value.object entries).FloatFree
  drafts : ∀ c : Context, c.space.root = root → t.entry? c.draft.location ≠ some .directory
  bypassed : ∀ c : Context, c.space.root = root → c.Bypassed

/-- A tree that holds the contents below a root. -/
structure Holds (root : Path) (t : Tree) (m : Contents) : Prop where
  storable : Storable root t
  agrees : ∀ c : Context, c.space.root = root → contents t c = m c

theorem Storable.holds {root : Path} {t : Tree} (h : Storable root t) : Holds root t (contents t) :=
  ⟨h, fun _ _ => rfl⟩

/-! ## Places -/

namespace Namespace

theorem home_isBase (n : Namespace) : isBase n.home = false := by
  rw [home_eq]
  exact n.name.isFileName.isBase_concat _

theorem length_home (n : Namespace) : n.home.length = n.root.location.length + 1 := by
  rw [home_eq, List.length_append, List.length_singleton]

/-- Below one root, each directory belongs to one namespace only. -/
theorem eq_of_home_isPrefix {n n' : Namespace} (h : n.root = n'.root) {l : Location}
    (hp : n.home <+: n'.home ++ l) : n = n' := by
  rw [home_eq, home_eq, h, List.append_assoc, List.prefix_append_right_inj,
    List.singleton_append, List.cons_prefix_cons] at hp
  obtain ⟨root, n⟩ := n
  obtain ⟨root', n'⟩ := n'
  simp only at h hp
  rw [h, StorageName.ext hp.1]

end Namespace

namespace Context

variable {c : Context} {t t' : Tree} {entries : Object}

/-- What lies in a namespace lies deeper than all namespaces of the root. -/
theorem not_isPrefix_home {n : Namespace} (h : n.root = c.space.root) (file : String) :
    ¬ c.space.home ++ [file] <+: n.home := fun hp => by
  have hlen := hp.length_le
  rw [List.length_append, Namespace.length_home, Namespace.length_home, h,
    List.length_singleton] at hlen
  omega

theorem path_not_isPrefix_home {n : Namespace} (h : n.root = c.space.root) :
    ¬ c.path.location <+: n.home := path_location c ▸ not_isPrefix_home h _

theorem draft_not_isPrefix_home {n : Namespace} (h : n.root = c.space.root) :
    ¬ c.draft.location <+: n.home := draft_location c ▸ not_isPrefix_home h _

theorem Displays.stored? (h : c.Displays t entries) : c.stored? t = some entries := by
  unfold Context.stored? text?
  obtain ⟨hn, rfl⟩ | ⟨s, hs, hv⟩ := h
  · rw [hn]
  · rw [hs]
    dsimp only
    rw [hv]

theorem Displays.contents (h : c.Displays t entries) :
    DeviceBridge.contents t c = entries.get? := by
  funext key
  unfold DeviceBridge.contents
  rw [h.stored?, Option.bind_some]

theorem Displays.congr (h : c.Displays t entries)
    (he : t'.entry? c.path.location = t.entry? c.path.location) : c.Displays t' entries := by
  unfold Displays
  rw [he]
  exact h

theorem Displays.not_directory (h : c.Displays t entries) :
    t.entry? c.path.location ≠ some .directory := by
  obtain ⟨hn, -⟩ | ⟨s, hs, -⟩ := h
  · simp [hn]
  · simp [hs]

theorem Displays.plain (h : c.Displays t entries) (hf : (Value.object entries).FloatFree) :
    (Value.object entries).Plain Json.nestingLimit := by
  obtain ⟨-, rfl⟩ | ⟨s, -, hv⟩ := h
  · exact ⟨by decide, List.Pairwise.nil, trivial⟩
  · exact Json.plain_of_readValue hv hf

/-! ## Loading, without faults -/

variable {d : Disk}

theorem attains_load (h : d.Faultless) (hs : c.Shows d.tree entries) :
    Attains c.load d (fun r d' => d'.Faultless ∧ d'.tree = d.tree ∧ r = entries) := by
  unfold load
  have hread : (∃ s, d.tree.read c.path = .ok s) ∨ d.tree.read c.path = .error .notFound :=
    hs.elim (fun h => .inr h.1) fun ⟨s, h, _⟩ => .inl ⟨s, h⟩
  refine after_bind ((after_ofDisk (Disk.attains_ifPresent_read h hread)).imp
    fun r d' h' => ?_)
  obtain ⟨hf, ht, hr⟩ := h'
  obtain ⟨hn, rfl⟩ | ⟨s, hok, hv⟩ := hs
  · cases r with
    | none => exact after_pure ⟨hf, ht, rfl⟩
    | some s => rw [hn] at hr; cases hr
  · cases r with
    | none => rw [hok] at hr; cases hr
    | some s' =>
        obtain rfl := Except.ok.inj (hok.symm.trans hr)
        dsimp only
        rw [hv]
        exact after_bind (after_pure (after_pure ⟨hf, ht, rfl⟩))

/-! ## Saving -/

/-- Whatever the disk is like, no document is written whose name leaves no room for the extensions
of the draft. -/
theorem after_save_size (c : Context) (entries : Object) :
    After (c.save entries) d (fun _ _ => c.name.text.utf8ByteSize + 9 ≤ nameLimit)
      fun _ _ => True := by
  refine after_ofDisk (after_bind (.intro (fun _ d₁ _ => ?_) fun _ _ _ => trivial))
  refine after_bind ((Disk.after_access _ _).mono (fun _ _ hw => ?_) fun _ _ _ => trivial)
  refine .intro (fun _ _ _ => ?_) fun _ _ _ => trivial
  replace hw := hw.2
  unfold Tree.write at hw
  cases hl : d₁.tree.locate c.draft with
  | error e => rw [hl] at hw; cases hw
  | ok l =>
      rw [draft_eq] at hl
      have hsize := (Path.directory_of_locate_join c.draft_isFileName.slashless
        c.space.dir_text_ne_empty hl).2.2 c.draft_isFileName.notIdle c.draft_isFileName.notAbove
      rw [String.ofList_toList, String.utf8ByteSize_append, String.utf8ByteSize_append] at hsize
      exact hsize

theorem size_le_of_set {key : String} {v : Value} {d' : Disk} (h : c.set key v d = .ok () d') :
    c.name.text.utf8ByteSize + 9 ≤ nameLimit := by
  have hset : After (c.set key v) d (fun _ _ => c.name.text.utf8ByteSize + 9 ≤ nameLimit)
      fun _ _ => True := by
    unfold set
    exact after_bind (.intro (fun _ _ _ => after_save_size c _) fun _ _ _ => trivial)
  exact hset.of_ok h

end Context

/-! ## What is held -/

namespace Holds

variable {root : Path} {t : Tree} {m : Contents}

theorem displays (h : Holds root t m) {c : Context} (hc : c.space.root = root) :
    ∃ entries, c.Displays t entries ∧ (Value.object entries).Plain Json.nestingLimit ∧
      entries.get? = m c := by
  obtain ⟨entries, hd, hf⟩ := h.storable.documents c hc
  exact ⟨entries, hd, hd.plain hf, hd.contents.symm.trans (h.agrees c hc)⟩

/-- A tree in which every document is seen to hold what some contents say, holds them. -/
theorem of_displays (hs : t.Sound)
    (hunblocked : ∀ n : Namespace, n.root = root → n.Unblocked t)
    (hpresent : ∀ n : Namespace, n.root = root → t.entry? n.home = some .directory → n.Present t)
    (hdrafts : ∀ c : Context, c.space.root = root → t.entry? c.draft.location ≠ some .directory)
    (hbypassed : ∀ c : Context, c.space.root = root → c.Bypassed)
    (hdocs : ∀ c : Context, c.space.root = root → ∃ entries, c.Displays t entries ∧
      (Value.object entries).Plain Json.nestingLimit ∧ entries.get? = m c) : Holds root t m :=
  ⟨⟨hs, hunblocked, hpresent, fun c hc => (hdocs c hc).imp fun _ h => ⟨h.1, h.2.1.floatFree⟩,
    hdrafts, hbypassed⟩,
    fun c hc => by
      obtain ⟨entries, hd, -, hget⟩ := hdocs c hc
      rw [hd.contents, hget]⟩

end Holds

end DeviceBridge
