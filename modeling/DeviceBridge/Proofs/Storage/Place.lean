import DeviceBridge.Proofs.Files.Way
import DeviceBridge.Proofs.Storage.Contents

/-!
# DeviceBridge.Proofs.Storage.Place

What lies where once a document has been written or a namespace erased, whatever path the root of
the storage took and whatever was there. The document is the only file that has changed, and there
are directories on the way to it (`Context.Written`).
-/

namespace DeviceBridge

open Json (Value Object)
open Files

namespace Context

theorem home_isPrefix_path (c : Context) : c.space.home <+: c.path.location :=
  path_location c ▸ List.prefix_append _ _

theorem home_isPrefix_draft (c : Context) : c.space.home <+: c.draft.location :=
  draft_location c ▸ List.prefix_append _ _

/-- From one tree to another a document has been written; directories have been made on the way to
it, and its draft is gone. -/
structure Written (c : Context) (entries : Object) (t t' : Tree) : Prop where
  sound : t'.Sound
  /-- No file was on the way. -/
  clear : ∀ l ∈ c.space.dir.way, ∀ x, t.entry? l ≠ some (.file x)
  path_not_mem_way : c.path.location ∉ c.space.dir.way
  draft_not_mem_way : c.draft.location ∉ c.space.dir.way
  place : ∀ l, t'.entry? l =
    if l = c.path.location then some (.file (.text (Value.object entries).pretty))
    else if l = c.draft.location then none
    else if l ∈ c.space.dir.way then some .directory else t.entry? l

variable {c : Context} {t t' : Tree} {entries : Object} {d : Disk}

theorem after_save_written (hs : d.tree.Sound) (c : Context) (entries : Object) :
    After (c.save entries) d (fun _ d' => c.Written entries d.tree d'.tree) fun _ _ => True := by
  have hne : c.draft.location ≠ c.path.location := (path_ne_draft _ _).symm
  refine after_ofDisk (after_bind ((Disk.after_makeDirs_way hs
    c.space.dir_text_ne_empty).mono (fun _ d₁ h₁ => ?_) fun _ _ _ => trivial))
  refine after_bind ((Disk.after_write_place h₁.sound c.draft _).imp fun _ d₂ h₂ => ?_)
  obtain ⟨hs₂, hdraft, ht₂⟩ := h₂
  refine (Disk.after_rename_place hs₂ (by rw [ht₂, if_pos rfl]) hne).imp fun _ d₃ h₃ => ?_
  obtain ⟨hs₃, hpath, ht₃⟩ := h₃
  -- What could be written over was no directory, and on the way there are only directories.
  rw [ht₂, if_neg hne.symm, h₁.place] at hpath
  rw [h₁.place] at hdraft
  refine ⟨hs₃, h₁.clear, fun hw => hpath (if_pos hw), fun hw => hdraft (if_pos hw), fun l => ?_⟩
  rw [ht₃]
  by_cases hlp : l = c.path.location
  · rw [if_pos hlp, if_pos hlp]
  · rw [if_neg hlp, if_neg hlp]
    by_cases hld : l = c.draft.location
    · rw [if_pos hld, if_pos hld]
    · rw [if_neg hld, if_neg hld, ht₂, if_neg hld, h₁.place]

theorem after_set_written (hs : d.tree.Sound) (c : Context) (key : String) (v : Value) :
    After (c.set key v) d
      (fun _ d' => ∃ entries, c.Shows d.tree entries ∧
        c.Written (entries.insert key v) d.tree d'.tree)
      (fun _ _ => True) := by
  unfold set
  refine after_bind ((after_load c).mono (fun entries d₁ h₁ => ?_) fun _ _ _ => trivial)
  obtain ⟨-, ht₁, hshow⟩ := h₁
  rw [← ht₁] at hs
  exact (after_save_written hs c _).imp fun _ d₂ h₂ => ⟨entries, hshow, ht₁ ▸ h₂⟩

/-- Where nothing is, nothing is shown. -/
theorem Shows.eq_nil (h : c.Shows t entries)
    (hn : ∀ x, t.entry? c.path.location ≠ some (.file x)) : entries = [] := by
  obtain ⟨-, rfl⟩ | ⟨s, hr, -⟩ := h
  · rfl
  · exact absurd (Tree.read_eq_ok_iff.mp hr).2 (hn _)

/-- Whatever lies outside of the namespace stays as it was, but for directories on the way. -/
theorem Written.outside (h : c.Written entries t t') {l : Location} (hl : ¬ c.space.home <+: l) :
    t'.entry? l = if l ∈ c.space.dir.way then some .directory else t.entry? l := by
  have hpath : l ≠ c.path.location := fun heq => hl (heq ▸ home_isPrefix_path c)
  have hdraft : l ≠ c.draft.location := fun heq => hl (heq ▸ home_isPrefix_draft c)
  rw [h.place, if_neg hpath, if_neg hdraft]

end Context

namespace Namespace

variable {d : Disk}

/-- Where a document has been read, its namespace is erased with all that it holds. -/
theorem after_erase_place (hs : d.tree.Sound) (n : Namespace) :
    After n.erase d
      (fun _ d' => d'.tree.Sound ∧
        ∀ (c : Context) (s : String), c.space = n → d.tree.read c.path = .ok s →
          ∀ l, d'.tree.entry? l = if n.home <+: l then none else d.tree.entry? l)
      (fun _ d' => d'.tree.Sound) := by
  refine Context.after_ofDisk (after_bind ((Disk.after_ifPresent
    (Disk.after_removeTree_any hs n.dir)).mono (fun r d' h => after_pure ?_) fun _ _ h => h.1))
  cases r with
  | some u => exact ⟨h.1, fun _ _ _ _ => h.2⟩
  | none =>
      refine ⟨h.1, fun c s hc hr => ?_⟩
      subst hc
      obtain ⟨hl, hd, -⟩ := Path.directory_of_locate_join c.isFileName.slashless
        c.space.dir_text_ne_empty (Tree.read_eq_ok_iff.mp hr).1
      have hgone := h.2 rfl
      rw [Tree.removeTree_of_directory hl hd c.space.home_isBase] at hgone
      contradiction

theorem leaves_erase_sound (hs : d.tree.Sound) (n : Namespace) :
    Leaves n.erase d fun d' => d'.tree.Sound :=
  (after_erase_place hs n).imp fun _ _ h => h.1

end Namespace

end DeviceBridge
