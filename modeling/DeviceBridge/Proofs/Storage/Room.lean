import DeviceBridge.Proofs.Storage.Layout
import DeviceBridge.Proofs.Storage.Place

/-!
# DeviceBridge.Proofs.Storage.Room

What it takes to read and write documents on a disk without faults, whatever path the root of the
storage takes. No file may be on the way to the namespace (`Namespace.Unblocked`), which is so if
its directory can be removed and made again (`Namespace.Renewable.unblocked`), and there must be
room for the document and its draft (`Context.Writable`). Then the document is written
(`Context.attains_save_writable`), and it is not written otherwise (`Context.after_save_writable`).
-/

namespace DeviceBridge.Files

/-! ## Paths without a file in the way -/

namespace Path

variable {dir : Path} {name : String}

namespace Passable

/-- A passable path into a directory begins with a passable path to it. -/
theorem dir_of_join (hd : dir.EndsInName) (hn : '/' ∉ name.toList)
    (h : (dir.join name).Passable) : dir.Passable := by
  refine ⟨pathFault?_of_append (text_join_append hd name) h.sayable, text_ne_empty hd,
    fun piece hp => ?_⟩
  exact h.fits piece (pieces_join hd hn ▸ List.mem_append_left _ hp)

/-- A shorter name is no trouble where a longer one is none. -/
theorem shorten {suffix : String} (hd : dir.EndsInName) (hn : IsFileName name.toList)
    (hs : IsFileName (name ++ suffix).toList) (h : (dir.join (name ++ suffix)).Passable) :
    (dir.join name).Passable := by
  have htext : (dir.join (name ++ suffix)).text = (dir.join name).text ++ suffix := by
    rw [text_join_append hd, text_join_append hd, String.append_assoc, String.append_assoc]
  refine ⟨pathFault?_of_append htext h.sayable, text_ne_empty (endsInName_join dir hn),
    fun piece hp => ?_⟩
  rw [pieces_join hd hn.slashless] at hp
  rcases List.mem_append.mp hp with hp | hp
  · exact (h.dir_of_join hd hs.slashless).fits piece hp
  · obtain rfl := List.mem_singleton.mp hp
    have hlong := h.fits (name ++ suffix).toList
      (pieces_join hd hs.slashless ▸ List.mem_append_right _ (List.mem_singleton_self _))
      hs.notIdle hs.notAbove
    intro _ _
    rw [String.ofList_toList] at hlong ⊢
    rw [String.utf8ByteSize_append] at hlong
    omega

end Passable

end Path

namespace Tree

variable {t : Tree}

/-- Without a file on the way, pieces are gone along to the end, or something is missing. -/
theorem walk_of_fileless {l : Location} {pieces : List (List Char)}
    (hl : t.entry? l = some .directory) (hfits : ∀ piece ∈ pieces, Fits piece)
    (hclear : ∀ m ∈ way l pieces, ∀ c, t.entry? m ≠ some (.file c)) :
    pieces.foldlM t.enter l = .ok (pieces.foldl along l) ∨
      pieces.foldlM t.enter l = .error .notFound := by
  induction pieces generalizing l with
  | nil => exact .inl rfl
  | cons piece rest ih =>
      have henter : t.enter l piece = .ok (along l piece) :=
        enter_eq_ok_iff.mpr ⟨hl, hfits piece List.mem_cons_self, rfl⟩
      have hrest := fun q hq => hfits q (List.mem_cons_of_mem piece hq)
      have hfile := hclear _ List.mem_cons_self
      rw [List.foldlM_cons, henter]
      cases he : t.entry? (along l piece) with
      | some e =>
          cases e with
          | directory => exact ih he hrest fun m hm => hclear m (List.mem_cons_of_mem _ hm)
          | file c => exact absurd he (hfile c)
      | none =>
          cases rest with
          | nil => exact .inl rfl
          | cons next rest =>
              have hmissing : t.enter (along l piece) next = .error .notFound := by
                unfold enter
                rw [he]
              refine .inr ?_
              simp only [bind, Except.bind, List.foldlM_cons, hmissing]

section
variable {p : Path} (hp : p.Passable) (hclear : ∀ m ∈ p.way, ∀ c, t.entry? m ≠ some (.file c))
include hp hclear

theorem locate_of_fileless : t.locate p = .ok p.location ∨ t.locate p = .error .notFound := by
  unfold locate
  simp only [hp.sayable, hp.nonempty, if_false]
  exact walk_of_fileless (entry?_start t p) hp.fits hclear

variable (hn : t.entry? p.location = none)
include hn

/-- A passable path without a file on the way at whose end nothing is leads to nothing. -/
theorem read_of_missing : t.read p = .error .notFound := by
  unfold read find
  rcases locate_of_fileless hp hclear with hok | herr
  · rw [hok]
    simp only [bind, Except.bind, hn]
  · rw [herr]
    rfl

theorem removeTree_of_missing : t.removeTree p = .error .notFound := by
  unfold removeTree
  rcases locate_of_fileless hp hclear with hok | herr
  · rw [hok]
    simp only [bind, Except.bind, hn]
  · rw [herr]
    rfl

end

end Tree

end DeviceBridge.Files

namespace DeviceBridge

open Json (Value Object)
open Files

/-! ## Namespaces -/

namespace Namespace

/-- The directory of the namespace can be removed and made again. -/
def Renewable (n : Namespace) (d : Disk) : Prop :=
  succeeds (do n.erase; Storing.ofDisk (Disk.makeDirs n.dir)) d = true

instance (n : Namespace) (d : Disk) : Decidable (n.Renewable d) :=
  inferInstanceAs (Decidable (_ = true))

variable {n n' : Namespace} {t : Tree} {d : Disk}

/-- What is on the way to a namespace is on the way to its root, or is the namespace. -/
theorem mem_way {l : Location} (hl : l ∈ n.dir.way) : l ∈ n.root.way ∨ l = n.home :=
  Path.mem_way_of_join n.name.isFileName.slashless hl

theorem Present.unblocked (h : n.Present t) : n.Unblocked t := fun l hl x => by
  rw [h l hl]
  exact nofun

theorem Present.reached (h : n.Present t) (hp : n.dir.Passable) : n.Reached t :=
  ⟨Tree.locate_of_way hp h, h _ n.dir.location_mem_way⟩

/-- With one namespace, all of the root whose directories are there can be reached. -/
theorem Present.of_root (h : n.Present t) (hroot : n'.root = n.root)
    (hd : t.entry? n'.home = some .directory) : n'.Present t := fun l hl => by
  obtain hl | rfl := mem_way hl
  · rw [hroot] at hl
    obtain hl | hb := Path.mem_way_join_of_mem n.name.isFileName.slashless hl
    · exact h l hl
    · exact Tree.entry?_of_isBase hb
  · exact hd

/-- Where the directory can be removed and made again, no file is on the way. -/
theorem Renewable.unblocked (h : n.Renewable d) (hs : d.tree.Sound) : n.Unblocked d.tree := by
  have hremoved : After n.erase d
      (fun _ d₁ => n.Present d.tree ∨ d₁.tree = d.tree) (fun _ _ => True) := by
    refine Context.after_ofDisk (after_bind ((Disk.after_ifPresent
      (Disk.after_change (·.removeTree n.dir) _)).mono (fun r d₁ h₁ => after_pure ?_)
      fun _ _ _ => trivial))
    cases r with
    | some u =>
        obtain ⟨hlocate, hdir, -⟩ := Tree.of_removeTree_eq_ok h₁.2
        exact .inl (Tree.directories_of_locate hlocate hdir)
    | none =>
        obtain ⟨-, ⟨-, ht⟩ | ⟨k, f, -, he, -⟩⟩ := h₁
        · exact .inr ht
        · exact absurd he.symm f.ne_notFound
  have hboth : After (do n.erase; Storing.ofDisk (Disk.makeDirs n.dir)) d
      (fun _ _ => n.Unblocked d.tree) (fun _ _ => True) := by
    refine after_bind ((hremoved.and (after_erase_place hs n)).mono (fun _ d₁ h₁ => ?_)
      fun _ _ _ => trivial)
    obtain ⟨hpresent | ht, hs₁, -⟩ := h₁
    · exact .intro (fun _ _ _ => hpresent.unblocked) fun _ _ _ => trivial
    · exact Context.after_ofDisk ((Disk.after_makeDirs_way hs₁
        n.dir_text_ne_empty).mono (fun _ _ hpaved => ht ▸ hpaved.clear)
        fun _ _ _ => trivial)
  exact hboth.of_ok (eq_ok_of_succeeds h)

/-- A namespace that is there is erased with all that it holds. -/
theorem attains_erase_present (h : d.Faultless) (hs : d.tree.Sound) (hp : n.dir.Passable)
    (hn : n.Present d.tree) :
    Attains n.erase d (fun _ d' => d'.Faultless ∧ d'.tree.Sound ∧
      ∀ l, d'.tree.entry? l = if n.home <+: l then none else d.tree.entry? l) := by
  have hremove : d.tree.removeTree n.dir = .ok (d.tree.prune n.dir.location) :=
    Tree.removeTree_of_directory (Tree.locate_of_way hp hn) (hn _ n.dir.location_mem_way)
      n.home_isBase
  have hwork : (d.tree.removeTree n.dir).map ((), ·) = .ok ((), d.tree.prune n.dir.location) := by
    rw [hremove]
    rfl
  refine Context.after_ofDisk (after_bind ((Disk.attains_ifPresent h
    (.inl ⟨(), _, hwork⟩)).imp fun r d' h' => after_pure ?_))
  cases r with
  | none => cases hwork.symm.trans h'.2.1
  | some u =>
      obtain ⟨-, ht⟩ := Prod.mk.inj (Except.ok.inj (hwork.symm.trans h'.2))
      rw [← ht]
      exact ⟨h'.1, Disk.removeTree_eq_ok hs hremove⟩

/-- A namespace is erased with all that it holds, unless it is missing anyway. -/
theorem attains_erase (h : d.Faultless) (hs : d.tree.Sound) (hp : n.dir.Passable)
    (hn : n.Unblocked d.tree)
    (hpresent : d.tree.entry? n.home = some .directory → n.Present d.tree) :
    Attains n.erase d (fun _ d' => d'.Faultless ∧ d'.tree.Sound ∧
      ∀ l, d'.tree.entry? l = if n.home <+: l then none else d.tree.entry? l) := by
  cases he : d.tree.entry? n.home with
  | some e =>
      cases e with
      | directory => exact attains_erase_present h hs hp (hpresent he)
      | file x => exact absurd he (hn _ n.dir.location_mem_way x)
  | none =>
      have hmissing := Tree.removeTree_of_missing hp hn he
      have hwork : (d.tree.removeTree n.dir).map ((), ·) = .error .notFound := by
        rw [hmissing]
        rfl
      refine Context.after_ofDisk (after_bind ((Disk.attains_ifPresent h (.inr hwork)).imp
        fun r d' h' => after_pure ?_))
      cases r with
      | some u => cases hwork.symm.trans h'.2
      | none =>
          obtain ⟨hf, -, ht⟩ := h'
          rw [ht]
          refine ⟨hf, hs, fun l => ?_⟩
          split
          · next hl =>
            by_cases heq : l = n.home
            · rw [heq, he]
            · exact hs.below_isPrefix (by simp [he]) hl heq
          · rfl

end Namespace

/-! ## Documents -/

namespace Context

/-- The document can be written: the path of its draft is no trouble to the file system, and no
directory is where the document or the draft belongs, nor is one made there on the way. -/
structure Writable (c : Context) (t : Tree) : Prop where
  passable : c.draft.Passable
  path_not_mem_way : c.path.location ∉ c.space.dir.way
  path : t.entry? c.path.location ≠ some .directory
  draft_not_mem_way : c.draft.location ∉ c.space.dir.way
  draft : t.entry? c.draft.location ≠ some .directory

variable {c : Context} {t t' : Tree} {entries : Object} {d : Disk}

theorem hasRoom_of_passable (h : c.draft.Passable) : c.HasRoom := by
  refine ⟨h.sayable, h.fits _ ?_⟩
  rw [draft_eq, Path.pieces_join c.space.endsInName_dir c.draft_isFileName.slashless]
  exact List.mem_append_right _ (List.mem_singleton_self _)

theorem passable_path (h : c.draft.Passable) : c.path.Passable := by
  rw [draft_eq] at h
  exact h.shorten c.space.endsInName_dir c.isFileName c.draft_isFileName

theorem passable_dir (h : c.path.Passable) : c.space.dir.Passable :=
  h.dir_of_join c.space.endsInName_dir c.isFileName.slashless

theorem locate_of_present (hp : c.path.Passable) (hn : c.space.Present t) :
    t.locate c.path = .ok c.path.location := by
  have hreached := hn.reached (passable_dir hp)
  exact Path.locate_join_of_fits c.isFileName.slashless hreached.1 hreached.2 hp.sayable
    (hp.fits_join c.isFileName.slashless)

/-- At a place in a namespace that is there, a document is seen as what is at its place. -/
theorem Displays.shows_of_present (h : c.Displays t entries) (hp : c.path.Passable)
    (hn : c.space.Present t) : c.Shows t entries := by
  have hlocate := locate_of_present hp hn
  obtain ⟨hnone, rfl⟩ | ⟨s, hs, hv⟩ := h
  · refine .inl ⟨?_, rfl⟩
    unfold Tree.read Tree.find
    rw [hlocate]
    simp only [bind, Except.bind, hnone]
  · exact .inr ⟨s, Tree.read_eq_ok_iff.mpr ⟨hlocate, hs⟩, hv⟩

/-- In a namespace that is there, nothing is overlooked. -/
theorem Shows.displays_of_present (h : c.Shows t entries) (hp : c.path.Passable)
    (hn : c.space.Present t) : c.Displays t entries := by
  have hlocate := locate_of_present hp hn
  obtain ⟨hnone, rfl⟩ | ⟨s, hs, hv⟩ := h
  · refine .inl ⟨?_, rfl⟩
    unfold Tree.read Tree.find at hnone
    rw [hlocate] at hnone
    simp only [bind, Except.bind] at hnone
    cases he : t.entry? c.path.location with
    | none => rfl
    | some e =>
        rw [he] at hnone
        rcases e with _ | _ | _ <;> cases hnone
  · exact .inr ⟨s, (Tree.read_eq_ok_iff.mp hs).2, hv⟩

/-- Where nothing is, nothing is shown. -/
theorem shows_nil (hp : c.path.Passable) (hn : c.space.Unblocked t)
    (h : t.entry? c.path.location = none) : c.Shows t [] := by
  refine .inl ⟨Tree.read_of_missing hp (fun m hm x => ?_) h, rfl⟩
  obtain hm | hm := Path.mem_way_of_join c.isFileName.slashless hm
  · exact hn m hm x
  · have hend : m = c.path.location := hm
    rw [hend, h]
    exact nofun

/-- Without a file on the way, a document is seen as what is at its place, if its namespace can be
reached or is missing. -/
theorem Displays.shows (h : c.Displays t entries) (hs : t.Sound) (hp : c.path.Passable)
    (hn : c.space.Unblocked t)
    (hpresent : t.entry? c.space.home = some .directory → c.space.Present t) :
    c.Shows t entries := by
  by_cases hd : t.entry? c.space.home = some .directory
  · exact h.shows_of_present hp (hpresent hd)
  · have hnone : t.entry? c.path.location = none := by
      rw [path_location]
      exact hs.below hd _ (by simp)
    obtain ⟨-, rfl⟩ | ⟨s, hs, -⟩ := h
    · exact shows_nil hp hn hnone
    · cases hnone.symm.trans hs

/-- What can be written is written. -/
theorem attains_save_writable (h : d.Faultless) (hs : d.tree.Sound) (hn : c.space.Unblocked d.tree)
    (hc : c.Writable d.tree) (entries : Object) :
    Attains (c.save entries) d (fun _ d' => d'.Faultless ∧ c.Written entries d.tree d'.tree) := by
  have hne : c.draft.location ≠ c.path.location := (path_ne_draft _ _).symm
  have hdir := passable_dir (passable_path hc.passable)
  have hsave : Attains (c.save entries) d (fun _ d' => d'.Faultless) := by
    refine after_ofDisk (after_bind ((Disk.attains_makeDirs_way h hs hdir hn).imp
      fun _ d₁ h₁ => ?_))
    obtain ⟨hf₁, hpaved⟩ := h₁
    have hpresent : c.space.Present d₁.tree := fun l hl => by rw [hpaved.place, if_pos hl]
    have hreached := hpresent.reached hdir
    have hroom := hasRoom_of_passable hc.passable
    refine (Disk.attains_replace hf₁ hpaved.sound _ (hroom.locate_draft hreached)
      (hroom.locate_path hreached) ?_ ?_ hne).imp fun _ _ h₂ => h₂.1
    · rw [hpaved.place, if_neg hc.draft_not_mem_way]
      exact hc.draft
    · rw [hpaved.place, if_neg hc.path_not_mem_way]
      exact hc.path
  exact (hsave.and (after_save_written hs c entries)).mono (fun _ _ h => h) fun _ _ h => h.1

/-- Only what can be written is written, also on a disk with faults. -/
theorem after_save_writable (hs : d.tree.Sound) (c : Context) (entries : Object) :
    After (c.save entries) d (fun _ _ => c.Writable d.tree) fun _ _ => True := by
  have hne : c.draft.location ≠ c.path.location := (path_ne_draft _ _).symm
  refine after_ofDisk (after_bind ((Disk.after_makeDirs_way hs
    c.space.dir_text_ne_empty).mono (fun _ d₁ h₁ => ?_) fun _ _ _ => trivial))
  -- What is no directory after the way has been made was none before.
  have hfree {l : Location} (hl : d₁.tree.entry? l ≠ some .directory) :
      l ∉ c.space.dir.way ∧ d.tree.entry? l ≠ some .directory := by
    rw [h₁.place] at hl
    by_cases hw : l ∈ c.space.dir.way
    · exact absurd (if_pos hw) hl
    · exact ⟨hw, by rwa [if_neg hw] at hl⟩
  refine after_bind (((Disk.after_write h₁.sound c.draft _).and
    (Disk.after_write_place h₁.sound c.draft _)).mono (fun _ d₂ h₂ => ?_) fun _ _ _ => trivial)
  obtain ⟨⟨-, hs₂, -, hlocate, hfile⟩, -, hdraft, hplace⟩ := h₂
  refine (Disk.after_rename_place hs₂ hfile hne).imp fun _ d₃ h₃ => ?_
  have hpath := h₃.2.1
  rw [hplace, if_neg hne.symm] at hpath
  exact ⟨Tree.passable_of_locate hlocate, (hfree hpath).1, (hfree hpath).2, (hfree hdraft).1,
    (hfree hdraft).2⟩

/-- A value is set in a document that can be read and written. -/
theorem attains_set_writable (h : d.Faultless) (hs : d.tree.Sound)
    (hn : c.space.Unblocked d.tree) (hc : c.Writable d.tree) (hshow : c.Shows d.tree entries)
    (key : String) (v : Value) :
    Attains (c.set key v) d
      (fun _ d' => d'.Faultless ∧ c.Written (entries.insert key v) d.tree d'.tree) := by
  unfold set
  refine after_bind ((attains_load h hshow).imp fun _ d₁ h₁ => ?_)
  obtain ⟨hf₁, ht₁, rfl⟩ := h₁
  rw [← ht₁] at hs hn hc ⊢
  exact attains_save_writable hf₁ hs hn hc _

theorem after_set_writable (hs : d.tree.Sound) (c : Context) (key : String) (v : Value) :
    After (c.set key v) d (fun _ _ => c.Writable d.tree) fun _ _ => True := by
  unfold set
  refine after_bind ((after_load c).mono (fun _ d₁ h₁ => ?_) fun _ _ _ => trivial)
  rw [← h₁.2.1] at hs ⊢
  exact after_save_writable hs c _

theorem attains_has (h : d.Faultless) (hshow : c.Shows d.tree entries) (key : String) :
    Attains (c.has key) d (fun _ d' => d'.Faultless ∧ d'.tree = d.tree) := by
  unfold has
  exact after_bind ((attains_load h hshow).imp fun _ _ h₁ => after_pure ⟨h₁.1, h₁.2.1⟩)

/-- A value that is of the type asked for is found, or none is there. -/
theorem attains_get? {α : Type} [Json.Codec α] (h : d.Faultless) (hshow : c.Shows d.tree entries)
    {key : String}
    (hv : ∀ v, entries.get? key = some v → ∃ a : α, Json.decodeValue v = .ok a) :
    Attains (c.get? α key) d (fun _ d' => d'.Faultless ∧ d'.tree = d.tree) := by
  unfold get? find?
  refine after_bind (after_bind ((attains_load h hshow).imp fun r d₁ h₁ => ?_))
  obtain ⟨hf₁, ht₁, hr⟩ := h₁
  rw [hr]
  refine after_pure ?_
  cases he : entries.get? key with
  | none => exact after_pure ⟨hf₁, ht₁⟩
  | some v =>
      obtain ⟨a, ha⟩ := hv v he
      dsimp only
      rw [ha]
      exact after_bind (after_pure (after_pure ⟨hf₁, ht₁⟩))

/-- Once a document has been written, its namespace is there. -/
theorem Written.present (h : c.Written entries t t') : c.space.Present t' := fun l hl => by
  have hpath : l ≠ c.path.location := fun heq => h.path_not_mem_way (heq ▸ hl)
  have hdraft : l ≠ c.draft.location := fun heq => h.draft_not_mem_way (heq ▸ hl)
  rw [h.place, if_neg hpath, if_neg hdraft, if_pos hl]

/-- What has been written can be seen at its place. -/
theorem Written.displays (h : c.Written entries t t')
    (hp : (Value.object entries).Plain Json.nestingLimit) : c.Displays t' entries :=
  .inr ⟨_, by rw [h.place, if_pos rfl], Json.readValue_pretty_of_plain hp⟩

/-- Writing one document does not concern what is at the place of another one. -/
theorem Written.place_other (h : c.Written entries t t') {l : Location}
    (hpath : l ≠ c.path.location) (hdraft : l ≠ c.draft.location) (hway : l ∉ c.space.dir.way) :
    t'.entry? l = t.entry? l := by
  rw [h.place, if_neg hpath, if_neg hdraft, if_neg hway]

end Context

end DeviceBridge
