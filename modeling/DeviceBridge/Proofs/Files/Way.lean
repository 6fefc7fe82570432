import DeviceBridge.Proofs.Files.Straight

/-!
# DeviceBridge.Proofs.Files.Way

What lies where once an access has succeeded, whatever path it took. Making directories leaves one
at each location on the way (`Path.way`), also at those that a path leads out of again, and nothing
else changes (`Disk.after_makeDirs_way`); without faults it succeeds unless a file is on the way
(`Disk.attains_makeDirs_way`). Writing and renaming change what lies at the named locations
(`Disk.after_write_place`, `Disk.after_rename_place`). A removal that is broken off may leave any
part of a directory, but nothing without the directories that it lies in (`Tree.Sound.thin`).
-/

namespace DeviceBridge.Files

/-! ## The way -/

/-- The locations that pieces lead through, one after the other. -/
def way (l : Location) : List (List Char) → List Location
  | [] => []
  | piece :: rest => along l piece :: way (along l piece) rest

/-- The locations that a path leads through, its end included. -/
def Path.way (p : Path) : List Location := Files.way (Tree.start p) p.pieces

theorem way_append (l : Location) (pieces rest : List (List Char)) :
    way l (pieces ++ rest) = way l pieces ++ way (pieces.foldl along l) rest := by
  induction pieces generalizing l with
  | nil => rfl
  | cons piece pieces ih => simp only [List.cons_append, way, ih, List.foldl_cons]

theorem foldl_mem_way (l : Location) {pieces : List (List Char)} (h : pieces ≠ []) :
    pieces.foldl along l ∈ way l pieces := by
  induction pieces generalizing l with
  | nil => exact absurd rfl h
  | cons piece rest ih =>
      cases rest with
      | nil => exact List.mem_cons_self
      | cons next rest => exact List.mem_cons_of_mem _ (ih _ (by simp))

theorem Path.location_mem_way (p : Path) : p.location ∈ p.way :=
  foldl_mem_way (Tree.start p) (splitSlashes_ne_nil _)

/-- The way to a name leads through the way to its directory and one location more. -/
theorem Path.mem_way_join_iff {dir : Path} {name : String} (htext : dir.text ≠ "")
    (hn : '/' ∉ name.toList) {m : Location} :
    m ∈ (dir.join name).way ↔ m ∈ dir.way ∨ m = (dir.join name).location := by
  obtain ⟨init, hjoin, hdir⟩ := exists_pieces_join dir hn
  have hway : (dir.join name).way =
      Files.way (Tree.start dir) init ++ [(dir.join name).location] := by
    unfold way location
    rw [start_join dir hn, hjoin, way_append, List.foldl_append]
    rfl
  have hsame : m ∈ Files.way (Tree.start dir) init ↔ m ∈ dir.way := by
    unfold way
    obtain h | h := hdir
    · rw [h]
    · -- The empty piece at the end leads to where the way has been before.
      have hinit : init ≠ [] := fun hnil => htext (text_eq_empty_iff.mpr (by rw [h, hnil]; rfl))
      have hidle : along (init.foldl along (Tree.start dir)) [] =
          init.foldl along (Tree.start dir) := along_of_isIdle (by decide) _
      rw [h, way_append, Files.way, Files.way, hidle, List.mem_append, List.mem_singleton]
      exact ⟨.inl, fun hm => hm.elim id fun heq => heq ▸ foldl_mem_way _ hinit⟩
  rw [hway, List.mem_append, List.mem_singleton, hsame]

/-- Without a directory before it, a name is all there is on its way. -/
theorem Path.mem_way_of_join {dir : Path} {name : String} (hn : '/' ∉ name.toList) {m : Location}
    (hm : m ∈ (dir.join name).way) : m ∈ dir.way ∨ m = (dir.join name).location := by
  by_cases htext : dir.text = ""
  · have hjoin : dir.join name = ⟨name⟩ := by
      unfold join
      rw [htext]
      rfl
    have hway : (dir.join name).way = [(dir.join name).location] := by
      unfold way location pieces
      rw [hjoin, splitSlashes_of_not_mem hn]
      rfl
    exact .inr (List.mem_singleton.mp (hway ▸ hm))
  · exact (mem_way_join_iff htext hn).mp hm

/-- What is on the way to a directory is on the way to a name in it, unless paths begin there. -/
theorem Path.mem_way_join_of_mem {dir : Path} {name : String} (hn : '/' ∉ name.toList)
    {m : Location} (hm : m ∈ dir.way) : m ∈ (dir.join name).way ∨ isBase m = true := by
  by_cases htext : dir.text = ""
  · have hway : dir.way = [[]] := by
      unfold way Tree.start Tree.isAbsolute pieces
      rw [htext]
      decide
    obtain rfl := List.mem_singleton.mp (hway ▸ hm)
    exact .inr Tree.isBase_nil
  · exact .inl ((mem_way_join_iff htext hn).mpr (.inl hm))

/-- On a straight way there is nothing but what the end lies in. -/
theorem Onward.isPrefix_of_mem_way {l m : Location} {pieces : List (List Char)}
    (h : Onward l pieces) (hm : m ∈ way l pieces) : m <+: pieces.foldl along l := by
  induction pieces generalizing l with
  | nil => cases hm
  | cons piece rest ih =>
      rcases List.mem_cons.mp hm with rfl | hm
      · exact h.2.2.isPrefix
      · exact ih h.2.2 hm

/-! ## Passable paths -/

/-- A path that can be gone along if there are directories on the way. -/
structure Path.Passable (p : Path) : Prop where
  sayable : Tree.pathFault? p = none
  nonempty : p.text ≠ ""
  fits : ∀ piece ∈ p.pieces, Fits piece

theorem Path.Passable.fits_join {dir : Path} {name : String} (h : (dir.join name).Passable)
    (hn : '/' ∉ name.toList) : Fits name.toList := by
  obtain ⟨init, hjoin, -⟩ := exists_pieces_join dir hn
  exact h.fits _ (hjoin ▸ List.mem_append_right _ (List.mem_singleton_self _))

namespace Tree

variable {t t' : Tree}

/-- A walk over two ways is a walk over the first and then over the second. -/
theorem walk_append {l m : Location} {pieces rest : List (List Char)}
    (h : (pieces ++ rest).foldlM t.enter l = .ok m) :
    pieces.foldlM t.enter l = .ok (pieces.foldl along l) ∧
      rest.foldlM t.enter (pieces.foldl along l) = .ok m := by
  rw [List.foldlM_append] at h
  cases hp : pieces.foldlM t.enter l with
  | error e => rw [hp] at h; contradiction
  | ok n =>
      rw [hp] at h
      obtain rfl := location_of_walk hp
      exact ⟨rfl, h⟩

/-- All that a walk to a directory leads through are directories. -/
theorem directories_of_walk {l : Location} {pieces : List (List Char)}
    (h : pieces.foldlM t.enter l = .ok (pieces.foldl along l))
    (hd : t.entry? (pieces.foldl along l) = some .directory) :
    ∀ m ∈ way l pieces, t.entry? m = some .directory := by
  induction pieces generalizing l with
  | nil => simp [way]
  | cons piece rest ih =>
      have hsplit : ([piece] ++ rest).foldlM t.enter l = .ok ((piece :: rest).foldl along l) := h
      obtain ⟨-, hrest⟩ := walk_append hsplit
      intro m hm
      rcases List.mem_cons.mp hm with rfl | hm
      · cases rest with
        | nil => exact hd
        | cons next rest =>
            rw [List.foldlM_cons] at hrest
            cases he : t.enter (along l piece) next with
            | error e => simp only [List.foldl_cons, List.foldl_nil, he] at hrest; contradiction
            | ok n => exact (enter_eq_ok_iff.mp he).1
      · exact ih hrest hd m hm

theorem directories_of_locate {p : Path} (h : t.locate p = .ok p.location)
    (hd : t.entry? p.location = some .directory) : ∀ m ∈ p.way, t.entry? m = some .directory :=
  directories_of_walk (locate_eq_ok_iff.mp h).2 hd

theorem fits_of_walk {l m : Location} {pieces : List (List Char)}
    (h : pieces.foldlM t.enter l = .ok m) : ∀ piece ∈ pieces, Fits piece := by
  induction pieces generalizing l with
  | nil => simp
  | cons piece rest ih =>
      rw [List.foldlM_cons] at h
      cases he : t.enter l piece with
      | error e => rw [he] at h; contradiction
      | ok n =>
          rw [he] at h
          intro q hq
          rcases List.mem_cons.mp hq with rfl | hq
          · exact (enter_eq_ok_iff.mp he).2.1
          · exact ih h q hq

theorem passable_of_locate {p : Path} {l : Location} (h : t.locate p = .ok l) : p.Passable := by
  obtain ⟨⟨hfault, hne⟩, hwalk⟩ := locate_eq_ok_iff.mp h
  exact ⟨hfault, hne, fits_of_walk hwalk⟩

theorem walk_of_way {l : Location} {pieces : List (List Char)} (hl : t.entry? l = some .directory)
    (hfits : ∀ piece ∈ pieces, Fits piece)
    (hway : ∀ m ∈ way l pieces, t.entry? m = some .directory) :
    pieces.foldlM t.enter l = .ok (pieces.foldl along l) := by
  induction pieces generalizing l with
  | nil => rfl
  | cons piece rest ih =>
      have henter : t.enter l piece = .ok (along l piece) :=
        enter_eq_ok_iff.mpr ⟨hl, hfits piece List.mem_cons_self, rfl⟩
      rw [List.foldlM_cons, henter]
      exact ih (hway _ List.mem_cons_self) (fun q hq => hfits q (List.mem_cons_of_mem piece hq))
        fun m hm => hway m (List.mem_cons_of_mem _ hm)

/-- Trees that have the same along a path are gone along in the same way. -/
theorem walk_congr {l : Location} {pieces : List (List Char)} (hl : t'.entry? l = t.entry? l)
    (h : ∀ m ∈ way l pieces, t'.entry? m = t.entry? m) :
    pieces.foldlM t'.enter l = pieces.foldlM t.enter l := by
  induction pieces generalizing l with
  | nil => rfl
  | cons piece rest ih =>
      obtain ⟨hm, hrest⟩ := List.forall_mem_cons.mp h
      have henter : t'.enter l piece = t.enter l piece := by
        unfold enter
        rw [hl]
      rw [List.foldlM_cons, List.foldlM_cons, henter]
      cases he : t.enter l piece with
      | error e => rfl
      | ok m =>
          obtain ⟨-, -, rfl⟩ := enter_eq_ok_iff.mp he
          exact ih hm hrest

theorem read_congr {p : Path} (h : ∀ m ∈ p.way, t'.entry? m = t.entry? m) :
    t'.read p = t.read p := by
  have hwalk : p.pieces.foldlM t'.enter (start p) = p.pieces.foldlM t.enter (start p) :=
    walk_congr (by rw [entry?_start, entry?_start]) h
  have hlocate : t'.locate p = t.locate p := by
    unfold locate
    rw [hwalk]
  unfold read find
  rw [hlocate]
  cases hl : t.locate p with
  | error e => rfl
  | ok l =>
      obtain rfl := location_of_locate hl
      simp only [bind, Except.bind, h _ p.location_mem_way]

/-- A passable path leads to its end if there are directories all along. -/
theorem locate_of_way {p : Path} (hp : p.Passable)
    (hway : ∀ m ∈ p.way, t.entry? m = some .directory) : t.locate p = .ok p.location :=
  locate_eq_ok_iff.mpr ⟨⟨hp.sayable, hp.nonempty⟩,
    walk_of_way (entry?_start t p) hp.fits hway⟩

end Tree

/-! ## Trees -/

namespace Tree

variable {t t' : Tree}

/-- What is left of a directory whose removal was broken off lies in directories. -/
theorem Sound.thin (h : t.Sound) (l : Location) (gone : Location → Bool) :
    (t.thin l gone).Sound := by
  refine ⟨List.Pairwise.filter _ h.ordered, fun m hm => ?_⟩
  cases hb : isBase m.dropLast with
  | true => exact entry?_of_isBase hb
  | false =>
      have hbm : isBase m = false := Bool.eq_false_iff.mpr fun hbm =>
        absurd (isBase_of_isPrefix (List.dropLast_prefix m) hbm) (by simp [hb])
      have hget (k : Location) := Dictionary.get?_filter t
        (fun k => decide ¬(l <+: k ∧ t.all fun f => ¬ k <+: f.1 ∨ gone f.1)) k
      unfold Tree.thin at hm ⊢
      rw [entry?_of_not_isBase hbm, hget] at hm
      rw [entry?_of_not_isBase hb, hget]
      split at hm
      · next hkept =>
        have hdir := h.parent m (by rw [entry?_of_not_isBase hbm]; exact hm)
        rw [if_pos, ← entry?_of_not_isBase hb, hdir]
        -- If the directory were gone, so would be what lies in it.
        refine decide_eq_true fun hgone => of_decide_eq_true hkept
          ⟨hgone.1.trans (List.dropLast_prefix m), List.all_eq_true.mpr fun f hf => ?_⟩
        have hf' := of_decide_eq_true (List.all_eq_true.mp hgone.2 f hf)
        exact decide_eq_true (hf'.imp_left fun hnot hp => hnot ((List.dropLast_prefix m).trans hp))
      · exact absurd rfl hm

/-- Directories have been made at some locations, where no file was, and nothing else has
changed. -/
structure Paved (ms : List Location) (t t' : Tree) : Prop where
  sound : t'.Sound
  clear : ∀ m ∈ ms, ∀ c, t.entry? m ≠ some (.file c)
  place : ∀ l, t'.entry? l = if l ∈ ms then some .directory else t.entry? l

theorem paved_makeDir (hs : t.Sound) {l m : Location} {piece : List Char}
    (h : t.makeDir l piece = .ok (m, t')) : m = along l piece ∧ Paved [m] t t' := by
  obtain ⟨he, ⟨hn, rfl⟩ | ⟨hd, rfl⟩⟩ := of_makeDir_eq_ok h
  · have hb := not_isBase_of_entry? (t := t) (l := m) (by simp [hn])
    refine ⟨(enter_eq_ok_iff.mp he).2.2.symm, hs.insert hb (hs.parent_of_enter he) fun _ => rfl,
      by simp [hn], fun k => ?_⟩
    simp only [entry?_insert hb, List.mem_singleton]
  · refine ⟨(enter_eq_ok_iff.mp he).2.2.symm, hs, by simp [hd], fun k => ?_⟩
    split
    · next hk => rw [List.mem_singleton.mp hk, hd]
    · rfl

theorem Paved.refl (hs : t.Sound) : Paved [] t t := ⟨hs, by simp, by simp⟩

theorem Paved.trans {ms ns : List Location} {t'' : Tree} (h : Paved ms t t')
    (h' : Paved ns t' t'') : Paved (ms ++ ns) t t'' := by
  refine ⟨h'.sound, fun m hm c hc => ?_, fun l => ?_⟩
  · by_cases hms : m ∈ ms
    · exact h.clear m hms c hc
    · refine h'.clear m ((List.mem_append.mp hm).resolve_left hms) c ?_
      rw [h.place, if_neg hms, hc]
  · rw [h'.place, h.place]
    by_cases hms : l ∈ ms <;> by_cases hns : l ∈ ns <;> simp [hms, hns]

end Tree

/-! ## Accesses -/

namespace Disk

variable {d : Disk}

theorem after_makeDirsFrom_way (hs : d.tree.Sound) (l : Location) (pieces : List (List Char)) :
    After (makeDirsFrom l pieces) d (fun _ d' => d.tree.Paved (way l pieces) d'.tree)
      (fun _ d' => ∃ ms, ms ⊆ way l pieces ∧ d.tree.Paved ms d'.tree) := by
  induction pieces generalizing l d with
  | nil => exact after_pure (.refl hs)
  | cons piece rest ih =>
      unfold makeDirsFrom
      refine after_bind ((after_access _ _).mono (fun m d₁ h₁ => ?_) fun _ d₁ h₁ => ?_)
      · obtain ⟨rfl, hpaved⟩ := Tree.paved_makeDir hs h₁.2
        refine (ih hpaved.sound _).mono (fun _ d' h' => hpaved.trans h') fun _ d' h' => ?_
        obtain ⟨ms, hms, h'⟩ := h'
        exact ⟨along l piece :: ms, List.cons_subset_cons _ hms, hpaved.trans h'⟩
      · have ht : d₁.tree = d.tree := by
          obtain ⟨-, ⟨-, ht⟩ | ⟨_, _, -, -, ht⟩⟩ := h₁ <;> exact ht
        rw [ht]
        exact ⟨[], List.nil_subset _, .refl hs⟩

/-- Making directories leaves one at each location on the way, or at some of them if it fails, and
nothing else. -/
theorem after_makeDirs_way (hs : d.tree.Sound) {p : Path} (hp : p.text ≠ "") :
    After (makeDirs p) d (fun _ d' => d.tree.Paved p.way d'.tree)
      (fun _ d' => ∃ ms, ms ⊆ p.way ∧ d.tree.Paved ms d'.tree) := by
  have hnothing : ∃ ms, ms ⊆ p.way ∧ d.tree.Paved ms d.tree :=
    ⟨[], List.nil_subset _, .refl hs⟩
  unfold makeDirs
  cases Tree.pathFault? p with
  | some e => exact after_throw hnothing
  | none =>
      simp only [hp, if_false]
      exact after_makeDirsFrom_way hs (Tree.start p) p.pieces

theorem attains_makeDirsFrom (h : d.Faultless) (hs : d.tree.Sound) {l : Location}
    {pieces : List (List Char)} (hl : d.tree.entry? l = some .directory)
    (hfits : ∀ piece ∈ pieces, Fits piece)
    (hclear : ∀ m ∈ way l pieces, ∀ c, d.tree.entry? m ≠ some (.file c)) :
    Attains (makeDirsFrom l pieces) d fun _ d' =>
      d'.Faultless ∧ d.tree.Paved (way l pieces) d'.tree := by
  induction pieces generalizing l d with
  | nil => exact after_pure ⟨h, hs, by simp [way], by simp [way]⟩
  | cons piece rest ih =>
      have henter : d.tree.enter l piece = .ok (along l piece) :=
        Tree.enter_eq_ok_iff.mpr ⟨hl, hfits piece List.mem_cons_self, rfl⟩
      obtain ⟨t, hmake⟩ : ∃ t, d.tree.makeDir l piece = .ok (along l piece, t) := by
        unfold Tree.makeDir
        rw [henter]
        simp only [bind, Except.bind]
        cases he : d.tree.entry? (along l piece) with
        | none => exact ⟨_, rfl⟩
        | some e =>
            cases e with
            | directory => exact ⟨_, rfl⟩
            | file c => exact absurd he (hclear _ List.mem_cons_self c)
      obtain ⟨-, hpaved⟩ := Tree.paved_makeDir hs hmake
      unfold makeDirsFrom
      refine after_bind ((attains_access h hmake).mono (fun m d₁ h₁ => ?_) fun _ _ => False.elim)
      obtain ⟨hf₁, rfl, rfl⟩ := h₁
      refine (ih hf₁ hpaved.sound ?_ (fun q hq => hfits q (List.mem_cons_of_mem piece hq)) ?_).imp
        fun _ d' h' => ⟨h'.1, hpaved.trans h'.2⟩
      · rw [hpaved.place, if_pos List.mem_cons_self]
      · intro m hm c
        rw [hpaved.place]
        split
        · simp
        · exact hclear m (List.mem_cons_of_mem _ hm) c

/-- With no file on the way, directories are made all along. -/
theorem attains_makeDirs_way (h : d.Faultless) (hs : d.tree.Sound) {p : Path} (hp : p.Passable)
    (hclear : ∀ m ∈ p.way, ∀ c, d.tree.entry? m ≠ some (.file c)) :
    Attains (makeDirs p) d fun _ d' => d'.Faultless ∧ d.tree.Paved p.way d'.tree := by
  unfold makeDirs
  simp only [hp.sayable, hp.nonempty, if_false]
  exact attains_makeDirsFrom h hs (Tree.entry?_start _ p) hp.fits hclear

/-- A file that was written lies where the path leads, in place of nothing but a file. -/
theorem after_write_place (hs : d.tree.Sound) (p : Path) (c : Content) :
    After (write p c) d
      (fun _ d' => d'.tree.Sound ∧ d.tree.entry? p.location ≠ some .directory ∧
        ∀ l, d'.tree.entry? l = if l = p.location then some (.file c) else d.tree.entry? l)
      (fun _ _ => True) := by
  refine (after_change _ _).mono (fun _ d' h => ?_) fun _ _ _ => trivial
  obtain ⟨-, hne, ht⟩ := Tree.of_write_eq_ok h.2
  rw [ht]
  exact ⟨ht ▸ (write_eq_ok hs h.2).1, hne, Tree.entry?_insert (Tree.not_isBase_of_entry? hne) _⟩

/-- A file that was renamed lies where the new path leads, in place of nothing but a file. -/
theorem after_rename_place (hs : d.tree.Sound) {p q : Path} {c : Content}
    (hp : d.tree.entry? p.location = some (.file c)) (hne : p.location ≠ q.location) :
    After (rename p q) d
      (fun _ d' => d'.tree.Sound ∧ d.tree.entry? q.location ≠ some .directory ∧
        ∀ l, d'.tree.entry? l = if l = q.location then some (.file c)
          else if l = p.location then none else d.tree.entry? l)
      (fun _ _ => True) := by
  refine (after_change _ _).mono (fun _ d' h => ?_) fun _ _ _ => trivial
  obtain ⟨-, -, hq, ht⟩ := Tree.of_rename_file_eq_ok hp hne h.2
  refine ⟨(rename_eq_ok hs hp hne h.2).1, hq, ?_⟩
  rw [ht]
  exact hs.entry?_move_file hp hq

/-- A directory is taken away with all that it holds; cut off, the rest of it is left. -/
theorem after_removeTree_any (hs : d.tree.Sound) (p : Path) :
    After (removeTree p) d
      (fun _ d' => d'.tree.Sound ∧
        ∀ l, d'.tree.entry? l = if p.location <+: l then none else d.tree.entry? l)
      (fun e d' => d'.tree.Sound ∧ (e = .notFound → d.tree.removeTree p = .error .notFound)) := by
  refine (after_change _ _).mono (fun _ d' h => removeTree_eq_ok hs h.2) fun e d' h => ?_
  obtain ⟨-, ⟨he, ht⟩ | ⟨k, f, -, rfl, ht⟩⟩ := h
  · exact ⟨ht ▸ hs, fun hn => hn ▸ he⟩
  · refine ⟨?_, fun hn => absurd hn f.ne_notFound⟩
    rw [ht]
    split
    · exact hs.thin _ _
    · exact hs

end Disk

end DeviceBridge.Files
