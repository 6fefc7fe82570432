import DeviceBridge.Files.Tree
import DeviceBridge.Proofs.Dictionary

/-!
# DeviceBridge.Proofs.Files.Tree

What lies where. Where a path leads does not depend on the tree, only whether it leads there does:
`Path.location` reads it off the text. A tree is seen through `Tree.entry?`, and a sound one, whose
entries all lie in directories, is changed by each operation at the named locations only:

* `entry?_insert`, `entry?_prune` — writing a file, making a directory, taking a location away;
* `entry?_move_file` — a file that is renamed is found at its new location and nowhere else;
* `locate_of_directories` — a path stays passable as long as no directory goes.
-/

namespace DeviceBridge.Files

/-! ## Where a path leads -/

/-- One piece of a path further, whatever lies there. -/
def along (l : Location) (piece : List Char) : Location :=
  if isIdle piece then l
  else if piece = ['.', '.'] then above l
  else l ++ [String.ofList piece]

/-- Where a path leads if all directories on the way are there. -/
def Path.location (p : Path) : Location := p.pieces.foldl along (Tree.start p)

/-- A piece that can be the name of a file or directory. -/
def Fits (piece : List Char) : Prop :=
  isIdle piece = false → piece ≠ ['.', '.'] → (String.ofList piece).utf8ByteSize ≤ nameLimit

namespace Tree

variable {t t' : Tree}

theorem enter_eq_ok_iff {l m : Location} {piece : List Char} :
    t.enter l piece = .ok m ↔ t.entry? l = some .directory ∧ Fits piece ∧ along l piece = m := by
  unfold enter along Fits
  cases he : t.entry? l with
  | none => simp
  | some e =>
      cases e with
      | file c => simp
      | directory =>
          by_cases hi : isIdle piece = true
          · simp [hi]
          · by_cases hd : piece = ['.', '.']
            · simp [hd, isIdle]
            · by_cases hn : (String.ofList piece).utf8ByteSize ≤ nameLimit <;> simp [hi, hd, hn]

/-- Going along pieces, where it succeeds, leads where the pieces say. -/
theorem location_of_walk {l m : Location} {pieces : List (List Char)}
    (h : pieces.foldlM t.enter l = .ok m) : m = pieces.foldl along l := by
  induction pieces generalizing l with
  | nil => exact (Except.ok.inj h).symm
  | cons piece pieces ih =>
      rw [List.foldlM_cons] at h
      cases he : t.enter l piece with
      | error e => rw [he] at h; contradiction
      | ok n =>
          rw [he] at h
          obtain ⟨-, -, rfl⟩ := enter_eq_ok_iff.mp he
          exact ih h

/-- A way stays passable as long as no directory goes. -/
theorem walk_of_directories
    (hdir : ∀ l, t.entry? l = some .directory → t'.entry? l = some .directory)
    {l m : Location} {pieces : List (List Char)} (h : pieces.foldlM t.enter l = .ok m) :
    pieces.foldlM t'.enter l = .ok m := by
  induction pieces generalizing l with
  | nil => exact h
  | cons piece pieces ih =>
      rw [List.foldlM_cons] at h ⊢
      cases he : t.enter l piece with
      | error e => rw [he] at h; contradiction
      | ok n =>
          rw [he] at h
          obtain ⟨hd, hf, hn⟩ := enter_eq_ok_iff.mp he
          rw [enter_eq_ok_iff.mpr ⟨hdir l hd, hf, hn⟩]
          exact ih h

/-- A path is passable if nothing is wrong with its text and all its pieces can be gone along. -/
theorem locate_eq_ok_iff {p : Path} {l : Location} :
    t.locate p = .ok l ↔
      (pathFault? p = none ∧ p.text ≠ "") ∧ p.pieces.foldlM t.enter (start p) = .ok l := by
  unfold locate
  cases pathFault? p with
  | some e => simp
  | none => by_cases ht : p.text = "" <;> simp [ht]

theorem location_of_locate {p : Path} {l : Location} (h : t.locate p = .ok l) :
    l = p.location :=
  location_of_walk (locate_eq_ok_iff.mp h).2

theorem locate_of_directories
    (hdir : ∀ l, t.entry? l = some .directory → t'.entry? l = some .directory)
    {p : Path} {l : Location} (h : t.locate p = .ok l) : t'.locate p = .ok l :=
  locate_eq_ok_iff.mpr ⟨(locate_eq_ok_iff.mp h).1,
    walk_of_directories hdir (locate_eq_ok_iff.mp h).2⟩

/-- A text is read where a file with that text lies at the end of a passable path. -/
theorem read_eq_ok_iff {p : Path} {s : String} :
    t.read p = .ok s ↔
      t.locate p = .ok p.location ∧ t.entry? p.location = some (.file (.text s)) := by
  unfold read find
  cases hl : t.locate p with
  | error e => simp [bind, Except.bind]
  | ok l =>
      obtain rfl := location_of_locate hl
      simp only [bind, Except.bind]
      cases t.entry? p.location with
      | none => simp
      | some e =>
          rcases e with _ | _ | _ <;> simp

/-! ## Changes that succeed -/

theorem of_makeDir_eq_ok {l m : Location} {piece : List Char}
    (h : t.makeDir l piece = .ok (m, t')) :
    t.enter l piece = .ok m ∧
      (t.entry? m = none ∧ t' = t.insert m .directory ∨
        t.entry? m = some .directory ∧ t' = t) := by
  unfold makeDir at h
  cases he : t.enter l piece with
  | error e => rw [he] at h; contradiction
  | ok n =>
      rw [he] at h
      simp only [bind, Except.bind] at h
      cases hm : t.entry? n with
      | none =>
          rw [hm] at h
          obtain ⟨rfl, rfl⟩ := Prod.mk.inj (Except.ok.inj h)
          exact ⟨rfl, .inl ⟨hm, rfl⟩⟩
      | some e =>
          rw [hm] at h
          cases e with
          | file c => contradiction
          | directory =>
              obtain ⟨rfl, rfl⟩ := Prod.mk.inj (Except.ok.inj h)
              exact ⟨rfl, .inr ⟨hm, rfl⟩⟩

theorem of_write_eq_ok {p : Path} {c : Content} (h : t.write p c = .ok t') :
    t.locate p = .ok p.location ∧ t.entry? p.location ≠ some .directory ∧
      t' = t.insert p.location (.file c) := by
  unfold write at h
  cases hl : t.locate p with
  | error e => rw [hl] at h; contradiction
  | ok l =>
      obtain rfl := location_of_locate hl
      rw [hl] at h
      simp only [bind, Except.bind] at h
      have hne : t.entry? p.location ≠ some .directory := fun hd => by rw [hd] at h; contradiction
      refine ⟨rfl, hne, ?_⟩
      split at h
      · contradiction
      · exact (Except.ok.inj h).symm

theorem of_rename_file_eq_ok {p q : Path} {c : Content}
    (hp : t.entry? p.location = some (.file c)) (hne : p.location ≠ q.location)
    (h : t.rename p q = .ok t') :
    t.locate p = .ok p.location ∧ t.locate q = .ok q.location ∧
      t.entry? q.location ≠ some .directory ∧ t' = t.move p.location q.location := by
  unfold rename at h
  cases hlp : t.locate p with
  | error e => rw [hlp] at h; contradiction
  | ok l =>
      obtain rfl := location_of_locate hlp
      cases hlq : t.locate q with
      | error e => rw [hlp, hlq] at h; contradiction
      | ok m =>
          obtain rfl := location_of_locate hlq
          rw [hlp, hlq] at h
          simp only [bind, Except.bind, hp, hne, if_false] at h
          have hq : t.entry? q.location ≠ some .directory := fun hd => by
            rw [hd] at h
            contradiction
          refine ⟨rfl, rfl, hq, ?_⟩
          cases he : t.entry? q.location with
          | none => rw [he] at h; exact (Except.ok.inj h).symm
          | some e =>
              rw [he] at h
              cases e with
              | directory => contradiction
              | file c' => exact (Except.ok.inj h).symm

theorem of_removeTree_eq_ok {p : Path} (h : t.removeTree p = .ok t') :
    t.locate p = .ok p.location ∧ t.entry? p.location = some .directory ∧
      isBase p.location = false ∧ t' = t.prune p.location := by
  unfold removeTree at h
  cases hl : t.locate p with
  | error e => rw [hl] at h; contradiction
  | ok l =>
      obtain rfl := location_of_locate hl
      rw [hl] at h
      simp only [bind, Except.bind] at h
      split at h
      · contradiction
      · contradiction
      · next hd =>
        cases hb : isBase p.location with
        | true => simp [hb] at h
        | false =>
            rw [hb] at h
            exact ⟨rfl, hd, rfl, (Except.ok.inj h).symm⟩

theorem removeTree_of_directory {p : Path} (hl : t.locate p = .ok p.location)
    (hd : t.entry? p.location = some .directory) (hb : isBase p.location = false) :
    t.removeTree p = .ok (t.prune p.location) := by
  unfold removeTree
  rw [hl]
  simp only [bind, Except.bind, hd, hb, Bool.false_eq_true, if_false]

/-! ## Entries -/

theorem isBase_nil : isBase [] = true := rfl

theorem isBase_of_isPrefix {l m : Location} (h : l <+: m) (hm : isBase m = true) :
    isBase l = true := by
  rcases of_decide_eq_true hm with rfl | hm
  · obtain rfl | ⟨r, rfl, hr⟩ := List.prefix_cons_iff.mp h
    · rfl
    · rw [List.prefix_nil.mp hr]
      rfl
  · obtain ⟨r, rfl⟩ := h
    simp only [isWorking, List.all_append, Bool.and_eq_true] at hm
    exact decide_eq_true (.inr hm.1)

theorem ne_nil_of_not_isBase {l : Location} (h : isBase l = false) : l ≠ [] := by
  rintro rfl
  rw [isBase_nil] at h
  contradiction

theorem isBase_start (p : Path) : isBase (start p) = true := by
  unfold start
  split <;> rfl

/-- The directory above one where paths begin is another such. -/
theorem isBase_above {l : Location} (h : isBase l = true) : isBase (above l) = true := by
  unfold above
  split
  · exact h
  · next hroot =>
    have hup := (of_decide_eq_true h).resolve_left hroot
    rw [if_pos hup]
    refine decide_eq_true (.inr ?_)
    unfold isWorking at hup ⊢
    rw [List.all_append, hup]
    rfl

theorem above_of_isWorking {l : Location} (h : isWorking l = true) : above l = l ++ [".."] := by
  have hroot : l ≠ systemRoot := by
    rintro rfl
    contradiction
  unfold above
  rw [if_neg hroot, if_pos h]

theorem above_of_not_isBase {l : Location} (h : isBase l = false) : above l = l.dropLast := by
  obtain ⟨hroot, hup⟩ := not_or.mp (of_decide_eq_false h)
  unfold above
  rw [if_neg hroot, if_neg hup]

theorem entry?_of_isBase {l : Location} (h : isBase l = true) :
    t.entry? l = some .directory := if_pos h

/-- Paths begin at directories. -/
theorem entry?_start (t : Tree) (p : Path) : t.entry? (start p) = some .directory :=
  entry?_of_isBase (isBase_start p)

theorem entry?_of_not_isBase {l : Location} (h : isBase l = false) :
    t.entry? l = t.get? l := if_neg (by simp [h])

theorem not_isBase_of_entry? {l : Location} (h : t.entry? l ≠ some .directory) :
    isBase l = false :=
  Bool.eq_false_iff.mpr fun hb => h (entry?_of_isBase hb)

theorem entry?_insert {l : Location} (hl : isBase l = false) (e : Entry) (m : Location) :
    entry? (t.insert l e) m = if m = l then some e else t.entry? m := by
  unfold entry?
  by_cases hm : isBase m = true
  · have hne : m ≠ l := by rintro rfl; simp [hm] at hl
    simp [hm, hne]
  · rw [if_neg hm, if_neg hm, Dictionary.get?_insert]

theorem entry?_prune {l : Location} (hl : isBase l = false) (m : Location) :
    entry? (t.prune l) m = if l <+: m then none else t.entry? m := by
  unfold entry? prune
  by_cases hm : isBase m = true
  · have hp : ¬ l <+: m := fun h => by simp [isBase_of_isPrefix h hm] at hl
    simp [hm, hp]
  · rw [if_neg hm, if_neg hm, Dictionary.get?_filter t fun m => decide (¬ l <+: m)]
    by_cases hp : l <+: m <;> simp [hp]

end Tree

/-! ## Sound trees -/

/-- A tree as it can be: each location has one entry, and whatever there is lies in a directory. -/
structure Tree.Sound (t : Tree) : Prop where
  ordered : t.Ordered
  parent : ∀ l, t.entry? l ≠ none → t.entry? l.dropLast = some .directory

namespace Tree

variable {t : Tree}

theorem sound_nil : Sound [] := by
  refine ⟨List.Pairwise.nil, fun l hl => entry?_of_isBase ?_⟩
  have hb : isBase l = true := by
    cases hb : isBase l with
    | true => rfl
    | false => exact absurd (by simp [ entry?, hb]) hl
  exact isBase_of_isPrefix ( List.dropLast_prefix l) hb

/-- A tree is sound if its entries are ordered and lie in directories. -/
theorem sound_of_entries (ho : t.Ordered)
    (hp : ∀ e ∈ t, t.entry? e.1.dropLast = some .directory) : t.Sound := by
  refine ⟨ho, fun l hl => ?_⟩
  cases hb : isBase l with
  | true => exact entry?_of_isBase (isBase_of_isPrefix ( List.dropLast_prefix l) hb)
  | false =>
      rw [entry?_of_not_isBase hb] at hl
      obtain ⟨e, he⟩ := Option.ne_none_iff_exists'.mp hl
      exact hp _ (Dictionary.mem_of_get? he)

/-- Below a location without a directory there is nothing. -/
theorem Sound.below (h : t.Sound) {l : Location} (hl : t.entry? l ≠ some .directory)
    (r : Location) (hr : r ≠ []) : t.entry? (l ++ r) = none := by
  induction hn : r.length generalizing r with
  | zero => exact absurd (List.length_eq_zero_iff.mp hn) hr
  | succ n ih =>
      refine Classical.byContradiction fun he => ?_
      have hp := h.parent _ he
      rw [List.dropLast_append_of_ne_nil hr] at hp
      by_cases hd : r.dropLast = []
      · rw [hd, List.append_nil] at hp
        exact hl hp
      · rw [ih r.dropLast hd (by simp [hn])] at hp
        contradiction

theorem Sound.below_isPrefix (h : t.Sound) {l m : Location} (hl : t.entry? l ≠ some .directory)
    (hp : l <+: m) (hne : m ≠ l) : t.entry? m = none := by
  obtain ⟨r, rfl⟩ := hp
  exact h.below hl r (by rintro rfl; simp at hne)

/-- Putting something into a directory keeps a tree sound, unless a directory gives way to a
file. -/
theorem Sound.insert (h : t.Sound) {l : Location} (hb : isBase l = false)
    (hp : t.entry? l.dropLast = some .directory) {e : Entry}
    (he : t.entry? l = some .directory → e = .directory) : Sound (t.insert l e) := by
  refine ⟨h.ordered.insert l e, fun m hm => ?_⟩
  have hne := ne_nil_of_not_isBase hb
  have hpl : l.dropLast ≠ l := fun heq => by
    have := congrArg List.length heq
    have := List.length_pos_iff.mpr hne
    simp only [List.length_dropLast] at *
    omega
  rw [entry?_insert hb]
  by_cases hml : m.dropLast = l
  · rw [if_pos hml]
    have hne' : m ≠ l := by rintro rfl; exact hpl hml
    rw [entry?_insert hb, if_neg hne'] at hm
    rw [he (hml ▸ h.parent m hm)]
  · rw [if_neg hml]
    rw [entry?_insert hb] at hm
    by_cases hm' : m = l
    · rw [hm', hp]
    · rw [if_neg hm'] at hm
      exact h.parent m hm

theorem Sound.prune (h : t.Sound) {l : Location} (hb : isBase l = false) : (t.prune l).Sound := by
  refine ⟨List.Pairwise.filter _ h.ordered, fun m hm => ?_⟩
  rw [entry?_prune hb] at hm ⊢
  by_cases hp : l <+: m
  · simp [hp] at hm
  · rw [if_neg hp] at hm
    have hp' : ¬ l <+: m.dropLast := fun h => hp (h.trans ( List.dropLast_prefix m))
    rw [if_neg hp', h.parent m hm]

/-! ## Renaming a file -/

/-- A file is all there is at and below its location. -/
theorem Sound.filter_file (h : t.Sound) {s : Location} {c : Content}
    (hs : t.entry? s = some (.file c)) :
    (t.filter fun e => s <+: e.1) = [(s, .file c)] := by
  have hb : isBase s = false := not_isBase_of_entry? (t := t) (by simp [hs])
  have hmem : (s, Entry.file c) ∈ t :=
    Dictionary.mem_of_get? (by rw [← entry?_of_not_isBase hb, hs])
  -- Whatever is kept lies at the file's own location, and there is one entry for it.
  have honly : ∀ e ∈ t.filter fun e => s <+: e.1, e = (s, .file c) := by
    rintro ⟨m, e⟩ he
    obtain ⟨hm, hp⟩ := List.mem_filter.mp he
    have hp : s <+: m := by simpa using hp
    have hbm : isBase m = false :=
      Bool.eq_false_iff.mpr fun hbm => by simp [isBase_of_isPrefix hp hbm] at hb
    have hget : t.entry? m = some e := by
      rw [entry?_of_not_isBase hbm, Dictionary.get?_of_mem h.ordered hm]
    by_cases hne : m = s
    · subst hne
      rw [hs, Option.some.injEq] at hget
      rw [hget]
    · rw [h.below_isPrefix (by simp [hs]) hp hne] at hget
      contradiction
  have hord : (t.filter fun e => s <+: e.1).Pairwise fun a b => a.1 < b.1 :=
    List.Pairwise.filter _ h.ordered
  cases hf : t.filter fun e => s <+: e.1 with
  | nil =>
      have : (s, Entry.file c) ∈ t.filter fun e => s <+: e.1 :=
        List.mem_filter.mpr ⟨hmem, by simp⟩
      simp [hf] at this
  | cons e r =>
      rw [hf] at honly hord
      have he := honly e List.mem_cons_self
      cases r with
      | nil => rw [he]
      | cons f r =>
          have hf' := honly f (List.mem_cons_of_mem _ List.mem_cons_self)
          have hlt := (List.pairwise_cons.mp hord).1 f List.mem_cons_self
          rw [he, hf'] at hlt
          exact absurd hlt (KeyOrder.irrefl s)

theorem Sound.move_file (h : t.Sound) {s d : Location} {c : Content}
    (hs : t.entry? s = some (.file c)) :
    t.move s d = ((t.prune d).prune s).insert d (.file c) := by
  unfold move
  rw [h.filter_file hs]
  simp

/-- After a file has been renamed it is found at its new location and nowhere else. -/
theorem Sound.entry?_move_file (h : t.Sound) {s d : Location} {c : Content}
    (hs : t.entry? s = some (.file c)) (hd : t.entry? d ≠ some .directory)
    (m : Location) :
    entry? (t.move s d) m =
      if m = d then some (.file c) else if m = s then none else t.entry? m := by
  have hbs : isBase s = false := not_isBase_of_entry? (t := t) (by simp [hs])
  have hbd : isBase d = false := not_isBase_of_entry? hd
  rw [h.move_file hs, entry?_insert hbd]
  by_cases hmd : m = d
  · rw [if_pos hmd, if_pos hmd]
  rw [if_neg hmd, if_neg hmd, entry?_prune hbs, entry?_prune hbd]
  by_cases hms : m = s
  · simp [hms]
  rw [if_neg hms]
  by_cases hps : s <+: m
  · rw [if_pos hps, h.below_isPrefix (by simp [hs]) hps hms]
  rw [if_neg hps]
  by_cases hpd : d <+: m
  · rw [if_pos hpd, h.below_isPrefix hd hpd hmd]
  · rw [if_neg hpd]

theorem Sound.move (h : t.Sound) {s d : Location} {c : Content}
    (hs : t.entry? s = some (.file c)) (hd : t.entry? d ≠ some .directory)
    (hp : t.entry? d.dropLast = some .directory) : (t.move s d).Sound := by
  have hbs : isBase s = false := not_isBase_of_entry? (t := t) (by simp [hs])
  have hbd : isBase d = false := not_isBase_of_entry? hd
  have hne := ne_nil_of_not_isBase hbd
  have hnd : ¬ d <+: d.dropLast := fun h => by
    have := h.length_le
    have := List.length_pos_iff.mpr hne
    simp only [List.length_dropLast] at *
    omega
  have hns : ¬ s <+: d.dropLast := fun hpre => by
    by_cases heq : d.dropLast = s
    · rw [heq, hs] at hp; simp at hp
    · rw [h.below_isPrefix (by simp [hs]) hpre heq] at hp; contradiction
  rw [h.move_file hs]
  refine ((h.prune hbd).prune hbs).insert hbd ?_ ?_
  · rw [entry?_prune hbs, if_neg hns, entry?_prune hbd, if_neg hnd, hp]
  · rw [entry?_prune hbs, entry?_prune hbd]
    by_cases hps : s <+: d <;> simp [hps]

end Tree

end DeviceBridge.Files
