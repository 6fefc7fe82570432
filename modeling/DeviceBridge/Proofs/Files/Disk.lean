import DeviceBridge.Files.Disk
import DeviceBridge.Proofs.Files.Path
import DeviceBridge.Proofs.Work

/-!
# DeviceBridge.Proofs.Files.Disk

What each access does to the tree, a fault included. `Tree.Spares` is what all accesses but a
removal have in common: apart from the named locations nothing changes, except that directories may
appear where nothing was. So a document elsewhere is read as before (`Tree.Spares.read`).
-/

namespace DeviceBridge.Files

theorem denied_ne_notFound : FileError.denied ≠ .notFound := by decide

/-! ## What is spared -/

/-- From one tree to another no directory goes, and outside the named locations nothing changes but
that directories may appear. -/
structure Tree.Spares (ls : List Location) (t t' : Tree) : Prop where
  directory : ∀ l, t.entry? l = some .directory → t'.entry? l = some .directory
  elsewhere : ∀ l, l ∉ ls →
    t'.entry? l = t.entry? l ∨ t.entry? l = none ∧ t'.entry? l = some .directory

namespace Tree.Spares

variable {ls ms : List Location} {t t' t'' : Tree}

theorem refl (ls : List Location) (t : Tree) : Spares ls t t :=
  ⟨fun _ h => h, fun _ _ => .inl rfl⟩

theorem trans (h : Spares ls t t') (h' : Spares ls t' t'') : Spares ls t t'' := by
  refine ⟨fun l hl => h'.directory l (h.directory l hl), fun l hl => ?_⟩
  rcases h.elsewhere l hl with he | ⟨hn, hd⟩
  · rw [← he]
    exact h'.elsewhere l hl
  · exact .inr ⟨hn, h'.directory l hd⟩

theorem mono (h : Spares ls t t') (hsub : ∀ l ∈ ls, l ∈ ms) : Spares ms t t' :=
  ⟨h.directory, fun l hl => h.elsewhere l fun hm => hl (hsub l hm)⟩

/-- A file elsewhere is neither made nor changed nor lost. -/
theorem file_iff (h : Spares ls t t') {l : Location} (hl : l ∉ ls) (c : Content) :
    t'.entry? l = some (.file c) ↔ t.entry? l = some (.file c) := by
  rcases h.elsewhere l hl with he | ⟨hn, hd⟩
  · rw [he]
  · simp [hn, hd]

/-- What is read elsewhere is read as before. -/
theorem read (h : Spares ls t t') {p : Path} (hp : p.location ∉ ls) {s : String}
    (hr : t.read p = .ok s) : t'.read p = .ok s := by
  rw [read_eq_ok_iff] at hr ⊢
  exact ⟨locate_of_directories h.directory hr.1, (h.file_iff hp _).mpr hr.2⟩

end Tree.Spares

/-- Putting something where there is no directory touches that location only. -/
theorem Tree.spares_insert {t : Tree} {l : Location} (hl : t.entry? l ≠ some .directory)
    (e : Entry) : Tree.Spares [l] t (t.insert l e) := by
  have hb := not_isBase_of_entry? hl
  refine ⟨fun m hm => ?_, fun m hm => .inl ?_⟩
  · have hne : m ≠ l := by rintro rfl; exact hl hm
    rw [entry?_insert hb, if_neg hne, hm]
  · rw [entry?_insert hb, if_neg (by simpa using hm)]

/-- Making a directory where nothing is touches no location. -/
theorem Tree.spares_insert_directory {t : Tree} {l : Location} (hl : t.entry? l = none) :
    Tree.Spares [] t (t.insert l .directory) := by
  have hb := not_isBase_of_entry? (t := t) (l := l) (by simp [hl])
  refine ⟨fun m hm => ?_, fun m _ => ?_⟩
  · rw [entry?_insert hb]
    split
    · rfl
    · exact hm
  · rw [entry?_insert hb]
    by_cases hm : m = l
    · exact .inr ⟨hm ▸ hl, if_pos hm⟩
    · exact .inl (if_neg hm)

/-- Taking a file away touches its location only. -/
theorem Tree.Sound.spares_prune {t : Tree} (h : t.Sound) {l : Location} {c : Content}
    (hl : t.entry? l = some (.file c)) : Tree.Spares [l] t (t.prune l) := by
  have hb := not_isBase_of_entry? (t := t) (l := l) (by simp [hl])
  have hbelow {m : Location} (hp : l <+: m) (hm : m ≠ l) : t.entry? m = none :=
    h.below_isPrefix (by simp [hl]) hp hm
  refine ⟨fun m hm => ?_, fun m hm => .inl ?_⟩
  · have hne : m ≠ l := by rintro rfl; simp [hl] at hm
    rw [entry?_prune hb, if_neg fun hp => by simp [hbelow hp hne] at hm, hm]
  · rw [entry?_prune hb]
    split
    · next hp => exact (hbelow hp (by simpa using hm)).symm
    · rfl

/-! ## Where a passable path ends -/

namespace Tree.Sound

variable {t : Tree}

theorem parent_of_enter (h : t.Sound) {l m : Location} {piece : List Char}
    (he : t.enter l piece = .ok m) : t.entry? m.dropLast = some .directory := by
  obtain ⟨hd, -, rfl⟩ := enter_eq_ok_iff.mp he
  have hup : t.entry? l.dropLast = some .directory := h.parent l (by simp [hd])
  unfold along
  split
  · exact hup
  · split
    · cases hb : isBase l with
      | true => exact h.parent _ (by simp [entry?_of_isBase (isBase_above hb)])
      | false =>
          rw [above_of_not_isBase hb]
          exact h.parent _ (by simp [hup])
    · rw [List.dropLast_concat, hd]

/-- The end of a passable path lies in a directory. -/
theorem parent_of_walk (h : t.Sound) {l m : Location} {pieces : List (List Char)}
    (hl : t.entry? l.dropLast = some .directory) (hw : pieces.foldlM t.enter l = .ok m) :
    t.entry? m.dropLast = some .directory := by
  induction pieces generalizing l with
  | nil => rw [← Except.ok.inj hw, hl]
  | cons piece pieces ih =>
      rw [List.foldlM_cons] at hw
      cases he : t.enter l piece with
      | error e => rw [he] at hw; contradiction
      | ok n =>
          rw [he] at hw
          exact ih (h.parent_of_enter he) hw

theorem parent_of_locate (h : t.Sound) {p : Path} {l : Location} (hl : t.locate p = .ok l) :
    t.entry? l.dropLast = some .directory :=
  h.parent_of_walk (h.parent _ (by simp [entry?_start])) (locate_eq_ok_iff.mp hl).2

end Tree.Sound

/-! ## Accesses -/

namespace Disk

/-- Whether a removal that a fault strikes leaves all that it was to remove. -/
def RemovesWhole (d : Disk) : Prop := ∀ k f, d.faults k = some f → ∀ l, f.gone l = false

variable {α : Type} {d : Disk}

/-- An access does its work, or it fails as its work does, or a fault strikes. -/
theorem after_access (work : Tree → Except FileError (α × Tree)) (trace : Fault → Tree → Tree) :
    After (access work trace) d
      (fun a d' => d'.faults = d.faults ∧ work d.tree = .ok (a, d'.tree))
      (fun e d' => d'.faults = d.faults ∧
        (work d.tree = .error e ∧ d'.tree = d.tree ∨
          ∃ k f, d.faults k = some f ∧ e = f.error ∧ d'.tree = trace f d.tree)) := by
  unfold After access
  cases hf : d.faults d.accesses with
  | some f => exact ⟨rfl, .inr ⟨_, f, hf, rfl, rfl⟩⟩
  | none =>
      cases hw : work d.tree with
      | ok r => exact ⟨rfl, rfl⟩
      | error e => exact ⟨rfl, .inl ⟨rfl, rfl⟩⟩

/-- A change of the tree is made, or refused, or a fault strikes. -/
theorem after_change (change : Tree → Except FileError Tree) (trace : Fault → Tree → Tree) :
    After (access (fun t => (change t).map ((), ·)) trace) d
      (fun _ d' => d'.faults = d.faults ∧ change d.tree = .ok d'.tree)
      (fun e d' => d'.faults = d.faults ∧
        (change d.tree = .error e ∧ d'.tree = d.tree ∨
          ∃ k f, d.faults k = some f ∧ e = f.error ∧ d'.tree = trace f d.tree)) := by
  refine (after_access _ _).mono (fun _ d' h => ⟨h.1, ?_⟩) fun e d' h => ⟨h.1, h.2.imp_left ?_⟩
  · have hw := h.2
    cases hc : change d.tree with
    | error e => rw [hc] at hw; cases hw
    | ok t =>
        rw [hc] at hw
        exact congrArg Except.ok (Prod.mk.inj (Except.ok.inj hw)).2
  · rintro ⟨hw, ht⟩
    refine ⟨?_, ht⟩
    cases hc : change d.tree with
    | error e' => rw [hc] at hw; exact congrArg Except.error (Except.error.inj hw)
    | ok t => rw [hc] at hw; cases hw

/-- Looking at the tree leaves it, and only what is missing is told to be missing. -/
theorem after_look (view : Tree → Except FileError α) :
    After (look view) d
      (fun a d' => d'.faults = d.faults ∧ d'.tree = d.tree ∧ view d.tree = .ok a)
      (fun e d' => d'.faults = d.faults ∧ d'.tree = d.tree ∧
        (e = .notFound → view d.tree = .error .notFound)) := by
  refine (after_access _ _).mono (fun a d' h => ?_) (fun e d' h => ?_)
  · obtain ⟨hf, hw⟩ := h
    cases hv : view d.tree with
    | error e => rw [hv] at hw; simp [Except.map] at hw
    | ok b =>
        rw [hv] at hw
        simp only [Except.map, Except.ok.injEq, Prod.mk.injEq] at hw
        exact ⟨hf, hw.2.symm, by rw [hw.1]⟩
  · obtain ⟨hf, ⟨hw, ht⟩ | ⟨k, f, -, rfl, ht⟩⟩ := h
    · refine ⟨hf, ht, fun he => ?_⟩
      cases hv : view d.tree with
      | error e' =>
          rw [hv] at hw
          simp only [Except.map, Except.error.injEq] at hw
          rw [hw, he]
      | ok b => rw [hv] at hw; simp [Except.map] at hw
    · exact ⟨hf, ht, fun he => absurd he f.ne_notFound⟩

/-- What is told to be missing is a result and no failure. -/
theorem after_ifPresent {x : Access α} {done : α → Disk → Prop} {failed : FileError → Disk → Prop}
    (h : After x d done failed) :
    After (ifPresent x) d
      (fun r d' => match r with
        | some a => done a d'
        | none => failed .notFound d')
      failed := by
  unfold After ifPresent at *
  cases hx : x d with
  | ok a d' => rw [hx] at h; exact h
  | error e d' => rw [hx] at h; cases e <;> exact h

section
variable {x : Access α} {d' : Disk}

theorem ifPresent_eq_some {a : α} (hx : x d = .ok a d') : ifPresent x d = .ok (some a) d' := by
  unfold ifPresent
  rw [hx]

theorem ifPresent_eq_none (hx : x d = .error .notFound d') : ifPresent x d = .ok none d' := by
  unfold ifPresent
  rw [hx]

theorem ifPresent_eq_error {e : FileError} (hx : x d = .error e d') (he : e ≠ .notFound) :
    ifPresent x d = .error e d' := by
  unfold ifPresent
  rw [hx]
  cases e <;> first | exact absurd rfl he | rfl

end

/-- A file is read, found missing, or cannot be read. -/
theorem after_ifPresent_read (p : Path) :
    After (ifPresent (read p)) d
      (fun r d' => d'.faults = d.faults ∧ d'.tree = d.tree ∧
        match r with
        | some s => d.tree.read p = .ok s
        | none => d.tree.read p = .error .notFound)
      (fun _ d' => d'.faults = d.faults ∧ d'.tree = d.tree) := by
  refine (after_ifPresent (after_look (d := d) (·.read p))).mono (fun r d' h => ?_)
    fun _ _ h => ⟨h.1, h.2.1⟩
  cases r with
  | some s => exact h
  | none => exact ⟨h.1, h.2.1, h.2.2 rfl⟩

/-- Something is there, or it is told to be missing. -/
theorem after_isPresent (p : Path) :
    After (isPresent p) d
      (fun b d' => d'.faults = d.faults ∧ d'.tree = d.tree ∧
        (b = true ∧ (∃ k, d.tree.stat p = .ok k) ∨ b = false ∧ d.tree.stat p = .error .notFound))
      (fun _ d' => d'.faults = d.faults ∧ d'.tree = d.tree) := by
  refine after_bind ((after_ifPresent (after_look (d := d) (·.stat p))).mono (fun r d' h => ?_)
    fun _ _ h => ⟨h.1, h.2.1⟩)
  cases r with
  | some k => exact after_pure ⟨h.1, h.2.1, .inl ⟨rfl, k, h.2.2⟩⟩
  | none => exact after_pure ⟨h.1, h.2.1, .inr ⟨rfl, h.2.2 rfl⟩⟩

/-! ## Making directories -/

theorem makeDir_eq_ok {t t' : Tree} (hs : t.Sound) {l m : Location} {piece : List Char}
    (h : t.makeDir l piece = .ok (m, t')) :
    t'.Sound ∧ Tree.Spares [] t t' ∧ t.enter l piece = .ok m ∧
      t'.entry? m = some .directory := by
  obtain ⟨he, ⟨hn, rfl⟩ | ⟨hd, rfl⟩⟩ := Tree.of_makeDir_eq_ok h
  · have hb := Tree.not_isBase_of_entry? (t := t) (l := m) (by simp [hn])
    exact ⟨hs.insert hb (hs.parent_of_enter he) fun _ => rfl, Tree.spares_insert_directory hn, he,
      by rw [Tree.entry?_insert hb, if_pos rfl]⟩
  · exact ⟨hs, .refl _ _, he, hd⟩

theorem after_makeDirsFrom (hs : d.tree.Sound) {l : Location}
    (hl : d.tree.entry? l = some .directory) (pieces : List (List Char)) :
    After (makeDirsFrom l pieces) d
      (fun _ d' => d'.faults = d.faults ∧ d'.tree.Sound ∧ Tree.Spares [] d.tree d'.tree ∧
        ∃ m, pieces.foldlM d'.tree.enter l = .ok m ∧ d'.tree.entry? m = some .directory)
      (fun _ d' => d'.faults = d.faults ∧ d'.tree.Sound ∧ Tree.Spares [] d.tree d'.tree) := by
  induction pieces generalizing l d with
  | nil => exact after_pure ⟨rfl, hs, .refl _ _, l, rfl, hl⟩
  | cons piece pieces ih =>
      unfold makeDirsFrom
      refine after_bind ((after_access _ _).mono (fun m d₁ h => ?_) (fun e d₁ h => ?_))
      · obtain ⟨hf, hm⟩ := h
        obtain ⟨hs₁, hsp, he, hdir⟩ := makeDir_eq_ok hs hm
        refine (ih hs₁ hdir).mono (fun _ d' h' => ?_) (fun _ d' h' => ?_)
        · obtain ⟨hf', hs', hsp', n, hw, hn⟩ := h'
          refine ⟨hf'.trans hf, hs', hsp.trans hsp', n, ?_, hn⟩
          obtain ⟨hd, hfit, hal⟩ := Tree.enter_eq_ok_iff.mp he
          have he' := Tree.enter_eq_ok_iff.mpr ⟨(hsp.trans hsp').directory l hd, hfit, hal⟩
          rw [List.foldlM_cons, he']
          exact hw
        · exact ⟨h'.1.trans hf, h'.2.1, hsp.trans h'.2.2⟩
      · obtain ⟨hf, ⟨-, ht⟩ | ⟨k, f, -, -, ht⟩⟩ := h
        all_goals exact ⟨hf, ht ▸ hs, ht ▸ .refl _ _⟩

/-- Directories are made on the way to a path and nowhere else; afterwards it leads to one. -/
theorem after_makeDirs (hs : d.tree.Sound) {p : Path} (hp : p.text ≠ "") :
    After (makeDirs p) d
      (fun _ d' => d'.faults = d.faults ∧ d'.tree.Sound ∧ Tree.Spares [] d.tree d'.tree ∧
        d'.tree.locate p = .ok p.location ∧ d'.tree.entry? p.location = some .directory)
      (fun _ d' => d'.faults = d.faults ∧ d'.tree.Sound ∧ Tree.Spares [] d.tree d'.tree) := by
  unfold makeDirs
  cases hf : Tree.pathFault? p with
  | some e => exact after_throw ⟨rfl, hs, .refl _ _⟩
  | none =>
      simp only [hp, if_false]
      refine (after_makeDirsFrom hs (Tree.entry?_start _ p) p.pieces).imp fun _ d' h => ?_
      obtain ⟨hf', hs', hsp, m, hw, hm⟩ := h
      obtain rfl := Tree.location_of_walk hw
      exact ⟨hf', hs', hsp, Tree.locate_eq_ok_iff.mpr ⟨⟨hf, hp⟩, hw⟩, hm⟩

/-! ## Writing -/

theorem write_eq_ok {t t' : Tree} (hs : t.Sound) {p : Path} {c : Content}
    (h : t.write p c = .ok t') :
    t'.Sound ∧ Tree.Spares [p.location] t t' ∧ t.locate p = .ok p.location ∧
      t'.entry? p.location = some (.file c) := by
  obtain ⟨hl, hne, rfl⟩ := Tree.of_write_eq_ok h
  have hb := Tree.not_isBase_of_entry? hne
  refine ⟨hs.insert hb (hs.parent_of_locate hl) fun hd => absurd hd hne,
    Tree.spares_insert hne _, hl, ?_⟩
  rw [Tree.entry?_insert hb, if_pos rfl]

/-- A file is written; torn or not, nothing else is touched. -/
theorem after_write (hs : d.tree.Sound) (p : Path) (c : Content) :
    After (write p c) d
      (fun _ d' => d'.faults = d.faults ∧ d'.tree.Sound ∧
        Tree.Spares [p.location] d.tree d'.tree ∧ d.tree.locate p = .ok p.location ∧
        d'.tree.entry? p.location = some (.file c))
      (fun _ d' => d'.faults = d.faults ∧ d'.tree.Sound ∧
        Tree.Spares [p.location] d.tree d'.tree) := by
  refine (after_change _ _).mono (fun _ d' h => ⟨h.1, write_eq_ok hs h.2⟩) (fun e d' h => ?_)
  · obtain ⟨hf, ⟨-, ht⟩ | ⟨k, f, -, -, ht⟩⟩ := h
    · exact ⟨hf, ht ▸ hs, ht ▸ .refl _ _⟩
    · rw [ht]
      cases f.torn with
      | none => exact ⟨hf, hs, .refl _ _⟩
      | some c' =>
          simp only
          cases hwr : d.tree.write p c' with
          | error e => exact ⟨hf, hs, .refl _ _⟩
          | ok t => exact ⟨hf, (write_eq_ok hs hwr).1, (write_eq_ok hs hwr).2.1⟩

/-! ## Renaming -/

theorem rename_eq_ok {t t' : Tree} (hs : t.Sound) {p q : Path} {c : Content}
    (hp : t.entry? p.location = some (.file c)) (hne : p.location ≠ q.location)
    (h : t.rename p q = .ok t') :
    t'.Sound ∧ Tree.Spares [q.location, p.location] t t' ∧
      t'.read q = t.read p := by
  obtain ⟨hlp, hlq, hq, rfl⟩ := Tree.of_rename_file_eq_ok hp hne h
  have hentry := hs.entry?_move_file hp hq
  have hsp : Tree.Spares [q.location, p.location] t (t.move p.location q.location) := by
    refine ⟨fun k hk => ?_, fun k hk => .inl ?_⟩
    · have hkq : k ≠ q.location := by rintro rfl; exact hq hk
      have hkp : k ≠ p.location := by rintro rfl; simp [hp] at hk
      rw [hentry, if_neg hkq, if_neg hkp, hk]
    · have hk' : k ≠ q.location ∧ k ≠ p.location := by simpa using hk
      rw [hentry, if_neg hk'.1, if_neg hk'.2]
  refine ⟨hs.move hp hq (hs.parent_of_locate hlq), hsp, ?_⟩
  have hlq' := Tree.locate_of_directories hsp.directory hlq
  unfold Tree.read Tree.find
  rw [hlp, hlq']
  simp only [bind, Except.bind]
  rw [hentry, if_pos rfl, hp]

/-- A file is renamed at one stroke, or nothing happens. -/
theorem after_rename (hs : d.tree.Sound) {p q : Path} {c : Content}
    (hp : d.tree.entry? p.location = some (.file c)) (hne : p.location ≠ q.location) :
    After (rename p q) d
      (fun _ d' => d'.faults = d.faults ∧ d'.tree.Sound ∧
        Tree.Spares [q.location, p.location] d.tree d'.tree ∧ d'.tree.read q = d.tree.read p)
      (fun _ d' => d'.faults = d.faults ∧ d'.tree = d.tree) := by
  refine (after_change _ _).mono (fun _ d' h => ⟨h.1, rename_eq_ok hs hp hne h.2⟩)
    (fun e d' h => ?_)
  · obtain ⟨hf, ⟨-, ht⟩ | ⟨k, f, -, -, ht⟩⟩ := h
    all_goals exact ⟨hf, ht⟩

/-! ## Removing -/

theorem removeTree_eq_ok {t t' : Tree} (hs : t.Sound) {p : Path} (h : t.removeTree p = .ok t') :
    t'.Sound ∧ ∀ l, t'.entry? l = if p.location <+: l then none else t.entry? l := by
  obtain ⟨-, -, hb, rfl⟩ := Tree.of_removeTree_eq_ok h
  exact ⟨hs.prune hb, Tree.entry?_prune hb⟩

/-- A removal of which nothing is gone leaves the tree. -/
theorem thin_of_not_gone (t : Tree) (l : Location) {gone : Location → Bool}
    (h : ∀ m, gone m = false) : t.thin l gone = t := by
  unfold Tree.thin
  refine List.filter_eq_self.mpr fun e he => ?_
  have hself : ¬ t.all fun f => ¬ e.1 <+: f.1 ∨ gone f.1 := fun hall => by
    have := List.all_eq_true.mp hall e he
    simp [h] at this
  exact decide_eq_true fun hgone => hself hgone.2

/-- A directory is taken away with all that it holds. Unless faults leave it half removed, it stays
as it was if that fails. -/
theorem after_removeTree (hs : d.tree.Sound) (hw : d.RemovesWhole) (p : Path) :
    After (removeTree p) d
      (fun _ d' => d'.faults = d.faults ∧ d'.tree.Sound ∧
        ∀ l, d'.tree.entry? l = if p.location <+: l then none else d.tree.entry? l)
      (fun _ d' => d'.faults = d.faults ∧ d'.tree = d.tree) := by
  refine (after_change _ _).mono (fun _ d' h => ⟨h.1, removeTree_eq_ok hs h.2⟩)
    (fun e d' h => ?_)
  · obtain ⟨hf, ⟨-, ht⟩ | ⟨k, f, hk, -, ht⟩⟩ := h
    · exact ⟨hf, ht⟩
    · refine ⟨hf, ht.trans ?_⟩
      split
      · exact thin_of_not_gone _ _ (hw k f hk)
      · rfl

end Disk

end DeviceBridge.Files
