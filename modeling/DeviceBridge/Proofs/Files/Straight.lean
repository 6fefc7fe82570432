import DeviceBridge.Proofs.Files.Disk

/-!
# DeviceBridge.Proofs.Files.Straight

Paths that only lead further, and accesses that nothing disturbs. A path is straight
(`Path.Straight`) if `..` stands at its beginning only, not even behind the root, and each of its
names can be the name of a file, so no directory has to be there for it to be left again.

On a disk without faults (`Disk.Faultless`) an access fails only where its work cannot be done
(`access_of_faultless`). What lies where afterwards is told by `attains_write`, `attains_rename` and
`attains_replace`.
-/

namespace DeviceBridge.Files

/-! ## Straight paths -/

instance (piece : List Char) : Decidable (Fits piece) :=
  inferInstanceAs (Decidable (_ → _ → _))

/-- Pieces that only lead further: each name among them fits, and `..` only leads up from the
working directory or one above it. -/
def Onward (l : Location) : List (List Char) → Prop
  | [] => True
  | piece :: rest =>
    Fits piece ∧ (piece = ['.', '.'] → isWorking l = true) ∧ Onward (along l piece) rest

instance Onward.decide (l : Location) : (pieces : List (List Char)) → Decidable (Onward l pieces)
  | [] => inferInstanceAs (Decidable True)
  | piece :: rest =>
    have := Onward.decide (along l piece) rest
    inferInstanceAs (Decidable (_ ∧ _ ∧ _))

theorem isPrefix_along {l : Location} {piece : List Char}
    (h : piece = ['.', '.'] → isWorking l = true) : l <+: along l piece := by
  unfold along
  split
  · exact List.prefix_rfl
  · split
    · next hup => rw [Tree.above_of_isWorking (h hup)]; exact List.prefix_append _ _
    · exact List.prefix_append _ _

theorem Onward.isPrefix {l : Location} {pieces : List (List Char)} (h : Onward l pieces) :
    l <+: pieces.foldl along l := by
  induction pieces generalizing l with
  | nil => exact List.prefix_rfl
  | cons piece rest ih => exact (isPrefix_along h.2.1).trans (ih h.2.2)

theorem onward_append {l : Location} {pieces rest : List (List Char)} :
    Onward l (pieces ++ rest) ↔ Onward l pieces ∧ Onward (pieces.foldl along l) rest := by
  induction pieces generalizing l with
  | nil => exact (and_iff_right trivial).symm
  | cons piece pieces ih =>
      simp only [List.cons_append, Onward, List.foldl_cons, ih, and_assoc]

/-- A path down from the root, the working directory or one above it. -/
def Path.Straight (p : Path) : Prop := Onward (Tree.start p) p.pieces

instance (p : Path) : Decidable p.Straight :=
  inferInstanceAs (Decidable (Onward (Tree.start p) p.pieces))

/-- What there is lies in directories all the way. -/
theorem Tree.Sound.above {t : Tree} (h : t.Sound) {l m : Location} (hl : t.entry? l ≠ none)
    (hm : m <+: l) (hne : m ≠ l) : t.entry? m = some .directory :=
  Classical.byContradiction fun hd => hl (h.below_isPrefix hd hm hne.symm)

/-! ## Accesses without faults -/

namespace Disk

/-- Whether no fault strikes. -/
def Faultless (d : Disk) : Prop := ∀ k, d.faults k = none

variable {α : Type} {d : Disk}

/-- Without faults an access does its work, or fails as its work does. -/
theorem access_of_faultless (h : d.Faultless) (work : Tree → Except FileError (α × Tree))
    (trace : Fault → Tree → Tree) :
    access work trace d = match work d.tree with
      | .ok (a, t) => .ok a { d with accesses := d.accesses + 1, tree := t }
      | .error e => .error e { d with accesses := d.accesses + 1 } := by
  unfold access
  split
  · next hf => exact absurd hf (by simp [h d.accesses])
  · rfl

theorem attains_access (h : d.Faultless) {work : Tree → Except FileError (α × Tree)}
    {trace : Fault → Tree → Tree} {a : α} {t : Tree} (hw : work d.tree = .ok (a, t)) :
    Attains (access work trace) d (fun b d' => d'.Faultless ∧ b = a ∧ d'.tree = t) := by
  unfold Attains After
  rw [access_of_faultless h, hw]
  exact ⟨h, rfl, rfl⟩

/-- What is told to be missing is no failure. -/
theorem attains_ifPresent (h : d.Faultless) {work : Tree → Except FileError (α × Tree)}
    {trace : Fault → Tree → Tree}
    (hw : (∃ a t, work d.tree = .ok (a, t)) ∨ work d.tree = .error .notFound) :
    Attains (ifPresent (access work trace)) d (fun r d' => d'.Faultless ∧
      match r with
      | some a => work d.tree = .ok (a, d'.tree)
      | none => work d.tree = .error .notFound ∧ d'.tree = d.tree) := by
  unfold Attains After ifPresent
  rw [access_of_faultless h]
  obtain ⟨a, t, hok⟩ | herr := hw
  · rw [hok]
    exact ⟨h, rfl⟩
  · rw [herr]
    exact ⟨h, rfl, rfl⟩

theorem attains_look (h : d.Faultless) (view : Tree → Except FileError α) {a : α}
    (hv : view d.tree = .ok a) :
    Attains (look view) d (fun b d' => d'.Faultless ∧ d'.tree = d.tree ∧ b = a) :=
  (attains_access h (a := a) (t := d.tree) (by rw [hv]; rfl)).imp
    fun _ _ h' => ⟨h'.1, h'.2.2, h'.2.1⟩

/-- A change that is possible is made. -/
theorem attains_change (h : d.Faultless) (change : Tree → Except FileError Tree)
    (trace : Fault → Tree → Tree) {t : Tree} (hc : change d.tree = .ok t) :
    Attains (access (fun t => (change t).map ((), ·)) trace) d
      (fun _ d' => d'.Faultless ∧ d'.tree = t) :=
  (attains_access h (by rw [hc]; rfl)).imp fun _ _ h' => ⟨h'.1, h'.2.2⟩

/-- What is looked at is seen, or found missing. -/
theorem attains_ifPresent_look (h : d.Faultless) (view : Tree → Except FileError α)
    (hv : (∃ a, view d.tree = .ok a) ∨ view d.tree = .error .notFound) :
    Attains (ifPresent (look view)) d (fun r d' => d'.Faultless ∧ d'.tree = d.tree ∧
      match r with
      | some a => view d.tree = .ok a
      | none => view d.tree = .error .notFound) := by
  unfold Attains After ifPresent look
  rw [access_of_faultless h]
  dsimp only
  obtain ⟨a, ha⟩ | hn := hv
  · rw [ha]
    exact ⟨h, rfl, rfl⟩
  · rw [hn]
    exact ⟨h, rfl, rfl⟩

/-- A file is read, or found missing. -/
theorem attains_ifPresent_read (h : d.Faultless) {p : Path}
    (hr : (∃ s, d.tree.read p = .ok s) ∨ d.tree.read p = .error .notFound) :
    Attains (ifPresent (read p)) d (fun r d' => d'.Faultless ∧ d'.tree = d.tree ∧
      match r with
      | some s => d.tree.read p = .ok s
      | none => d.tree.read p = .error .notFound) :=
  (attains_ifPresent_look h (·.read p) hr).imp fun r _ h' => by cases r <;> exact h'

/-- Something is there, or it is missing. -/
theorem attains_isPresent (h : d.Faultless) {p : Path}
    (hs : (∃ k, d.tree.stat p = .ok k) ∨ d.tree.stat p = .error .notFound) :
    Attains (isPresent p) d (fun b d' => d'.Faultless ∧ d'.tree = d.tree ∧
      (b = true ∧ (∃ k, d.tree.stat p = .ok k) ∨
        b = false ∧ d.tree.stat p = .error .notFound)) := by
  refine after_bind ((attains_ifPresent_look h (·.stat p) hs).imp fun r d' h' => ?_)
  cases r with
  | some k => exact after_pure ⟨h'.1, h'.2.1, .inl ⟨rfl, k, h'.2.2⟩⟩
  | none => exact after_pure ⟨h'.1, h'.2.1, .inr ⟨rfl, h'.2.2⟩⟩

/-- A file is written, and nothing else changes. -/
theorem attains_write (h : d.Faultless) (hs : d.tree.Sound) {p : Path} (c : Content)
    (hl : d.tree.locate p = .ok p.location) (hne : d.tree.entry? p.location ≠ some .directory) :
    Attains (write p c) d (fun _ d' => d'.Faultless ∧ d'.tree.Sound ∧
      ∀ m, d'.tree.entry? m =
        if m = p.location then some (.file c) else d.tree.entry? m) := by
  have hb := Tree.not_isBase_of_entry? hne
  have hwrite : d.tree.write p c = .ok (d.tree.insert p.location (.file c)) := by
    unfold Tree.write
    rw [hl]
    simp only [bind, Except.bind]
  refine (attains_change h (·.write p c) _ hwrite).imp fun _ d' h' => ?_
  obtain ⟨hf, ht⟩ := h'
  rw [ht]
  exact ⟨hf, (write_eq_ok hs hwrite).1, Tree.entry?_insert hb _⟩

/-- A file is moved in place of a former one, and nothing else changes. -/
theorem attains_rename (h : d.Faultless) (hs : d.tree.Sound) {p q : Path} {c : Content}
    (hp : d.tree.locate p = .ok p.location) (hq : d.tree.locate q = .ok q.location)
    (hep : d.tree.entry? p.location = some (.file c))
    (heq : d.tree.entry? q.location ≠ some .directory) (hne : p.location ≠ q.location) :
    Attains (rename p q) d (fun _ d' => d'.Faultless ∧ d'.tree.Sound ∧
      ∀ m, d'.tree.entry? m =
        if m = q.location then some (.file c)
        else if m = p.location then none else d.tree.entry? m) := by
  have hrename : d.tree.rename p q = .ok (d.tree.move p.location q.location) := by
    unfold Tree.rename
    rw [hp, hq]
    simp only [bind, Except.bind, hep, hne, if_false]
  refine (attains_change h (·.rename p q) _ hrename).imp fun _ d' h' => ?_
  obtain ⟨hf, ht⟩ := h'
  rw [ht]
  exact ⟨hf, hs.move hep heq (hs.parent_of_locate hq), hs.entry?_move_file hep heq⟩

/-- A file is written beside its place and moved into it, and nothing else changes. -/
theorem attains_replace (h : d.Faultless) (hs : d.tree.Sound) {p q : Path} (c : Content)
    (hp : d.tree.locate p = .ok p.location) (hq : d.tree.locate q = .ok q.location)
    (hep : d.tree.entry? p.location ≠ some .directory)
    (heq : d.tree.entry? q.location ≠ some .directory) (hne : p.location ≠ q.location) :
    Attains (do write p c; rename p q) d (fun _ d' => d'.Faultless ∧ d'.tree.Sound ∧
      ∀ m, d'.tree.entry? m =
        if m = q.location then some (.file c)
        else if m = p.location then none else d.tree.entry? m) := by
  refine after_bind ((attains_write h hs c hp hep).imp fun _ d₁ h₁ => ?_)
  obtain ⟨hf₁, hs₁, he₁⟩ := h₁
  have hdirs (m : Location) (hm : d.tree.entry? m = some .directory) :
      d₁.tree.entry? m = some .directory := by
    have hmp : m ≠ p.location := fun hmp => hep (hmp ▸ hm)
    rw [he₁, if_neg hmp, hm]
  refine (attains_rename hf₁ hs₁ (Tree.locate_of_directories hdirs hp)
    (Tree.locate_of_directories hdirs hq) (by rw [he₁, if_pos rfl])
    (by rw [he₁, if_neg hne.symm]; exact heq) hne).imp fun _ d₂ h₂ => ⟨h₂.1, h₂.2.1, fun m => ?_⟩
  rw [h₂.2.2, he₁]
  split
  · rfl
  · split <;> rfl

end Disk

end DeviceBridge.Files
