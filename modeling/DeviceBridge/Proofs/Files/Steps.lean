import DeviceBridge.Proofs.Files.Naming

/-!
# DeviceBridge.Proofs.Files.Steps

What a path says, and where it leads. Paths that say the same lead to the same place
(`Path.location_eq_foldl`), and a name that is joined to a path is one step more
(`Path.steps_join`), whatever the path ends in. That is so because a name is no path of its own: a
text that begins at the root of the system would stand for itself instead (`Path.resolve`).
-/

namespace DeviceBridge.Files

namespace Path

variable {p q dir : Path} {name : String}

/-! ## What a path says -/

theorem steps_of_text_eq_empty (h : p.text = "") : p.steps = ⟨false, []⟩ := by
  unfold steps
  rw [text_eq_empty_iff.mp h]
  rfl

/-- An empty piece at the beginning says that a path is absolute; a dot there is kept. -/
theorem steps_of_pieces {first : List Char} {rest : List (List Char)}
    (hp : p.pieces = first :: rest) (h : p.text ≠ "") :
    p.steps =
      ⟨decide (first = []), (if first = [] then [] else [first]) ++ rest.filter isStep⟩ := by
  unfold steps
  rw [hp]
  cases rest with
  | nil =>
      have hfirst : first ≠ [] := fun hf => h (text_eq_empty_iff.mpr (hf ▸ hp))
      simp [hfirst]
  | cons next rest =>
      by_cases hfirst : first = []
      · simp only [hfirst, if_true, decide_true, List.nil_append]
        rfl
      · simp only [hfirst, if_false, decide_false, List.singleton_append]
        rfl

/-- A path that begins at the root says so. -/
theorem absolute_steps (p : Path) : p.steps.absolute = Tree.isAbsolute p := by
  obtain ⟨first, rest, hp⟩ := List.exists_cons_of_ne_nil (splitSlashes_ne_nil p.text.toList)
  by_cases htext : p.text = ""
  · rw [steps_of_text_eq_empty htext]
    unfold Tree.isAbsolute
    rw [htext]
    rfl
  · rw [steps_of_pieces hp htext]
    by_cases hfirst : first = []
    · subst hfirst
      have hrest : rest ≠ [] := fun hnil => htext (text_eq_empty_iff.mpr (hnil ▸ hp))
      rw [isAbsolute_of_nil hp hrest]
      rfl
    · rw [isAbsolute_of_pieces hp hfirst]
      exact decide_eq_false hfirst

/-- Where a path leads is read off its steps. -/
theorem location_eq_foldl (p : Path) :
    p.location = p.steps.pieces.foldl along p.steps.start := by
  have hstart : p.steps.start = Tree.start p := by
    unfold Steps.start Tree.start
    rw [absolute_steps]
  rw [hstart]
  unfold location
  obtain ⟨first, rest, hp⟩ := List.exists_cons_of_ne_nil (splitSlashes_ne_nil p.text.toList)
  by_cases htext : p.text = ""
  · rw [steps_of_text_eq_empty htext, text_eq_empty_iff.mp htext]
    exact along_of_isIdle (by decide : isIdle [] = true) _
  · rw [steps_of_pieces hp htext, List.foldl_append, foldl_along_filter, pieces, hp,
      List.foldl_cons]
    by_cases hfirst : first = []
    · rw [if_pos hfirst, along_of_isIdle (by simp [isIdle, hfirst])]
      rfl
    · rw [if_neg hfirst]
      rfl

/-- Whether two paths say the same or lead to the same place. -/
def Meets (p q : Path) : Prop := p.same q = true ∨ p.location = q.location

theorem meets_iff : p.Meets q ↔ p.location = q.location := by
  unfold Meets same
  refine ⟨fun h => h.elim (fun hsame => ?_) id, .inr⟩
  rw [location_eq_foldl, location_eq_foldl q, of_decide_eq_true hsame]

/-! ## Names that are joined -/

/-- What a text says where a directory is at hand. A text that begins at the root of the system
stands for itself. -/
def resolve (dir : Path) (text : String) : Path :=
  if Tree.isAbsolute ⟨text⟩ then ⟨text⟩ else dir.join text

theorem resolve_eq_join (dir : Path) (hn : IsFileName name.toList) :
    dir.resolve name = dir.join name := by
  have hrelative : Tree.isAbsolute ⟨name⟩ = false := decide_eq_false fun h =>
    hn.slashless (List.mem_of_head? h)
  unfold resolve
  rw [hrelative]
  rfl

/-- A name is one step more. -/
theorem steps_join (dir : Path) (hn : IsFileName name.toList) :
    (dir.join name).steps = ⟨dir.steps.absolute, dir.steps.pieces ++ [name.toList]⟩ := by
  have hstep : [name.toList].filter isStep = [name.toList] := by simp [isStep, hn.notIdle]
  have hjoined : (dir.join name).text ≠ "" := text_ne_empty (endsInName_join dir hn)
  by_cases htext : dir.text = ""
  · have hjoin : dir.join name = ⟨name⟩ := by
      unfold join
      rw [htext]
      rfl
    rw [steps_of_text_eq_empty htext, hjoin]
    have hpieces : Path.pieces ⟨name⟩ = [name.toList] := splitSlashes_of_not_mem hn.slashless
    rw [steps_of_pieces hpieces (hjoin ▸ hjoined)]
    simp [hn.ne_nil]
  · obtain ⟨init, hjoin, hdir⟩ := exists_pieces_join dir hn.slashless
    obtain ⟨first, rest, rfl⟩ : ∃ first rest, init = first :: rest := by
      refine List.exists_cons_of_ne_nil fun hinit => ?_
      rw [hinit] at hdir
      obtain h | h := hdir
      · exact splitSlashes_ne_nil _ h
      · exact htext (text_eq_empty_iff.mpr h)
    rw [List.cons_append] at hjoin hdir
    rw [steps_of_pieces hjoin hjoined, List.filter_append, hstep]
    obtain h | h := hdir
    · rw [steps_of_pieces h htext, List.append_assoc]
    · have hempty : [[]].filter isStep = [] := rfl
      rw [steps_of_pieces h htext, List.filter_append, hempty, List.append_nil, List.append_assoc]

/-- The path of a name inside of a directory, without the name, is that of the directory. -/
theorem parent?_join {file : String} (dir : Path) (hn : IsFileName name.toList)
    (hf : IsFileName file.toList) : ((dir.join name).join file).parent? = some (dir.join name) := by
  obtain ⟨init, hjoin, -⟩ := exists_pieces_join dir hn.slashless
  obtain ⟨first, mid, hpieces⟩ :=
    List.exists_cons_of_ne_nil (splitSlashes_ne_nil (dir.join name).text.toList)
  change (dir.join name).pieces = first :: mid at hpieces
  have hkept : dropIdle mid = mid ∧ (first ≠ [] ∨ mid ≠ []) := by
    cases init with
    | nil =>
        obtain ⟨rfl, rfl⟩ := List.cons.inj (hpieces.symm.trans hjoin)
        exact ⟨rfl, .inl hn.ne_nil⟩
    | cons _ rest =>
        obtain ⟨-, rfl⟩ := List.cons.inj (hpieces.symm.trans hjoin)
        exact ⟨dropIdle_concat hn.notIdle, .inr (by simp)⟩
  have hparts : ((dir.join name).join file).pieces = first :: (mid ++ [file.toList]) := by
    rw [pieces_join (endsInName_join dir hn) hf.slashless, hpieces, List.cons_append]
  rw [parent?_of_pieces hparts hf.notIdle (hkept.1.symm ▸ hkept.2), hkept.1,
    ← text_eq_of_pieces hpieces, String.ofList_toList]

end Path

end DeviceBridge.Files
