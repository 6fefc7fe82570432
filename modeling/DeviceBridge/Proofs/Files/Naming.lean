import DeviceBridge.Proofs.Files.Parent
import DeviceBridge.Proofs.Files.Straight

/-!
# DeviceBridge.Proofs.Files.Naming

The route of a path, however the path is spelled (`Path.route`): whether it begins at the root, and
its steps without those that lead nowhere. The name at the end of a path is the last step of its
route, and the path without it has the others (`Path.route_of_fileName?`). The route of a straight
path is the location itself (`Path.location_of_straight`).
-/

namespace DeviceBridge.Files

theorem Steps.ext {s s' : Steps} (habsolute : s.absolute = s'.absolute)
    (hpieces : s.pieces = s'.pieces) : s = s' := by
  cases s
  cases s'
  simp_all

/-- Where steps begin. -/
def Steps.start (s : Steps) : Location := if s.absolute then systemRoot else []

/-- Where steps lead that only lead further. -/
def Steps.location (s : Steps) : Location := s.start ++ s.pieces.map String.ofList

/-- Steps without slashes that lead to the same place are the same. -/
theorem Steps.location_inj {s s' : Steps} (hs : ∀ piece ∈ s.pieces, '/' ∉ piece)
    (hs' : ∀ piece ∈ s'.pieces, '/' ∉ piece) (h : s.location = s'.location) : s = s' := by
  -- A step is not the name of the root.
  have hroot {pieces : List (List Char)} (hp : ∀ piece ∈ pieces, '/' ∉ piece) {l : Location} :
      systemRoot ++ l ≠ pieces.map String.ofList := fun heq => by
    obtain ⟨piece, hmem, hpiece⟩ := List.mem_map.mp (heq ▸ List.mem_cons_self :
      "/" ∈ pieces.map String.ofList)
    exact hp piece hmem (by rw [← String.toList_ofList (l := piece), hpiece]; decide)
  unfold location start at h
  have habsolute : s.absolute = s'.absolute := by
    cases ha : s.absolute <;> cases ha' : s'.absolute
    · rfl
    · rw [ha, ha'] at h
      exact absurd h.symm (hroot hs)
    · rw [ha, ha'] at h
      exact absurd h (hroot hs')
    · rfl
  rw [habsolute, List.append_cancel_left_eq] at h
  exact Steps.ext habsolute ((List.map_inj_right fun _ _ => String.ofList_inj.mp).mp h)

/-- The directory from which a location is reached: the root of the system, the working directory or
one above it. -/
def origin (l : Location) : Location := l.takeWhile fun name => isBase [name]

namespace Path

/-- The route of a path, however it is spelled. Unlike `Path.steps` it has no leading dot. -/
def route (p : Path) : Steps := ⟨Tree.isAbsolute p, p.pieces.filter isStep⟩

variable {p dir : Path} {name : List Char}

/-! ## The name at the end -/

/-- The name at the end of a path is its first piece, or it stands behind others; only idle pieces
come after it. -/
theorem pieces_of_fileName? (h : p.fileName? = some name) :
    isIdle name = false ∧ ∃ idle : List (List Char), (∀ piece ∈ idle, isIdle piece = true) ∧
      (p.pieces = name :: idle ∨ ∃ first mid, p.pieces = first :: (mid ++ name :: idle)) := by
  unfold fileName? at h
  split at h
  · contradiction
  · next first rest hp =>
    obtain ⟨hname, hlast⟩ := Option.ite_none_left_eq_some.mp h
    rw [Option.some.inj hlast] at hname
    refine ⟨by simp_all [isIdle], ?_⟩
    obtain ⟨idle, hrest, hidle⟩ := exists_dropIdle rest
    obtain hnil | ⟨mid, last, hmid⟩ := List.eq_nil_or_concat (dropIdle rest)
    · refine ⟨idle, hidle, .inl ?_⟩
      rw [hp, hrest, ← Option.some.inj hlast, hnil]
      rfl
    · refine ⟨idle, hidle, .inr ⟨first, mid, ?_⟩⟩
      rw [hp, hrest, ← Option.some.inj hlast, hmid]
      simp

/-- The route of a path with a name at its end ends in that name. The path without it is the working
directory, or has what comes before as its route. -/
theorem route_of_fileName? (h : p.fileName? = some name) :
    ∃ dir : Path, p.parent? = some dir ∧
      (dir.text = "" ∧ p.route = ⟨false, [name]⟩ ∨
        dir.text ≠ "" ∧ p.route = ⟨dir.route.absolute, dir.route.pieces ++ [name]⟩) := by
  obtain ⟨hname, idle, hidle, hp | ⟨first, mid, hp⟩⟩ := pieces_of_fileName? h
  · have hne : name ≠ [] := fun h => by simp [h, isIdle] at hname
    have hdrop : dropIdle idle = [] := dropIdle_append_idle [] hidle
    refine ⟨⟨""⟩, ?_, .inl ⟨rfl, ?_⟩⟩
    · unfold parent?
      rw [hp]
      simp [hdrop, hne]
    · unfold route
      rw [isAbsolute_of_pieces hp hne, hp, List.filter_cons, filter_isStep_idle hidle]
      simp [isStep, hname]
  · obtain ⟨dir, rest, hparent, htext, -, hdir, hrest, hfilter⟩ := exists_parent? hp hname hidle
    refine ⟨dir, hparent, .inr ⟨htext, ?_⟩⟩
    have habsolute := isAbsolute_eq hp hdir (by simp) hrest
    have htail : (name :: idle).filter isStep = [name] := by
      rw [List.filter_cons, filter_isStep_idle hidle]
      simp [isStep, hname]
    simp only [route, habsolute, hp, hdir, ← List.cons_append, List.filter_append, htail]
    rw [List.filter_cons, List.filter_cons, hfilter]

/-- A name behind a path comes last on the route, unless it leads nowhere. -/
theorem route_join (htext : dir.text ≠ "") {file : String} (hslash : '/' ∉ file.toList) :
    (dir.join file).route =
      ⟨dir.route.absolute, dir.route.pieces ++ [file.toList].filter isStep⟩ := by
  obtain ⟨init, hjoin, hsteps⟩ := exists_steps_join dir hslash
  unfold route
  rw [hjoin, List.filter_append, hsteps, isAbsolute_join htext]

/-! ## Where a straight path leads -/

theorem onward_filter_iff {l : Location} {pieces : List (List Char)} :
    Onward l (pieces.filter isStep) ↔ Onward l pieces := by
  induction pieces generalizing l with
  | nil => rfl
  | cons piece rest ih =>
      rw [List.filter_cons]
      cases hidle : isIdle piece with
      | false => simp [isStep, hidle, Onward, ih]
      | true =>
          have halong : along l piece = l := if_pos hidle
          have hfits : Fits piece := fun h => absurd h (by simp [hidle])
          have habove : piece ≠ ['.', '.'] := fun h => by simp [h, isIdle] at hidle
          simp [isStep, hidle, Onward, ih, halong, hfits, habove]

theorem foldl_along_of_onward {l : Location} {pieces : List (List Char)} (h : Onward l pieces) :
    pieces.foldl along l = l ++ (pieces.filter isStep).map String.ofList := by
  induction pieces generalizing l with
  | nil => exact (List.append_nil l).symm
  | cons piece rest ih =>
      obtain ⟨-, hup, hrest⟩ := h
      rw [List.foldl_cons, ih hrest, List.filter_cons]
      unfold along isStep
      split
      · next hidle => simp [hidle]
      · next hidle =>
        split
        · next habove =>
          subst habove
          have hstep : isIdle ['.', '.'] = false := rfl
          simp [Tree.above_of_isWorking (hup rfl), hstep]
        · simp [hidle]

/-- The route of a straight path is the location to which it leads. -/
theorem location_of_straight (h : p.Straight) : p.location = p.route.location :=
  foldl_along_of_onward h

/-! ## Without an extension -/

/-- The route of a path without the extension of the name at its end. -/
def bare (p : Path) : Steps :=
  ⟨p.route.absolute, p.route.pieces.dropLast ++ (p.route.pieces.getLast?.map dropExtension).toList⟩

/-- A name without `.json` at its end. -/
def dropJson (name : List Char) : List Char :=
  if ".json".toList <:+ name then name.take (name.length - 5) else name

/-- The route of a path without `.json` at its end. -/
def lessJson (p : Path) : Steps :=
  ⟨p.route.absolute,
    (p.route.pieces.dropLast ++ (p.route.pieces.getLast?.map dropJson).toList).filter isStep⟩

theorem dropJson_append (stem : List Char) : dropJson (stem ++ ".json".toList) = stem := by
  unfold dropJson
  rw [if_pos (List.suffix_append _ _)]
  simp

/-- A name that ends in `.json` has no other extension. -/
theorem of_dropJson (name : List Char) : dropJson name = name ∨
    name = dropExtension name ∨ name = dropExtension name ++ ".json".toList := by
  unfold dropJson
  split
  · next hjson =>
    obtain ⟨stem, rfl⟩ := hjson
    refine .inr ?_
    by_cases hstem : stem = []
    · exact .inl (by rw [hstem]; decide)
    · have hjson : ".json".toList = '.' :: "json".toList := by decide
      have hdrop : dropExtension (stem ++ ".json".toList) = stem := by
        rw [hjson]
        exact dropExtension_append hstem (by decide)
      exact .inr (by rw [hdrop])
  · exact .inl rfl

end Path

end DeviceBridge.Files
