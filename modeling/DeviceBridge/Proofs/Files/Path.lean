import DeviceBridge.Proofs.Files.Tree

/-!
# DeviceBridge.Proofs.Files.Path

Names joined to paths. A name leads one step further, whatever the path ends in (`location_join`).
Where it ends in a name itself, exactly one piece is appended (`pieces_join`), and another extension
only changes that last piece (`withExtension_join`).
-/

namespace DeviceBridge.Files

/-! ## Pieces -/

theorem splitSlashes_append (cs ds : List Char) :
    splitSlashes (cs ++ '/' :: ds) = splitSlashes cs ++ splitSlashes ds := by
  induction cs with
  | nil => simp [splitSlashes]
  | cons c cs ih =>
      rw [List.cons_append, splitSlashes, splitSlashes, ih]
      by_cases hc : c = '/'
      · rw [if_pos hc, if_pos hc, List.cons_append]
      · obtain ⟨p, ps, h⟩ := List.exists_cons_of_ne_nil (splitSlashes_ne_nil cs)
        rw [if_neg hc, if_neg hc, h]
        rfl

theorem splitSlashes_of_not_mem {cs : List Char} (h : '/' ∉ cs) : splitSlashes cs = [cs] := by
  induction cs with
  | nil => rfl
  | cons c cs ih =>
      have hc : c ≠ '/' := fun hc => h (hc ▸ List.mem_cons_self)
      rw [splitSlashes, if_neg hc, ih fun hm => h (List.mem_cons_of_mem c hm)]

theorem joinSlashes_cons (p : List Char) {ps : List (List Char)} (h : ps ≠ []) :
    joinSlashes (p :: ps) = p ++ '/' :: joinSlashes ps := by
  cases ps with
  | nil => exact absurd rfl h
  | cons q qs => rfl

theorem joinSlashes_append_singleton {pieces : List (List Char)} (h : pieces ≠ [])
    (piece : List Char) :
    joinSlashes (pieces ++ [piece]) = joinSlashes pieces ++ '/' :: piece := by
  induction pieces with
  | nil => exact absurd rfl h
  | cons p ps ih =>
      by_cases hps : ps = []
      · rw [hps]
        rfl
      · rw [List.cons_append, joinSlashes_cons p (by simp), ih hps, joinSlashes_cons p hps,
          List.append_assoc, List.cons_append]

/-- A piece that names a file or a directory. -/
structure IsFileName (name : List Char) : Prop where
  slashless : '/' ∉ name
  notIdle : isIdle name = false
  notAbove : name ≠ ['.', '.']

theorem IsFileName.ne_nil {name : List Char} (h : IsFileName name) : name ≠ [] := fun hn => by
  simpa [hn, isIdle] using h.notIdle

/-- A name does not lead to where paths begin. -/
theorem IsFileName.isBase_concat {name : String} (h : IsFileName name.toList) (l : Location) :
    isBase (l ++ [name]) = false := by
  have hup : name ≠ ".." := fun hn => h.notAbove (by rw [hn]; rfl)
  have hroot : l ++ [name] ≠ systemRoot := fun hl => by
    have hends : l ++ [name] = [] ++ ["/"] := hl
    have hname : name = "/" := List.singleton_inj.mp (List.append_inj' hends rfl).2
    exact h.slashless (by rw [hname]; exact List.mem_cons_self)
  simp [isBase, isWorking, hroot, hup]

/-! ## Steps among pieces -/

/-- Whether a piece is a step. -/
def isStep (piece : List Char) : Bool := !isIdle piece

theorem along_of_isIdle {piece : List Char} (h : isIdle piece = true) (l : Location) :
    along l piece = l := if_pos h

/-- Only steps lead somewhere. -/
theorem foldl_along_filter (pieces : List (List Char)) (l : Location) :
    (pieces.filter isStep).foldl along l = pieces.foldl along l := by
  induction pieces generalizing l with
  | nil => rfl
  | cons piece rest ih =>
      rw [List.filter_cons, List.foldl_cons]
      cases hidle : isIdle piece with
      | false => simp [isStep, hidle, ih]
      | true => simp [isStep, hidle, ih, along_of_isIdle hidle]

namespace Tree

variable {t : Tree} {l m : Location} {pieces : List (List Char)}

/-- A way that ends at a directory begins at one. -/
theorem directory_of_walk (hm : t.entry? m = some .directory)
    (h : pieces.foldlM t.enter l = .ok m) : t.entry? l = some .directory := by
  cases pieces with
  | nil => exact Except.ok.inj h ▸ hm
  | cons piece rest =>
      rw [List.foldlM_cons] at h
      cases he : t.enter l piece with
      | error e => rw [he] at h; contradiction
      | ok n => exact (enter_eq_ok_iff.mp he).1

/-- On a way to a directory only the steps matter. -/
theorem walk_filter_iff (hm : t.entry? m = some .directory) :
    (pieces.filter isStep).foldlM t.enter l = .ok m ↔ pieces.foldlM t.enter l = .ok m := by
  induction pieces generalizing l with
  | nil => rfl
  | cons piece rest ih =>
      rw [List.filter_cons, List.foldlM_cons]
      cases hidle : isIdle piece with
      | false =>
          simp only [isStep, hidle, Bool.not_false, if_true, List.foldlM_cons]
          cases t.enter l piece with
          | error e => rfl
          | ok n => exact ih
      | true =>
          -- An idle piece asks for no more than the directory that the way begins at anyway.
          simp only [isStep, hidle, Bool.not_true, Bool.false_eq_true, if_false]
          have hfits : Fits piece := fun h => absurd h (by simp [hidle])
          constructor
          · intro h
            have hl := directory_of_walk hm h
            rw [enter_eq_ok_iff.mpr ⟨hl, hfits, along_of_isIdle hidle l⟩]
            exact ih.mp h
          · intro h
            cases he : t.enter l piece with
            | error e => rw [he] at h; contradiction
            | ok n =>
                obtain ⟨-, -, hn⟩ := enter_eq_ok_iff.mp he
                rw [he, ← hn, along_of_isIdle hidle] at h
                exact ih.mpr h

end Tree

namespace Path

/-- A path whose text does not end at a slash or before its beginning. -/
def EndsInName (p : Path) : Prop := ∃ cs c, p.text.toList = cs ++ [c] ∧ c ≠ '/'

variable {p dir : Path} {name : String}

theorem text_eq_of_pieces {pieces : List (List Char)} (hp : p.pieces = pieces) :
    p.text.toList = joinSlashes pieces := by
  rw [← hp]
  exact (joinSlashes_splitSlashes _).symm

theorem text_eq_empty_iff : p.text = "" ↔ p.pieces = [[]] := by
  constructor
  · intro h
    unfold pieces
    rw [h]
    rfl
  · intro h
    have htext := text_eq_of_pieces h
    exact String.toList_eq_nil_iff.mp htext

/-! ## Joining -/

theorem endsInName_join (dir : Path) (h : IsFileName name.toList) : (dir.join name).EndsInName := by
  have hne := h.ne_nil
  have hlast : name.toList = name.toList.dropLast ++ [name.toList.getLast hne] :=
    (List.dropLast_concat_getLast hne).symm
  have hslash : name.toList.getLast hne ≠ '/' := fun hc =>
    h.slashless (hc ▸ List.getLast_mem hne)
  unfold join EndsInName
  split
  · exact ⟨_, _, hlast, hslash⟩
  · exact ⟨dir.text.toList ++ name.toList.dropLast, _,
      by rw [String.toList_append, List.append_assoc, ← hlast], hslash⟩
  · exact ⟨dir.text.toList ++ '/' :: name.toList.dropLast, _,
      by rw [List.append_assoc, List.cons_append, ← hlast]; simp, hslash⟩

theorem text_join (hd : dir.EndsInName) (name : String) :
    (dir.join name).text.toList = dir.text.toList ++ '/' :: name.toList := by
  obtain ⟨cs, c, hcs, hc⟩ := hd
  have hlast : dir.text.toList.getLast? = some c := by simp [hcs]
  unfold join
  rw [hlast]
  split
  · contradiction
  · next h => exact absurd (Option.some.inj h) hc
  · simp [String.toList_append]

theorem text_ne_empty (hd : dir.EndsInName) : dir.text ≠ "" := by
  obtain ⟨cs, c, hcs, -⟩ := hd
  intro h
  simp [h] at hcs

theorem pieces_join (hd : dir.EndsInName) (hn : '/' ∉ name.toList) :
    (dir.join name).pieces = dir.pieces ++ [name.toList] := by
  unfold pieces
  rw [text_join hd, splitSlashes_append, splitSlashes_of_not_mem hn]

/-- Whatever a path ends in, a name that is joined to it is the last piece, and only an empty piece
may have given way to it. -/
theorem exists_pieces_join (dir : Path) (hn : '/' ∉ name.toList) :
    ∃ init, (dir.join name).pieces = init ++ [name.toList] ∧
      (dir.pieces = init ∨ dir.pieces = init ++ [[]]) := by
  rcases List.eq_nil_or_concat dir.text.toList with hnil | ⟨cs, c, hcs⟩
  · refine ⟨[], ?_, .inr ?_⟩
    · have hjoin : dir.join name = ⟨name⟩ := by
        unfold join
        rw [hnil]
        rfl
      unfold pieces
      rw [hjoin, splitSlashes_of_not_mem hn, List.nil_append]
    · unfold pieces
      rw [hnil]
      rfl
  · rw [List.concat_eq_append] at hcs
    by_cases hc : c = '/'
    · refine ⟨splitSlashes cs, ?_, .inr ?_⟩
      · have hjoin : dir.join name = ⟨dir.text ++ name⟩ := by
          unfold join
          rw [hcs, List.getLast?_append, List.getLast?_singleton, hc]
          rfl
        unfold pieces
        rw [hjoin, String.toList_append, hcs, hc, List.append_assoc, List.singleton_append,
          splitSlashes_append, splitSlashes_of_not_mem hn]
      · unfold pieces
        rw [hcs, hc, splitSlashes_append]
        rfl
    · exact ⟨dir.pieces, pieces_join ⟨cs, c, hcs, hc⟩ hn, .inl rfl⟩

/-- The steps before a name that is joined to a path are those of the path. -/
theorem exists_steps_join (dir : Path) (hn : '/' ∉ name.toList) :
    ∃ init, (dir.join name).pieces = init ++ [name.toList] ∧
      init.filter isStep = dir.pieces.filter isStep := by
  obtain ⟨init, hjoin, hdir⟩ := exists_pieces_join dir hn
  refine ⟨init, hjoin, ?_⟩
  obtain h | h := hdir
  · rw [h]
  · rw [h, List.filter_append]
    exact (List.append_nil _).symm

/-! ## Where paths begin -/

theorem isAbsolute_of_append {p q : Path} {rest : String} (h : q.text = p.text ++ rest)
    (hne : p.text ≠ "") : Tree.isAbsolute q = Tree.isAbsolute p := by
  obtain ⟨c, cs, hcs⟩ := List.exists_cons_of_ne_nil (l := p.text.toList) (by simpa using hne)
  unfold Tree.isAbsolute
  rw [h, String.toList_append, hcs]
  rfl

/-- The text of a path goes on when a name is joined to it, in the same way for all names. -/
theorem exists_text_join (dir : Path) :
    ∃ slash, ∀ name, (dir.join name).text = dir.text ++ (slash ++ name) := by
  unfold join
  split
  · next hlast =>
    have hempty := String.toList_eq_nil_iff.mp (List.getLast?_eq_none_iff.mp hlast)
    exact ⟨"", fun name => by rw [hempty, String.empty_append, String.empty_append]⟩
  · exact ⟨"", fun name => by rw [String.empty_append]⟩
  · exact ⟨"/", fun name => String.append_assoc⟩

theorem text_join_ne_empty (htext : dir.text ≠ "") (name : String) : (dir.join name).text ≠ "" := by
  obtain ⟨slash, hjoin⟩ := exists_text_join dir
  rw [hjoin name]
  exact fun h => htext (String.append_eq_empty_iff.mp h).1

theorem isAbsolute_join (htext : dir.text ≠ "") (name : String) :
    Tree.isAbsolute (dir.join name) = Tree.isAbsolute dir := by
  obtain ⟨slash, hjoin⟩ := exists_text_join dir
  exact isAbsolute_of_append (hjoin name) htext

/-- A text without slashes begins at the working directory. -/
theorem start_of_slashless (hn : '/' ∉ name.toList) : Tree.start ⟨name⟩ = [] :=
  if_neg fun h => hn (List.mem_of_head? (of_decide_eq_true h))

/-- A path begins where it did before a name was joined to it. -/
theorem start_join (dir : Path) (hn : '/' ∉ name.toList) :
    Tree.start (dir.join name) = Tree.start dir := by
  by_cases htext : dir.text = ""
  · have hjoin : dir.join name = ⟨name⟩ := by
      unfold join
      rw [htext]
      rfl
    have hdir : Tree.start dir = [] := start_of_slashless (by simp [htext])
    rw [hjoin, start_of_slashless hn, hdir]
  · unfold Tree.start
    rw [isAbsolute_join htext]

theorem location_join_along (dir : Path) (hn : '/' ∉ name.toList) :
    (dir.join name).location = along dir.location name.toList := by
  obtain ⟨init, hjoin, hsteps⟩ := exists_steps_join dir hn
  unfold location
  rw [start_join dir hn, hjoin, List.foldl_append, ← foldl_along_filter init, hsteps,
    foldl_along_filter]
  rfl

/-- A name leads one step further. -/
theorem location_join (dir : Path) (hn : IsFileName name.toList) :
    (dir.join name).location = dir.location ++ [name] := by
  rw [location_join_along dir hn.slashless]
  simp [along, hn.notIdle, hn.notAbove]

/-! ## Texts that go on -/

theorem pathFault?_eq_none_iff {p : Path} :
    Tree.pathFault? p = none ↔ '\x00' ∉ p.text.toList ∧ p.text.utf8ByteSize < pathLimit := by
  unfold Tree.pathFault?
  split
  · next hnul => simp [hnul]
  · next hnul => split <;> simp_all

section
variable {p q : Path} {rest : String} (h : q.text = p.text ++ rest)
include h

/-- Nothing is wrong with a text if nothing is wrong with one that goes on from it. -/
theorem pathFault?_of_append (hq : Tree.pathFault? q = none) : Tree.pathFault? p = none := by
  obtain ⟨hnul, hsize⟩ := pathFault?_eq_none_iff.mp hq
  rw [h] at hnul hsize
  rw [String.utf8ByteSize_append] at hsize
  refine pathFault?_eq_none_iff.mpr ⟨fun hm => hnul ?_, by omega⟩
  rw [String.toList_append]
  exact List.mem_append_left _ hm

end

theorem text_join_append (hd : dir.EndsInName) (name : String) :
    (dir.join name).text = dir.text ++ ("/" ++ name) := by
  rw [← String.toList_inj, text_join hd]
  simp

/-! ## Ways to a name -/

section
variable {t : Tree} (hn : '/' ∉ name.toList)
include hn

/-- A way to a name is a way to the directory that the name lies in, and the name fits. -/
theorem directory_of_locate_join {l : Location} (htext : dir.text ≠ "")
    (h : t.locate (dir.join name) = .ok l) :
    t.locate dir = .ok dir.location ∧ t.entry? dir.location = some .directory ∧
      Fits name.toList := by
  obtain ⟨⟨hfault, -⟩, hwalk⟩ := Tree.locate_eq_ok_iff.mp h
  obtain ⟨slash, hjoin⟩ := exists_text_join dir
  obtain ⟨init, hpieces, hsteps⟩ := exists_steps_join dir hn
  rw [start_join dir hn, hpieces, List.foldlM_append] at hwalk
  cases hw : init.foldlM t.enter (Tree.start dir) with
  | error e => rw [hw] at hwalk; contradiction
  | ok m =>
      rw [hw] at hwalk
      cases he : t.enter m name.toList with
      | error e =>
          simp only [bind, Except.bind, List.foldlM_cons, he] at hwalk
          contradiction
      | ok n =>
          obtain ⟨hd, hfits, -⟩ := Tree.enter_eq_ok_iff.mp he
          have hdir := (Tree.walk_filter_iff hd).mpr hw
          rw [hsteps, Tree.walk_filter_iff hd] at hdir
          have hlocate := Tree.locate_eq_ok_iff.mpr
            ⟨⟨pathFault?_of_append (hjoin name) hfault, htext⟩, hdir⟩
          obtain rfl := Tree.location_of_locate hlocate
          exact ⟨hlocate, hd, hfits⟩

variable (hl : t.locate dir = .ok dir.location) (hd : t.entry? dir.location = some .directory)
include hl hd

/-- In a directory that has been reached, a name is one piece further. -/
theorem locate_join : t.locate (dir.join name) =
    match Tree.pathFault? (dir.join name) with
    | some e => .error e
    | none => t.enter dir.location name.toList := by
  obtain ⟨⟨-, htext⟩, hwalk⟩ := Tree.locate_eq_ok_iff.mp hl
  obtain ⟨init, hpieces, hsteps⟩ := exists_steps_join dir hn
  rw [← Tree.walk_filter_iff hd, ← hsteps, Tree.walk_filter_iff hd] at hwalk
  unfold Tree.locate
  simp only [text_join_ne_empty htext name, if_false]
  rw [start_join dir hn, hpieces, List.foldlM_append, hwalk]
  cases Tree.pathFault? (dir.join name) with
  | some e => rfl
  | none => exact bind_pure (t.enter dir.location name.toList)

theorem locate_join_of_fits (hfault : Tree.pathFault? (dir.join name) = none)
    (hfits : Fits name.toList) : t.locate (dir.join name) = .ok (dir.join name).location := by
  rw [locate_join hn hl hd, hfault]
  exact Tree.enter_eq_ok_iff.mpr ⟨hd, hfits, (location_join_along dir hn).symm⟩

/-- In a directory that has been reached, a name is not overlooked. -/
theorem locate_join_ne_notFound : t.locate (dir.join name) ≠ .error .notFound := by
  rw [locate_join hn hl hd]
  unfold Tree.pathFault? Tree.enter
  grind

end

/-! ## Extensions -/

theorem dropExtension_append {stem extension : List Char} (hs : stem ≠ [])
    (he : '.' ∉ extension) : dropExtension (stem ++ '.' :: extension) = stem := by
  obtain ⟨c, cs, h⟩ := List.exists_cons_of_ne_nil (List.reverse_ne_nil_iff.mpr hs)
  have hall : ∀ x ∈ extension.reverse, decide (x ≠ '.') = true := fun x hx => by
    have : x ≠ '.' := fun hc => he (hc ▸ List.mem_reverse.mp hx)
    simpa using this
  have hdrop : (stem ++ '.' :: extension).reverse.dropWhile (· ≠ '.') = '.' :: c :: cs := by
    rw [List.reverse_append, List.reverse_cons, List.append_assoc,
      List.dropWhile_append_of_pos hall, h]
    simp
  unfold dropExtension
  rw [hdrop]
  simp only
  rw [← h, List.reverse_reverse]

/-- Another extension changes the last name only. -/
theorem withExtension_join (hd : dir.EndsInName) (hn : IsFileName name.toList)
    (extension : String) :
    (dir.join name).withExtension extension =
      dir.join (String.ofList (dropExtension name.toList ++ '.' :: extension.toList)) := by
  obtain ⟨first, rest, hp⟩ := List.exists_cons_of_ne_nil (splitSlashes_ne_nil dir.text.toList)
  have hpieces : (dir.join name).pieces = first :: (rest ++ [name.toList]) := by
    rw [pieces_join hd hn.slashless]
    unfold pieces
    rw [hp, List.cons_append]
  have hdrop : dropIdle (rest ++ [name.toList]) = rest ++ [name.toList] := by
    unfold dropIdle
    rw [List.reverse_append, List.reverse_singleton, List.singleton_append,
      List.dropWhile_cons_of_neg (by simp [hn.notIdle]), List.reverse_cons, List.reverse_reverse]
  have hne : name.toList ≠ [] ∧ name.toList ≠ ['.'] := by
    have := hn.notIdle
    simpa [isIdle] using this
  have hfile : (dir.join name).fileName? = some name.toList := by
    unfold fileName?
    rw [hpieces]
    simp only
    rw [hdrop]
    simp [hne.1, hne.2, hn.notAbove]
  have hjoin : joinSlashes (first :: rest) = dir.text.toList := by
    rw [← hp, joinSlashes_splitSlashes]
  have hinit : (first :: (rest ++ [name.toList])).dropLast = first :: rest := by
    rw [← List.cons_append, List.dropLast_concat]
  unfold withExtension
  rw [hpieces, hfile]
  simp only
  rw [hdrop, hinit, joinSlashes_append_singleton (by simp), hjoin]
  have htext := text_join hd
    (String.ofList (dropExtension name.toList ++ '.' :: extension.toList))
  rw [String.toList_ofList] at htext
  rw [← htext, String.ofList_toList]

end Path

end DeviceBridge.Files
