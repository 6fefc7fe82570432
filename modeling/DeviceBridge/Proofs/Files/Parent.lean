import DeviceBridge.Proofs.Files.Way

/-!
# DeviceBridge.Proofs.Files.Parent

The directory that a file lies in. A path that leads to a file ends in the name of the file, and
what is left of it without that name leads to the directory (`Path.locate_parent?`). Other names are
found or missing there (`Path.locate_join_of_fits`, `Path.locate_join_of_stat`).
-/

namespace DeviceBridge.Files

/-! ## Pieces -/

theorem not_mem_of_mem_splitSlashes {cs piece : List Char} (h : piece ∈ splitSlashes cs) :
    '/' ∉ piece := by
  induction cs generalizing piece with
  | nil => simp_all [splitSlashes]
  | cons c cs ih =>
      rw [splitSlashes] at h
      split at h
      · rcases List.mem_cons.mp h with rfl | h
        · exact List.not_mem_nil
        · exact ih h
      · next hc =>
        obtain ⟨p, ps, hp⟩ := List.exists_cons_of_ne_nil (splitSlashes_ne_nil cs)
        rw [hp] at h ih
        rcases List.mem_cons.mp h with rfl | h
        · rw [List.mem_cons, not_or]
          exact ⟨fun heq => hc heq.symm, ih List.mem_cons_self⟩
        · exact ih (List.mem_cons_of_mem p h)

/-- Pieces without slashes are found again when a text is put together from them. -/
theorem splitSlashes_joinSlashes {pieces : List (List Char)} (hne : pieces ≠ [])
    (h : ∀ piece ∈ pieces, '/' ∉ piece) : splitSlashes (joinSlashes pieces) = pieces := by
  induction pieces with
  | nil => exact absurd rfl hne
  | cons piece rest ih =>
      have hpiece := splitSlashes_of_not_mem (h piece List.mem_cons_self)
      by_cases hr : rest = []
      · rw [hr]
        exact hpiece
      · rw [joinSlashes_cons piece hr, splitSlashes_append, hpiece,
          ih hr fun q hq => h q (List.mem_cons_of_mem piece hq), List.singleton_append]

theorem joinSlashes_append {pieces rest : List (List Char)} (hp : pieces ≠ []) (hr : rest ≠ []) :
    joinSlashes (pieces ++ rest) = joinSlashes pieces ++ '/' :: joinSlashes rest := by
  induction pieces with
  | nil => exact absurd rfl hp
  | cons piece pieces ih =>
      by_cases hps : pieces = []
      · rw [hps, List.singleton_append, joinSlashes_cons piece hr]
        rfl
      · rw [List.cons_append, joinSlashes_cons piece (by simp [hps]), ih hps,
          joinSlashes_cons piece hps, List.append_assoc, List.cons_append]

/-- Only idle pieces are dropped. -/
theorem exists_dropIdle (pieces : List (List Char)) :
    ∃ idle, pieces = dropIdle pieces ++ idle ∧ ∀ piece ∈ idle, isIdle piece = true := by
  refine ⟨(pieces.reverse.takeWhile isIdle).reverse, ?_, fun piece hp => ?_⟩
  · unfold dropIdle
    rw [← List.reverse_append, List.takeWhile_append_dropWhile, List.reverse_reverse]
  · exact List.all_eq_true.mp List.all_takeWhile piece (List.mem_reverse.mp hp)

theorem dropIdle_concat {init : List (List Char)} {last : List Char} (h : isIdle last = false) :
    dropIdle (init ++ [last]) = init ++ [last] := by
  unfold dropIdle
  rw [List.reverse_append, List.reverse_singleton, List.singleton_append,
    List.dropWhile_cons_of_neg (by simp [h]), List.reverse_cons, List.reverse_reverse]

theorem filter_isStep_idle {idle : List (List Char)} (h : ∀ piece ∈ idle, isIdle piece = true) :
    idle.filter isStep = [] :=
  List.filter_eq_nil_iff.mpr fun piece hp => by simp [isStep, h piece hp]

theorem filter_isStep_dropIdle (pieces : List (List Char)) :
    (dropIdle pieces).filter isStep = pieces.filter isStep := by
  obtain ⟨idle, h, hidle⟩ := exists_dropIdle pieces
  have hfilter := congrArg (List.filter isStep) h
  rw [List.filter_append, filter_isStep_idle hidle, List.append_nil] at hfilter
  exact hfilter.symm

theorem dropIdle_append_idle (pieces : List (List Char)) {idle : List (List Char)}
    (h : ∀ piece ∈ idle, isIdle piece = true) : dropIdle (pieces ++ idle) = dropIdle pieces := by
  unfold dropIdle
  rw [List.reverse_append,
    List.dropWhile_append_of_pos fun piece hp => h piece (List.mem_reverse.mp hp)]

/-! ## What is found -/

namespace Tree

variable {t : Tree}

/-- Whatever is found at the end of a path lies where the path leads. -/
theorem of_stat_eq_ok {p : Path} {k : Kind} (h : t.stat p = .ok k) :
    t.locate p = .ok p.location ∧
      match k with
      | .directory => t.entry? p.location = some .directory
      | .file => ∃ c, t.entry? p.location = some (.file c) := by
  unfold stat find at h
  cases hl : t.locate p with
  | error e => rw [hl] at h; contradiction
  | ok l =>
      obtain rfl := location_of_locate hl
      rw [hl] at h
      simp only [bind, Except.bind] at h
      refine ⟨rfl, ?_⟩
      cases he : t.entry? p.location with
      | none => rw [he] at h; contradiction
      | some e =>
          rw [he] at h
          cases e with
          | directory => cases h; rfl
          | file c => cases h; exact ⟨c, rfl⟩

theorem stat_of_directory {p : Path} (hl : t.locate p = .ok p.location)
    (hd : t.entry? p.location = some .directory) : t.stat p = .ok .directory := by
  unfold stat find
  rw [hl]
  simp only [bind, Except.bind, hd]

theorem stat_of_file {p : Path} {c : Content} (hl : t.locate p = .ok p.location)
    (hf : t.entry? p.location = some (.file c)) : t.stat p = .ok .file := by
  unfold stat find
  rw [hl]
  simp only [bind, Except.bind, hf]

theorem stat_of_none {p : Path} (hl : t.locate p = .ok p.location)
    (hn : t.entry? p.location = none) : t.stat p = .error .notFound := by
  unfold stat find
  rw [hl]
  simp only [bind, Except.bind, hn]

end Tree

/-! ## The directory of a file -/

namespace Path

variable {t : Tree} {p dir : Path} {name : List Char}

theorem slashless_of_pieces {pieces rest : List (List Char)} (hp : p.pieces = pieces ++ rest) :
    ∀ piece ∈ pieces, '/' ∉ piece := fun piece h => by
  have hmem : piece ∈ p.pieces := by rw [hp]; exact List.mem_append_left _ h
  exact not_mem_of_mem_splitSlashes hmem

theorem fileName?_of_pieces {init : List (List Char)} {last : List Char}
    (hp : p.pieces = init ++ [last]) (hidle : isIdle last = false) :
    p.fileName? = if last = ['.', '.'] then none else some last := by
  have hlast : ¬ (last = [] ∨ last = ['.']) := fun h => by
    have hidle' : isIdle last = true := decide_eq_true h
    rw [hidle] at hidle'
    contradiction
  unfold fileName?
  rw [hp]
  cases init with
  | nil =>
      have hnil : dropIdle [] = [] := rfl
      simp only [List.nil_append, hnil, List.getLast?_nil, Option.getD_none]
      grind
  | cons first init =>
      simp only [List.cons_append, dropIdle_concat hidle, List.getLast?_concat, Option.getD_some]
      grind

/-- The name at the end of a path that leads to a file is its last piece, and the pieces before it
lead to a directory. -/
theorem exists_pieces_of_fileName? (hl : t.locate p = .ok p.location)
    (hf : t.entry? p.location ≠ some .directory) (hn : p.fileName? = some name) :
    ∃ init, p.pieces = init ++ [name] ∧ IsFileName name ∧
      init.foldlM t.enter (Tree.start p) = .ok (init.foldl along (Tree.start p)) ∧
      t.entry? (init.foldl along (Tree.start p)) = some .directory ∧
      p.location = init.foldl along (Tree.start p) ++ [String.ofList name] := by
  obtain ⟨init, last, hp⟩ : ∃ init last, p.pieces = init ++ [last] := by
    obtain h | ⟨init, last, h⟩ := List.eq_nil_or_concat p.pieces
    · exact absurd h (splitSlashes_ne_nil _)
    · exact ⟨init, last, h.trans List.concat_eq_append⟩
  obtain ⟨hinit, hlast⟩ := Tree.walk_append (hp ▸ (Tree.locate_eq_ok_iff.mp hl).2)
  have hd : t.entry? (init.foldl along (Tree.start p)) = some .directory := by
    cases he : t.enter (init.foldl along (Tree.start p)) last with
    | error e => simp only [List.foldlM_cons, he] at hlast; contradiction
    | ok n => exact (Tree.enter_eq_ok_iff.mp he).1
  have hloc : p.location = along (init.foldl along (Tree.start p)) last := by
    unfold location
    rw [hp, List.foldl_append]
    rfl
  -- An idle piece would have led to a directory.
  have hidle : isIdle last = false := Bool.eq_false_iff.mpr fun hidle => by
    rw [hloc, along, if_pos hidle] at hf
    exact hf hd
  obtain ⟨habove, hsame⟩ := Option.ite_none_left_eq_some.mp
    ((fileName?_of_pieces hp hidle).symm.trans hn)
  obtain rfl := Option.some.inj hsame
  have hslash := slashless_of_pieces (hp.trans (List.append_nil _).symm) last (by simp)
  refine ⟨init, hp, ⟨hslash, hidle, habove⟩, hinit, hd, ?_⟩
  rw [hloc, along, hidle]
  simp [habove]

/-- A path without the name at its end, where more than the root of the system is left. -/
theorem parent?_of_pieces {first : List Char} {mid : List (List Char)}
    (hp : p.pieces = first :: (mid ++ [name])) (hidle : isIdle name = false)
    (hmore : first ≠ [] ∨ dropIdle mid ≠ []) :
    p.parent? = some ⟨String.ofList (joinSlashes (first :: dropIdle mid))⟩ := by
  unfold parent?
  rw [hp]
  simp only [dropIdle_concat hidle]
  cases hm : mid ++ [name] with
  | nil => simp at hm
  | cons q qs =>
      have hmid : (q :: qs).dropLast = mid := by rw [← hm, List.dropLast_concat]
      simp only [hmid]
      split
      · next hnil => exact absurd hnil (hmore.resolve_left fun h => h rfl)
      · rfl

theorem pieces_of_slashless {pieces : List (List Char)} (hne : pieces ≠ [])
    (h : ∀ piece ∈ pieces, '/' ∉ piece) :
    Path.pieces ⟨String.ofList (joinSlashes pieces)⟩ = pieces := by
  unfold Path.pieces
  rw [String.toList_ofList]
  exact splitSlashes_joinSlashes hne h

/-- The text of a path goes on from that of its first pieces. -/
theorem text_of_pieces {pieces rest : List (List Char)} (hp : p.pieces = pieces ++ rest)
    (hpieces : pieces ≠ []) (hrest : rest ≠ []) :
    p.text = String.ofList (joinSlashes pieces) ++ String.ofList ('/' :: joinSlashes rest) := by
  rw [← String.toList_inj, String.toList_append, String.toList_ofList, String.toList_ofList,
    ← joinSlashes_append hpieces hrest, ← hp]
  exact (joinSlashes_splitSlashes _).symm

/-- A path that begins with a name is relative. -/
theorem isAbsolute_of_pieces {first : List Char} {rest : List (List Char)}
    (hp : p.pieces = first :: rest) (h : first ≠ []) : Tree.isAbsolute p = false := by
  have hslash : ∀ piece ∈ [first], '/' ∉ piece := slashless_of_pieces hp
  obtain ⟨c, cs, rfl⟩ := List.exists_cons_of_ne_nil h
  have hc : c ≠ '/' := fun hc => hslash _ List.mem_cons_self (hc ▸ List.mem_cons_self)
  unfold Tree.isAbsolute
  rw [text_eq_of_pieces hp]
  cases rest <;> simp [joinSlashes, hc]

theorem isAbsolute_of_nil {rest : List (List Char)} (hp : p.pieces = [] :: rest) (h : rest ≠ []) :
    Tree.isAbsolute p = true := by
  unfold Tree.isAbsolute
  rw [text_eq_of_pieces hp, joinSlashes_cons _ h]
  rfl

theorem isAbsolute_eq {first : List Char} {rest rest' : List (List Char)}
    (hp : p.pieces = first :: rest) (hdir : dir.pieces = first :: rest') (hrest : rest ≠ [])
    (hrest' : first = [] → rest' ≠ []) : Tree.isAbsolute p = Tree.isAbsolute dir := by
  by_cases hfirst : first = []
  · rw [hfirst] at hp hdir
    rw [isAbsolute_of_nil hp hrest, isAbsolute_of_nil hdir (hrest' hfirst)]
  · rw [isAbsolute_of_pieces hp hfirst, isAbsolute_of_pieces hdir hfirst]

/-- A path without the name that stands behind its other pieces. -/
theorem exists_parent? {first : List Char} {mid idle : List (List Char)}
    (hp : p.pieces = first :: (mid ++ name :: idle)) (hname : isIdle name = false)
    (hidle : ∀ piece ∈ idle, isIdle piece = true) :
    ∃ dir rest, p.parent? = some dir ∧ dir.text ≠ "" ∧ (∃ more, p.text = dir.text ++ more) ∧
      dir.pieces = first :: rest ∧ (first = [] → rest ≠ []) ∧
      rest.filter isStep = mid.filter isStep := by
  have hdrop : dropIdle (mid ++ name :: idle) = mid ++ [name] := by
    rw [List.append_cons, dropIdle_append_idle _ hidle, dropIdle_concat hname]
  obtain ⟨q, qs, hkept⟩ : ∃ q qs, mid ++ [name] = q :: qs :=
    List.exists_cons_of_ne_nil (by simp)
  have hmid : (q :: qs).dropLast = mid := by rw [← hkept, List.dropLast_concat]
  obtain ⟨gone, hgone, -⟩ := exists_dropIdle mid
  have hpieces : p.pieces = (first :: dropIdle mid) ++ (gone ++ name :: idle) := by
    rw [hp, List.cons_append, ← List.append_assoc, ← hgone]
  have htext := text_of_pieces hpieces (by simp) (by simp)
  rw [← filter_isStep_dropIdle mid]
  by_cases hroot : first = [] ∧ dropIdle mid = []
  · refine ⟨⟨"/"⟩, [[]], ?_, by decide, ?_, ?_, fun _ => by simp, ?_⟩
    · unfold parent?
      rw [hp]
      simp only [hdrop, hkept, hmid, hroot]
    · -- The text of the first pieces is empty, and the slash behind them is that of the root.
      refine ⟨String.ofList (joinSlashes (gone ++ name :: idle)), ?_⟩
      rw [htext, hroot.1, hroot.2, ← String.toList_inj]
      simp [joinSlashes]
    · rw [hroot.1]
      rfl
    · rw [hroot.2]
      rfl
  · have hdir := pieces_of_slashless (by simp) (slashless_of_pieces hpieces)
    refine ⟨⟨String.ofList (joinSlashes (first :: dropIdle mid))⟩, dropIdle mid, ?_,
      fun hempty => ?_, ⟨_, htext⟩, hdir, fun hfirst hnil => ?_, rfl⟩
    · unfold parent?
      rw [hp]
      simp only [hdrop, hkept, hmid]
      split
      · next hnil => exact absurd ⟨rfl, hnil⟩ hroot
      · rfl
    · rw [Path.pieces, hempty] at hdir
      have hnil : first :: dropIdle mid = [[]] := hdir.symm
      exact hroot (List.cons.inj hnil)
    · exact hroot ⟨hfirst, hnil⟩

/-- What is left of a path to a file without the name of the file leads to the directory that the
file lies in. Nothing is left if that is the working directory. -/
theorem locate_parent? (hl : t.locate p = .ok p.location)
    (hf : t.entry? p.location ≠ some .directory) (hn : p.fileName? = some name) :
    IsFileName name ∧
      (p.parent? = some ⟨""⟩ ∧ p.location = [String.ofList name] ∨
        ∃ dir, p.parent? = some dir ∧ dir.text ≠ "" ∧ t.locate dir = .ok dir.location ∧
          t.entry? dir.location = some .directory ∧
          p.location = dir.location ++ [String.ofList name]) := by
  obtain ⟨init, hp, hname, hinit, hd, hloc⟩ := exists_pieces_of_fileName? hl hf hn
  refine ⟨hname, ?_⟩
  cases init with
  | nil =>
      have hne := hname.ne_nil
      have hstart : Tree.start p = [] := if_neg (by simp [isAbsolute_of_pieces hp hne])
      refine .inl ⟨?_, ?_⟩
      · have hnil : dropIdle [] = [] := rfl
        unfold parent?
        rw [hp]
        simp [hne, hnil]
      · rw [hloc, hstart]
        rfl
  | cons first mid =>
      obtain ⟨dir, rest, hparent, htext, ⟨more, hmore⟩, hdir, hrest, hsteps⟩ :=
        exists_parent? hp hname.notIdle (by simp)
      have hstart : Tree.start p = Tree.start dir := by
        unfold Tree.start
        rw [isAbsolute_eq hp hdir (by simp) hrest]
      have hfault := (Tree.locate_eq_ok_iff.mp hl).1.1
      have hfilter : (first :: mid).filter isStep = dir.pieces.filter isStep := by
        rw [hdir, List.filter_cons, List.filter_cons, hsteps]
      rw [← Tree.walk_filter_iff hd, hfilter, Tree.walk_filter_iff hd, hstart] at hinit
      have hlocate : t.locate dir = .ok ((first :: mid).foldl along (Tree.start dir)) :=
        Tree.locate_eq_ok_iff.mpr ⟨⟨pathFault?_of_append hmore hfault, htext⟩, hinit⟩
      have hlocation := Tree.location_of_locate hlocate
      rw [hstart] at hd hloc
      rw [hlocation] at hlocate hd hloc
      exact .inr ⟨dir, hparent, htext, hlocate, hd, hloc⟩

/-! ## Other names in a directory -/

section
variable {file : String} (hl : t.locate dir = .ok dir.location)
  (hd : t.entry? dir.location = some .directory)
include hl hd

/-- What is told to be missing in a directory has a name that names a file; the other pieces lead to
directories. -/
theorem isFileName_of_stat (hs : t.Sound) (hslash : '/' ∉ file.toList)
    (hstat : t.stat (dir.join file) = .error .notFound) : IsFileName file.toList := by
  have hfound (hfits : Fits file.toList)
      (he : t.entry? (along dir.location file.toList) = some .directory) : False := by
    cases hfault : Tree.pathFault? (dir.join file) with
    | none =>
        rw [← location_join_along dir hslash] at he
        have hlocate := locate_join_of_fits hslash hl hd hfault hfits
        rw [Tree.stat_of_directory hlocate he] at hstat
        contradiction
    | some e =>
        unfold Tree.stat Tree.find Tree.locate at hstat
        rw [hfault] at hstat
        obtain rfl : e = .notFound := Except.error.inj hstat
        unfold Tree.pathFault? at hfault
        grind
  refine ⟨hslash, Bool.eq_false_iff.mpr fun hidle => hfound ?_ ?_, fun hup => hfound ?_ ?_⟩
  · exact fun h => by simp [hidle] at h
  · rw [along, if_pos hidle, hd]
  · exact fun _ h => absurd hup h
  · -- One step up leads to a directory, from where paths begin as well.
    have habove : along dir.location file.toList = above dir.location := by
      unfold along
      rw [hup, if_neg (by decide), if_pos rfl]
    rw [habove]
    cases hb : isBase dir.location with
    | true => exact Tree.entry?_of_isBase (Tree.isBase_above hb)
    | false =>
        rw [Tree.above_of_not_isBase hb]
        exact hs.parent _ (by simp [hd])

/-- A name that is told to be missing can be reached, and nothing is there. -/
theorem locate_join_of_stat (hn : IsFileName file.toList)
    (hs : t.stat (dir.join file) = .error .notFound) :
    t.locate (dir.join file) = .ok (dir.join file).location ∧
      t.entry? (dir.join file).location = none := by
  have hreached := locate_join_ne_notFound hn.slashless hl hd
  unfold Tree.stat Tree.find at hs
  cases hj : t.locate (dir.join file) with
  | error e =>
      rw [hj] at hs
      exact absurd (hj.trans (congrArg Except.error (Except.error.inj hs))) hreached
  | ok l =>
      obtain rfl := Tree.location_of_locate hj
      rw [hj] at hs
      simp only [bind, Except.bind] at hs
      refine ⟨rfl, ?_⟩
      cases he : t.entry? (dir.join file).location with
      | none => rfl
      | some e => rw [he] at hs; cases e <;> cases hs

end

end Path

end DeviceBridge.Files
