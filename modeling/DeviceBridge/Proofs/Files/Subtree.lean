import DeviceBridge.Proofs.Files.Way

/-!
# DeviceBridge.Proofs.Files.Subtree

What lies at and below one location, and the rest of the tree. Accesses below a location leave the
rest as it is, entry for entry, whatever faults strike (`Tree.Confined`, the `maintains_` lemmas of
`Disk`). A directory that is renamed takes all that it holds with it, and what lies elsewhere stays
(`Tree.Sound.entry?_move`).
-/

namespace DeviceBridge.Files

namespace Tree

variable {t t' base : Tree} {h : Location}

/-! ## Without a subtree -/

/-- What changes below a location does not show without it. -/
theorem prune_insert {l : Location} (hl : h <+: l) (e : Entry) :
    prune (t.insert l e) h = t.prune h :=
  Dictionary.filter_insert (p := fun k => decide (¬ h <+: k)) (by simp [hl]) e

theorem prune_prune {l : Location} (hl : h <+: l) : (t.prune l).prune h = t.prune h := by
  unfold prune
  rw [List.filter_filter]
  refine List.filter_congr fun e _ => ?_
  by_cases he : h <+: e.1
  · simp [he]
  · have hne : ¬ l <+: e.1 := fun hp => he (hl.trans hp)
    simp [he, hne]

theorem prune_thin (gone : Location → Bool) : (t.thin h gone).prune h = t.prune h := by
  unfold prune thin
  rw [List.filter_filter]
  refine List.filter_congr fun e _ => ?_
  by_cases he : h <+: e.1 <;> simp [he]

/-- What is elsewhere stays when a removal is broken off. -/
theorem entry?_thin (hb : isBase h = false) {l : Location} (hl : ¬ h <+: l)
    (gone : Location → Bool) : Tree.entry? (t.thin h gone) l = t.entry? l := by
  have hrest := congrArg (Tree.entry? · l) (prune_thin (t := t) (h := h) gone)
  simpa only [entry?_prune hb, if_neg hl] using hrest

/-- Each entry below the working directory is what lies at its location. -/
theorem Sound.entry?_of_mem (hs : t.Sound) {l : Location} {e : Entry} (he : (l, e) ∈ t)
    (hb : isBase l = false) : t.entry? l = some e := by
  rw [entry?_of_not_isBase hb, Dictionary.get?_of_mem hs.ordered he]

/-- Where nothing is, there is nothing to take away. -/
theorem Sound.prune_eq_self (hs : t.Sound) (hn : t.entry? h = none) : t.prune h = t := by
  have hb : isBase h = false := not_isBase_of_entry? (t := t) (by simp [hn])
  refine List.filter_eq_self.mpr fun e he => decide_eq_true fun hp => ?_
  have hbe : isBase e.1 = false := Bool.eq_false_iff.mpr fun hbe => by
    simp [isBase_of_isPrefix hp hbe] at hb
  have hentry := hs.entry?_of_mem he hbe
  by_cases heq : e.1 = h
  · rw [heq, hn] at hentry
    contradiction
  · rw [hs.below_isPrefix (by simp [hn]) hp heq] at hentry
    contradiction

/-! ## Changes below a location -/

/-- A tree that is a base except at and below a location, where no file lies. -/
structure Confined (h : Location) (base t : Tree) : Prop where
  sound : t.Sound
  rest : t.prune h = base
  clear : ∀ c, t.entry? h ≠ some (.file c)

namespace Confined

theorem entry?_eq (hc : Confined h base t) (hb : isBase h = false) {l : Location}
    (hl : ¬ h <+: l) : t.entry? l = base.entry? l := by
  rw [← hc.rest, entry?_prune hb, if_neg hl]

/-- What can be reached without the location can be reached. -/
theorem locate (hc : Confined h base t) (hb : isBase h = false) {p : Path} {l : Location}
    (hl : base.locate p = .ok l) : t.locate p = .ok l := by
  refine locate_of_directories (fun m hm => ?_) hl
  by_cases hp : h <+: m
  · rw [← hc.rest, entry?_prune hb, if_pos hp] at hm
    contradiction
  · rw [hc.entry?_eq hb hp, hm]

theorem insert (hc : Confined h base t) (hb : isBase h = false) {l : Location} {e : Entry}
    (hs : Sound (t.insert l e)) (hl : h <+: l) (hle : l = h → e = .directory) :
    Confined h base (t.insert l e) := by
  refine ⟨hs, (prune_insert hl e).trans hc.rest, fun c => ?_⟩
  have hbl : isBase l = false := Bool.eq_false_iff.mpr fun hbl => by
    simp [isBase_of_isPrefix hl hbl] at hb
  rw [entry?_insert hbl]
  split
  · next heq => simp [hle heq.symm]
  · exact hc.clear c

theorem makeDir (hc : Confined h base t) (hb : isBase h = false) {l m : Location}
    {piece : List Char} (hm : h <+: along l piece ∨ base.entry? (along l piece) = some .directory)
    (hok : t.makeDir l piece = .ok (m, t')) : m = along l piece ∧ Confined h base t' := by
  obtain ⟨rfl, hpaved⟩ := paved_makeDir hc.sound hok
  refine ⟨rfl, ?_⟩
  obtain ⟨-, ⟨hn, rfl⟩ | ⟨-, rfl⟩⟩ := of_makeDir_eq_ok hok
  · -- Elsewhere the directory would have been there.
    have hbelow : h <+: along l piece := by
      refine Classical.byContradiction fun hp => ?_
      rw [hc.entry?_eq hb hp, hm.resolve_left hp] at hn
      contradiction
    exact hc.insert hb hpaved.sound hbelow fun _ => rfl
  · exact hc

theorem write (hc : Confined h base t) (hb : isBase h = false) {p : Path} {c : Content}
    (hp : h <+: p.location) (hne : p.location ≠ h) (hok : t.write p c = .ok t') :
    Confined h base t' := by
  have hs := (Disk.write_eq_ok hc.sound hok).1
  obtain ⟨-, -, rfl⟩ := of_write_eq_ok hok
  exact hc.insert hb hs hp fun heq => absurd heq hne

theorem rename_file (hc : Confined h base t) {p q : Path} {c : Content}
    (he : t.entry? p.location = some (.file c)) (hne : p.location ≠ q.location)
    (hp : h <+: p.location) (hq : h <+: q.location) (hqh : q.location ≠ h)
    (hok : t.rename p q = .ok t') : Confined h base t' := by
  have hs := (Disk.rename_eq_ok hc.sound he hne hok).1
  obtain ⟨-, -, hqd, rfl⟩ := of_rename_file_eq_ok he hne hok
  refine ⟨hs, ?_, fun x => ?_⟩
  · rw [hc.sound.move_file he, prune_insert hq, prune_prune hp, prune_prune hq, hc.rest]
  · rw [hc.sound.entry?_move_file he hqd, if_neg hqh.symm]
    split
    · simp
    · exact hc.clear x

theorem prune (hc : Confined h base t) (hb : isBase h = false) : Confined h base (t.prune h) :=
  ⟨hc.sound.prune hb, (prune_prune List.prefix_rfl).trans hc.rest, fun c => by
    rw [entry?_prune hb, if_pos List.prefix_rfl]
    simp⟩

theorem thin (hc : Confined h base t) (hb : isBase h = false) (gone : Location → Bool) :
    Confined h base (t.thin h gone) := by
  refine ⟨hc.sound.thin h gone, (prune_thin gone).trans hc.rest, fun c => ?_⟩
  have hget := Dictionary.get?_filter t
    (fun k => decide ¬(h <+: k ∧ t.all fun f => ¬ k <+: f.1 ∨ gone f.1)) h
  unfold Tree.thin
  rw [entry?_of_not_isBase hb, hget]
  split
  · rw [← entry?_of_not_isBase hb]
    exact hc.clear c
  · simp

end Confined

theorem Sound.confined (hs : t.Sound) (hc : ∀ c, t.entry? h ≠ some (.file c)) :
    Confined h (t.prune h) t :=
  ⟨hs, rfl, hc⟩

/-! ## Renaming a directory -/

/-- What was below the old location is found below the new one. -/
theorem Sound.get?_foldl_move (hs : t.Sound) {s : Location} (hbs : isBase s = false)
    (base : Tree) (d r : Location) :
    Dictionary.get? ((t.filter fun e => s <+: e.1).foldl
      (fun t e => t.insert (d ++ e.1.drop s.length) e.2) base) (d ++ r) =
        (t.entry? (s ++ r)).or (base.get? (d ++ r)) := by
  have hbsr : isBase (s ++ r) = false := Bool.eq_false_iff.mpr fun hb => by
    simp [isBase_of_isPrefix (List.prefix_append s r) hb] at hbs
  -- What goes to this location comes from one location only.
  have hfrom : ∀ e ∈ t.filter fun e => s <+: e.1,
      d ++ e.1.drop s.length = d ++ r → e.1 = s ++ r := fun e he heq => by
    have hp : s <+: e.1 := of_decide_eq_true (List.mem_filter.mp he).2
    rw [← List.append_cancel_left heq]
    exact (List.prefix_iff_eq_append.mp hp).symm
  cases hget : t.entry? (s ++ r) with
  | some e =>
      rw [entry?_of_not_isBase hbsr] at hget
      refine Dictionary.get?_foldl_insert_of_mem (f := fun e => d ++ e.1.drop s.length)
        (e := (s ++ r, e)) (List.mem_filter.mpr ⟨Dictionary.mem_of_get? hget, by simp⟩) (by simp)
        fun e' he' heq => ?_
      have hkey := hfrom e' he' heq
      have hmem : (s ++ r, e'.2) ∈ t := hkey ▸ (List.mem_filter.mp he').1
      have hsame := (Dictionary.get?_of_mem hs.ordered hmem).symm.trans hget
      exact Prod.ext hkey (Option.some.inj hsame)
  | none =>
      refine Dictionary.get?_foldl_insert_of_ne (f := fun e => d ++ e.1.drop s.length)
        fun e he heq => ?_
      have hmem : (s ++ r, e.2) ∈ t := hfrom e he heq ▸ (List.mem_filter.mp he).1
      rw [hs.entry?_of_mem hmem hbsr] at hget
      contradiction

/-- A directory is found at its new location with all that it held, and nothing is left of it at the
old one. -/
theorem Sound.entry?_move (hs : t.Sound) {s d : Location} (hbs : isBase s = false)
    (hbd : isBase d = false) (m : Location) :
    entry? (t.move s d) m =
      if d <+: m then t.entry? (s ++ m.drop d.length)
      else if s <+: m then none else t.entry? m := by
  have hrest : entry? ((t.prune d).prune s) m =
      if s <+: m then none else if d <+: m then none else t.entry? m := by
    rw [entry?_prune hbs, entry?_prune hbd]
  cases hbm : isBase m with
  | true =>
      have hdm : ¬ d <+: m := fun hp => by simp [isBase_of_isPrefix hp hbm] at hbd
      have hsm : ¬ s <+: m := fun hp => by simp [isBase_of_isPrefix hp hbm] at hbs
      rw [if_neg hdm, if_neg hsm, entry?_of_isBase hbm, entry?_of_isBase hbm]
  | false =>
      rw [entry?_of_not_isBase hbm] at hrest ⊢
      unfold Tree.move
      by_cases hdm : d <+: m
      · obtain ⟨r, rfl⟩ := hdm
        rw [hs.get?_foldl_move hbs, hrest, if_pos (List.prefix_append d r), List.drop_left,
          if_pos (List.prefix_append d r), ite_self, Option.or_none]
      · rw [if_neg hdm, Dictionary.get?_foldl_insert_of_ne
          (f := fun e => d ++ e.1.drop s.length)
          fun e _ heq => hdm ⟨_, heq⟩, hrest]
        simp only [hdm, if_false]

/-- A directory that is not moved into itself leaves a sound tree. -/
theorem Sound.move_directory (hs : t.Sound) {s d : Location} (hbs : isBase s = false)
    (hbd : isBase d = false) (hsd : ¬ s <+: d) (hp : t.entry? d.dropLast = some .directory) :
    (t.move s d).Sound := by
  have hne := ne_nil_of_not_isBase hbd
  have hnd : ¬ d <+: d.dropLast := fun h => by
    have := h.length_le
    have := List.length_pos_iff.mpr hne
    simp only [List.length_dropLast] at *
    omega
  refine ⟨?_, fun m hm => ?_⟩
  · have hfold : ∀ (es : List (Location × Entry)) (t : Tree), t.Ordered →
        (es.foldl (fun t e => t.insert (d ++ e.1.drop s.length) e.2) t).Ordered := by
      intro es
      induction es with
      | nil => exact fun t h => h
      | cons e es ih => exact fun t h => ih _ (h.insert _ _)
    exact hfold _ _ ((hs.prune hbd).prune hbs).ordered
  · rw [hs.entry?_move hbs hbd] at hm ⊢
    by_cases hdm : d <+: m
    · obtain ⟨r, rfl⟩ := hdm
      rw [if_pos (List.prefix_append d r), List.drop_left] at hm
      by_cases hr : r = []
      · -- The directory itself lies where it may.
        have hsp : ¬ s <+: d.dropLast := fun h => hsd (h.trans (List.dropLast_prefix d))
        rw [hr, List.append_nil, if_neg hnd, if_neg hsp, hp]
      · have hparent := hs.parent _ hm
        rw [List.dropLast_append_of_ne_nil hr] at hparent ⊢
        rw [if_pos (List.prefix_append d _), List.drop_left, hparent]
    · rw [if_neg hdm] at hm
      have hsm : ¬ s <+: m := fun h => by simp [h] at hm
      rw [if_neg hsm] at hm
      rw [if_neg fun h => hdm (h.trans (List.dropLast_prefix m)),
        if_neg fun h => hsm (h.trans (List.dropLast_prefix m)), hs.parent m hm]

theorem of_rename_directory_eq_ok {p q : Path} (he : t.entry? p.location = some .directory)
    (hok : t.rename p q = .ok t') :
    p.location = q.location ∧ t' = t ∨
      isBase p.location = false ∧ isBase q.location = false ∧ ¬ p.location <+: q.location ∧
        t.locate q = .ok q.location ∧ t' = t.move p.location q.location := by
  unfold rename at hok
  cases hlp : t.locate p with
  | error e => rw [hlp] at hok; contradiction
  | ok l =>
      obtain rfl := location_of_locate hlp
      cases hlq : t.locate q with
      | error e => rw [hlp, hlq] at hok; contradiction
      | ok m =>
          obtain rfl := location_of_locate hlq
          rw [hlp, hlq] at hok
          simp only [bind, Except.bind, he] at hok
          cases heq : t.entry? q.location with
          | none =>
              have hbq := not_isBase_of_entry? (t := t) (l := q.location) (by simp [heq])
              rw [heq] at hok
              grind
          | some e =>
              rw [heq] at hok
              cases e with
              | file c => contradiction
              | directory => grind

/-- A directory is renamed to where nothing is, unless that is inside of it. -/
theorem rename_directory {p q : Path} (hp : t.locate p = .ok p.location)
    (hq : t.locate q = .ok q.location) (hep : t.entry? p.location = some .directory)
    (heq : t.entry? q.location = none) (hb : isBase p.location = false)
    (hpq : ¬ p.location <+: q.location) :
    t.rename p q = .ok (t.move p.location q.location) := by
  unfold rename
  rw [hp, hq]
  simp only [bind, Except.bind, hep, heq, hb, hpq, Bool.false_eq_true, if_false]

end Tree

/-! ## Accesses below a location -/

namespace Disk

variable {h : Location} {base : Tree}

/-- A change keeps what holds of the tree if it does where it succeeds and where it is struck. -/
theorem maintains_change {P : Tree → Prop} {change : Tree → Except FileError Tree}
    {trace : Fault → Tree → Tree} (hok : ∀ t t', P t → change t = .ok t' → P t')
    (htrace : ∀ f t, P t → P (trace f t)) :
    Maintains (fun d => P d.tree) (access (fun t => (change t).map ((), ·)) trace) :=
  fun d hd => (after_change change trace).mono (fun _ _ h => hok _ _ hd h.2) fun _ _ h => by
    obtain ⟨-, ⟨-, ht⟩ | ⟨_, f, -, -, ht⟩⟩ := h
    · rw [ht]; exact hd
    · rw [ht]; exact htrace f _ hd

theorem maintains_makeDirsFrom (hb : isBase h = false) {l : Location} {pieces : List (List Char)}
    (hway : ∀ m ∈ way l pieces, h <+: m ∨ base.entry? m = some .directory) :
    Maintains (fun d => Tree.Confined h base d.tree) (makeDirsFrom l pieces) := by
  induction pieces generalizing l with
  | nil => exact maintains_pure _
  | cons piece rest ih =>
      intro d hd
      unfold makeDirsFrom
      refine after_bind ((after_access _ _).mono (fun m d₁ h₁ => ?_) fun _ d₁ h₁ => ?_)
      · obtain ⟨rfl, hc⟩ := hd.makeDir hb (hway _ List.mem_cons_self) h₁.2
        exact ih (fun m hm => hway m (List.mem_cons_of_mem _ hm)) d₁ hc
      · obtain ⟨-, ⟨-, ht⟩ | ⟨_, _, -, -, ht⟩⟩ := h₁ <;> exact ht ▸ hd

theorem maintains_makeDirs (hb : isBase h = false) {p : Path}
    (hway : ∀ m ∈ p.way, h <+: m ∨ base.entry? m = some .directory) :
    Maintains (fun d => Tree.Confined h base d.tree) (makeDirs p) := by
  unfold makeDirs
  split
  · exact maintains_throw _
  · split
    · exact maintains_pure _
    · exact maintains_makeDirsFrom hb hway

theorem maintains_write (hb : isBase h = false) {p : Path} (hp : h <+: p.location)
    (hne : p.location ≠ h) (c : Content) :
    Maintains (fun d => Tree.Confined h base d.tree) (write p c) := by
  refine maintains_change (fun _ _ ht hok => ht.write hb hp hne hok) fun f t ht => ?_
  split
  · split
    · next hok => exact ht.write hb hp hne hok
    · exact ht
  · exact ht

theorem maintains_removeTree {p : Path} (hb : isBase p.location = false) :
    Maintains (fun d => Tree.Confined p.location base d.tree) (removeTree p) := by
  refine maintains_change (fun _ _ ht hok => ?_) fun f t ht => ?_
  · obtain ⟨-, -, -, rfl⟩ := Tree.of_removeTree_eq_ok hok
    exact ht.prune hb
  · split
    · next hl =>
      obtain rfl := Tree.location_of_locate hl
      exact ht.thin hb _
    · exact ht

/-- A removal leaves what is elsewhere, however it ends. -/
theorem leaves_removeTree_elsewhere (p : Path) (d : Disk) :
    Leaves (removeTree p) d fun d' =>
      ∀ l, ¬ p.location <+: l → d'.tree.entry? l = d.tree.entry? l := by
  refine (after_change _ _).mono (fun _ d' h l hl => ?_) fun _ d' h l hl => ?_
  · obtain ⟨-, -, hb, ht⟩ := Tree.of_removeTree_eq_ok h.2
    rw [ht, Tree.entry?_prune hb, if_neg hl]
  · obtain ⟨-, ⟨-, ht⟩ | ⟨_, f, -, -, ht⟩⟩ := h
    · rw [ht]
    · rw [ht]
      split
      · next hok hlocate =>
        obtain rfl := Tree.location_of_locate hlocate
        exact Tree.entry?_thin (Tree.of_removeTree_eq_ok hok).2.2.1 hl _
      · rfl

end Disk

end DeviceBridge.Files
