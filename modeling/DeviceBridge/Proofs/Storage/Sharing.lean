import DeviceBridge.Controller.Node
import DeviceBridge.Proofs.Files.Naming
import DeviceBridge.Proofs.Storage.Retention

/-!
# DeviceBridge.Proofs.Storage.Sharing

Which locations share a namespace. The namespace for a location is named like it, without the
extension, whichever that is (`Legacy.route_of_split`), so locations that differ in no more than an
extension have one namespace, and their documents are the same (`Context.path_eq_path_iff`). The
documents of others are left alone by requests (`Context.untouched_of_perform`), and by a conversion
unless they lie where it works (`Context.untouched_of_convert`).
-/

namespace DeviceBridge

open Files

namespace Legacy

variable {location root : Path} {id : String}

/-- The route to a location is that to its directory with the name at its end, and the namespace has
that name without its extension. -/
theorem route_of_split (h : split location = .ok (root, id)) :
    ∃ name, location.fileName? = some name ∧ id.toList = Path.dropExtension name ∧
      root.text ≠ "" ∧ location.route = ⟨root.route.absolute, root.route.pieces ++ [name]⟩ := by
  unfold split at h
  cases hstem : location.stem? with
  | none => rw [hstem] at h; contradiction
  | some stem =>
      unfold Path.stem? at hstem
      obtain ⟨name, hname, rfl⟩ := Option.map_eq_some_iff.mp hstem
      obtain ⟨dir, hparent, hdir⟩ := Path.route_of_fileName? hname
      rw [Path.stem?, hname, hparent] at h
      refine ⟨name, hname, ?_⟩
      obtain ⟨htext, hroute⟩ | ⟨htext, hroute⟩ := hdir
      · simp only [Option.map_some, htext, if_true] at h
        obtain ⟨rfl, rfl⟩ := Prod.mk.inj (Except.ok.inj h)
        exact ⟨String.toList_ofList, by decide, hroute⟩
      · simp only [Option.map_some, htext, if_false] at h
        obtain ⟨rfl, rfl⟩ := Prod.mk.inj (Except.ok.inj h)
        exact ⟨String.toList_ofList, htext, hroute⟩

theorem bare_of_split (h : split location = .ok (root, id)) :
    location.bare = ⟨root.route.absolute, root.route.pieces ++ [id.toList]⟩ := by
  obtain ⟨name, -, hid, -, hroute⟩ := route_of_split h
  unfold Path.bare
  simp [hroute, hid]

/-- The route to the directory of a location and on to the namespace is that to the location itself,
or to the location without `.json`, exactly if the name at the end of the location has no extension
but `.json`. -/
theorem route_join_iff (h : split location = .ok (root, id)) :
    (root.join id).route = location.route ∨ (root.join id).route = location.lessJson ↔
      location.fileName? = some id.toList ∨
        location.fileName? = some (id.toList ++ ".json".toList) := by
  obtain ⟨name, hname, hid, htext, hroute⟩ := route_of_split h
  have hmem : name ∈ location.route.pieces := by simp [hroute]
  obtain ⟨hpiece, hstep⟩ := List.mem_filter.mp hmem
  have hslash : '/' ∉ id.toList := fun hc =>
    not_mem_of_mem_splitSlashes hpiece (mem_of_mem_dropExtension (hid ▸ hc))
  have hless : location.lessJson =
      ⟨root.route.absolute, root.route.pieces ++ [Path.dropJson name].filter isStep⟩ := by
    have hroot : root.route.pieces.filter isStep = root.route.pieces := by simp [Path.route]
    unfold Path.lessJson
    simp [hroute, hroot]
  have hone : ([name].filter isStep) = [name] := by simp [hstep]
  have heq {piece : List Char} (h : [piece].filter isStep = [name]) : name = piece := by
    have := List.mem_filter.mp (h ▸ List.mem_cons_self : name ∈ [piece].filter isStep)
    simpa using this.1
  rw [Path.route_join htext hslash, hless, hroute, hname, hid]
  simp only [Steps.mk.injEq, true_and, List.append_cancel_left_eq, Option.some.injEq]
  constructor
  · rintro (hsame | hjson)
    · exact .inl (heq hsame)
    · obtain hkept | hextension := Path.of_dropJson name
      · rw [hkept, hone] at hjson
        exact .inl (heq hjson)
      · exact hextension
  · rintro (hsame | hjson)
    · exact .inl (by rw [← hsame, hone])
    · have hdrop := congrArg Path.dropJson hjson
      rw [Path.dropJson_append] at hdrop
      exact .inr (by rw [hdrop])

/-- The directory of a straight location is straight. -/
theorem straight_of_split (h : split location = .ok (root, id)) (hl : location.Straight) :
    root.Straight := by
  obtain ⟨name, -, -, -, hroute⟩ := route_of_split h
  have hstart : Tree.start location = Tree.start root := by
    have habsolute : Tree.isAbsolute location = Tree.isAbsolute root :=
      congrArg Steps.absolute hroute
    unfold Tree.start
    rw [habsolute]
  have honward : Onward (Tree.start root) location.route.pieces :=
    hstart ▸ Path.onward_filter_iff.mpr hl
  rw [hroute] at honward
  exact Path.onward_filter_iff.mp (onward_append.mp honward).1

/-- Where a namespace for a straight location lies. -/
theorem home_of_split {n : Namespace} (h : split location = .ok (n.root, n.name.text))
    (hl : location.Straight) : n.home = location.bare.location := by
  have hroot := Path.location_of_straight (straight_of_split h hl)
  rw [n.home_eq, hroot, bare_of_split h]
  simp [Steps.location, Steps.start]

theorem slashless_bare {n : Namespace} (h : split location = .ok (n.root, n.name.text)) :
    ∀ piece ∈ location.bare.pieces, '/' ∉ piece := by
  rw [bare_of_split h]
  intro piece hp
  obtain hp | hp := List.mem_append.mp hp
  · exact not_mem_of_mem_splitSlashes (List.mem_filter.mp hp).1
  · exact List.mem_singleton.mp hp ▸ n.name.isFileName.slashless

/-- A conversion that succeeds tells the directory and the name of the namespace as they are split
off. -/
theorem after_convert_split (location : Path) (d : Disk) :
    After (convert location) d (fun r _ => split location = .ok (r.outputDir, r.id))
      (fun _ _ => True) := by
  unfold convert
  cases hsplit : split location with
  | error e => exact after_bind (after_throw trivial)
  | ok r =>
      refine after_bind (after_pure (after_bind (.intro (fun k? d₁ _ => ?_) fun _ _ _ => trivial)))
      cases k? with
      | none => exact after_pure rfl
      | some k =>
          cases k with
          | directory => exact after_pure rfl
          | file =>
              refine after_bind (.intro (fun b d₂ _ => ?_) fun _ _ _ => trivial)
              cases b with
              | true => exact after_pure rfl
              | false =>
                  exact after_bind (.intro (fun _ _ _ => after_pure rfl) fun _ _ _ => trivial)

/-- Where no file is, nothing is converted. -/
theorem tree_of_convert {d : Disk} (hs : d.tree.Sound) (h : d.tree.stat location ≠ .ok .file) :
    Leaves (convert location) d fun d' => d'.tree = d.tree := by
  have hpending {id : String} {staging : Namespace} {contexts : Json.Object} :
      ¬ Pending location id staging contexts d.tree := fun hp =>
    h (Tree.stat_of_file hp.file.1 hp.file.2.choose_spec)
  refine (after_convert_told hs location).mono (fun r d' ht => ht.kept ?_) fun _ d' hb => ?_
  · refine Bool.eq_false_iff.mpr fun hr => ?_
    obtain ⟨_, _, hp, -⟩ := ht.made hr
    exact hpending hp
  · exact hb.resolve_right fun ⟨_, _, _, hp, _⟩ => hpending hp

end Legacy

open Legacy

namespace Context

variable {c c' : Context} {location location' : Path}

/-- Documents of two straight locations are the same exactly if the locations differ in no more than
an extension and the documents have one name. -/
theorem path_eq_path_iff (hc : c.BelongsTo location) (hc' : c'.BelongsTo location')
    (hl : location.Straight) (hl' : location'.Straight) :
    c.path.location = c'.path.location ↔ location.bare = location'.bare ∧ c.name = c'.name := by
  rw [path_location, path_location, home_of_split hc hl, home_of_split hc' hl']
  constructor
  · intro h
    obtain ⟨hhome, hfile⟩ := List.append_inj' h rfl
    exact ⟨Steps.location_inj (slashless_bare hc) (slashless_bare hc') hhome,
      StorageName.ext (append_json_inj (List.singleton_inj.mp hfile))⟩
  · rintro ⟨hbare, hname⟩
    rw [hbare, hname]

/-- What is asked of the storage for one document leaves another one alone. -/
theorem untouched_of_perform (hne : c.path.location ≠ c'.path.location) {d : Disk}
    (hs : d.tree.Sound) (q : ContextRequest) :
    Leaves (q.of c).perform d fun d' => c'.Untouched d.tree d'.tree := by
  have hpath : c'.path.location ∉ [c.path.location, c.draft.location] := by
    simp [hne.symm, path_ne_draft]
  exact (after_perform hs c q).mono (fun _ _ h => untouched_of_spares h.2.1 hpath)
    fun _ _ h => untouched_of_spares h.2.1 hpath

/-- A document of a straight location has a straight path. -/
theorem straight_path (hc : c.BelongsTo location) (hl : location.Straight) (hp : c.path.Passable) :
    c.path.Straight := by
  obtain ⟨init, hdir, hroot⟩ :=
    Path.exists_steps_join c.space.root c.space.name.isFileName.slashless
  have hpieces : c.path.pieces =
      (init ++ [c.space.name.text.toList]) ++ [(c.name.text ++ ".json").toList] :=
    hdir ▸ Path.pieces_join c.space.endsInName_dir c.isFileName.slashless
  have hstart : Tree.start c.path = Tree.start c.space.root :=
    (Path.start_join _ c.isFileName.slashless).trans
      (Path.start_join _ c.space.name.isFileName.slashless)
  have honward {name : List Char} (hname : IsFileName name) (hmem : name ∈ c.path.pieces)
      (l : Location) : Onward l [name] :=
    ⟨hp.fits _ hmem, fun h => absurd h hname.notAbove, trivial⟩
  have hinit : Onward (Tree.start c.space.root) init :=
    Path.onward_filter_iff.mp (hroot ▸ Path.onward_filter_iff.mpr (straight_of_split hc hl))
  unfold Path.Straight
  rw [hpieces, hstart, onward_append, onward_append]
  exact ⟨⟨hinit, honward c.space.name.isFileName (by simp [hpieces]) _⟩,
    honward c.isFileName (by simp [hpieces]) _⟩

/-- A conversion leaves the documents for straight locations alone that lie neither in the namespace
that it makes nor in its staging directory. -/
theorem untouched_of_convert {root : Path} {id : String} (hsplit : split location = .ok (root, id))
    (hc' : c'.BelongsTo location') (hl' : location'.Straight)
    (htarget : ¬ root.location ++ [id] <+: c'.path.location)
    (hstaging : ¬ root.location ++ [stagingName id] <+: c'.path.location) {d : Disk}
    (hs : d.tree.Sound) :
    Leaves (convert location) d fun d' => c'.Untouched d.tree d'.tree := by
  have huntouched {d' : Disk} (h : ∀ l, ¬ root.location ++ [id] <+: l →
      ¬ root.location ++ [stagingName id] <+: l → d'.tree.entry? l = d.tree.entry? l) :
      c'.Untouched d.tree d'.tree := by
    refine ⟨?_, fun s hread => ?_⟩
    · unfold text?
      rw [h _ htarget hstaging]
    have hp := Tree.passable_of_locate (Tree.read_eq_ok_iff.mp hread).1
    rw [Tree.read_congr fun m hm => ?_, hread]
    have hm := (straight_path hc' hl' hp).isPrefix_of_mem_way hm
    exact h m (fun h => htarget (h.trans hm)) fun h => hstaging (h.trans hm)
  exact (after_convert_elsewhere hs hsplit).mono (fun _ _ => huntouched) fun _ _ => huntouched

end Context

namespace Legacy

/-- The namespace for a location lies in the directory of the location and is named like it, without
the extension. So it is told to lie at the location itself, or at the location without `.json`,
exactly if the location has no extension but `.json`, and two locations have one namespace exactly
if they differ in no more than an extension. For straight locations their documents are the same
then; what is asked of one document leaves all others alone. A conversion leaves the documents for
straight locations alone as well, unless they lie in the namespace that it makes or in its staging
directory; where no file is, it leaves everything as it was. What is reached from another directory
is left out, as it depends on the working directory whether that is another place. -/
theorem namespace_of_location (location location' : Path) (d : Disk) :
    (∀ r d', convert location d = .ok r d' →
      location.bare =
        ⟨r.outputDir.route.absolute, r.outputDir.route.pieces ++ [r.id.toList]⟩ ∧
      ((r.outputDir.join r.id).route = location.route ∨
          (r.outputDir.join r.id).route = location.lessJson ↔
        location.fileName? = some r.id.toList ∨
          location.fileName? = some (r.id.toList ++ ".json".toList))) ∧
    (∀ e r r' d' e', convert location d = .ok r d' → convert location' e = .ok r' e' →
      (r.outputDir.route = r'.outputDir.route ∧ r.id = r'.id ↔ location.bare = location'.bare)) ∧
    (∀ c c' : Context, c.BelongsTo location → c'.BelongsTo location' →
      origin c.space.home = origin c'.space.home →
      (location.Straight → location'.Straight →
        (c.path.location = c'.path.location ↔
          location.bare = location'.bare ∧ c.name = c'.name)) ∧
      (c.path.location ≠ c'.path.location → d.tree.Sound → ∀ q : ContextRequest,
        Leaves (q.of c).perform d fun d' => c'.Untouched d.tree d'.tree)) ∧
    (d.tree.Sound → d.tree.stat location ≠ .ok .file →
      Leaves (convert location) d fun d' => d'.tree = d.tree) ∧
    (∀ (root : Path) (id : String) (c' : Context), split location = .ok (root, id) →
      location'.Straight → c'.BelongsTo location' →
      origin root.location = origin c'.space.home →
      ¬ root.location ++ [id] <+: c'.path.location →
      ¬ root.location ++ [stagingName id] <+: c'.path.location → d.tree.Sound →
      Leaves (convert location) d fun d' => c'.Untouched d.tree d'.tree) := by
  refine ⟨fun r d' hx => ?_, fun e r r' d' e' hx hx' => ?_, fun c c' hc hc' _ => ?_,
    tree_of_convert, fun _ _ _ hsplit hl' hc' _ htarget hstaging =>
      Context.untouched_of_convert hsplit hc' hl' htarget hstaging⟩
  · have hsplit := (after_convert_split location d).of_ok hx
    exact ⟨bare_of_split hsplit, route_join_iff hsplit⟩
  · have hbare := bare_of_split ((after_convert_split location d).of_ok hx)
    have hbare' := bare_of_split ((after_convert_split location' e).of_ok hx')
    constructor
    · rintro ⟨hdir, hid⟩
      rw [hbare, hbare', hdir, hid]
    · intro h
      rw [hbare, hbare', Steps.mk.injEq] at h
      obtain ⟨hdir, hid⟩ := List.append_inj' h.2 rfl
      exact ⟨Steps.ext h.1 hdir, String.toList_inj.mp (List.singleton_inj.mp hid)⟩
  · exact ⟨Context.path_eq_path_iff hc hc', fun hne hs q => Context.untouched_of_perform hne hs q⟩

/-- The document `Node` of a namespace in a directory. -/
def nodeOf (dir name : String) (h : isStorageName name.toList = true) : Context where
  space := ⟨⟨dir⟩, ⟨name, h⟩⟩
  name := ControllerNode.storeName

/-- Two locations that end in different version numbers have one namespace, which is none of them;
what is set for a third leaves it alone. -/
theorem namespace_of_versions :
    (∃ r r' d' d'', convert ⟨"/v/a.v1"⟩ {} = .ok r d' ∧ convert ⟨"/v/a.v2"⟩ {} = .ok r' d'' ∧
      (r.outputDir.route = r'.outputDir.route ∧ r.id = r'.id) ∧
      ¬ ((r.outputDir.join r.id).route = Path.route ⟨"/v/a.v1"⟩ ∨
        (r.outputDir.join r.id).route = Path.lessJson ⟨"/v/a.v1"⟩)) ∧
    (nodeOf "/v" "b" (by decide)).BelongsTo ⟨"/v/b"⟩ ∧
    (nodeOf "/v" "a" (by decide)).BelongsTo ⟨"/v/a.v1"⟩ ∧
    Leaves ((ContextRequest.set "k" .null).of (nodeOf "/v" "b" (by decide))).perform ({} : Disk)
      fun d' => (nodeOf "/v" "a" (by decide)).Untouched [] d'.tree := by
  have hb : (nodeOf "/v" "b" (by decide)).BelongsTo ⟨"/v/b"⟩ :=
    eq_ok_of_toOption (by decide)
  have ha : (nodeOf "/v" "a" (by decide)).BelongsTo ⟨"/v/a.v1"⟩ :=
    eq_ok_of_toOption (by decide)
  have hconvert (location : Path) (h : (outcome (convert location) {}).toOption.map
      (·.id.toList) = some ['a']) :
      ∃ r d', convert location {} = .ok r d' ∧ r.id.toList = ['a'] := by
    obtain ⟨r, hr, hid⟩ := exists_eq_ok_of_outcome h
    exact ⟨r, _, hr, hid⟩
  obtain ⟨r, d', hr, hid⟩ := hconvert ⟨"/v/a.v1"⟩ (by decide)
  obtain ⟨r', d'', hr', -⟩ := hconvert ⟨"/v/a.v2"⟩ (by decide)
  refine ⟨⟨r, r', d', d'', hr, hr', ?_, ?_⟩, hb, ha, ?_⟩
  · exact ((namespace_of_location ⟨"/v/a.v1"⟩ ⟨"/v/a.v2"⟩ {}).2.1 _ _ _ _ _ hr hr').mpr
      (by decide)
  · rw [((namespace_of_location ⟨"/v/a.v1"⟩ ⟨"/v/a.v2"⟩ {}).1 _ _ hr).2, hid]
    decide
  · obtain ⟨hsame, hother⟩ :=
      (namespace_of_location ⟨"/v/b"⟩ ⟨"/v/a.v1"⟩ {}).2.2.1 _ _ hb ha (by decide)
    refine hother (fun heq => ?_) Tree.sound_nil _
    exact absurd ((hsame (by decide) (by decide)).mp heq).1 (by decide)

end Legacy

end DeviceBridge
