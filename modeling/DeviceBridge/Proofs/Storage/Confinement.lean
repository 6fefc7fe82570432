import DeviceBridge.Proofs.Files.Steps
import DeviceBridge.Proofs.Storage.Retention

/-!
# DeviceBridge.Proofs.Storage.Confinement

What a name can do. Two names stand for a document two steps beyond the root, in the directory of
the namespace (`Context.LaidOut`), and for no other one, whatever dots they hold
(`Context.confined_apart`). So whatever is asked of the storage, nothing changes outside of the
namespaces that are asked for, but that directories are made on the way to them
(`StorageRequest.leaves_performAll`).
-/

namespace DeviceBridge

open Json (Value Object)
open Files

/-! ## What two names stand for -/

namespace Context

/-- The document that the names of a namespace and a context stand for below a root. -/
def parse (root : Path) (space name : String) : Except StorageError Context := do
  (← Namespace.parse root space).context name

variable {root : Path} {space name : String} {c : Context}

theorem parse_eq_ok_iff :
    parse root space name = .ok c ↔
      c.space.root = root ∧ c.space.name.text = space ∧ c.name.text = name := by
  constructor
  · intro h
    unfold parse at h
    cases hn : Namespace.parse root space with
    | error e => rw [hn] at h; contradiction
    | ok n =>
        rw [hn] at h
        obtain ⟨rfl, hname⟩ := Namespace.of_context_eq_ok h
        exact ⟨(Namespace.of_parse_eq_ok hn).1, (Namespace.of_parse_eq_ok hn).2, hname⟩
  · rintro ⟨rfl, rfl, rfl⟩
    unfold parse
    rw [Namespace.parse_text]
    exact Namespace.context_text _ _

/-- Names are accepted one by one. -/
theorem exists_parse_iff :
    (∃ c, parse root space name = .ok c) ↔
      isStorageName space.toList = true ∧ isStorageName name.toList = true := by
  constructor
  · rintro ⟨c, hc⟩
    obtain ⟨-, rfl, rfl⟩ := parse_eq_ok_iff.mp hc
    exact ⟨c.space.name.valid, c.name.valid⟩
  · rintro ⟨hspace, hname⟩
    exact ⟨⟨⟨root, ⟨space, hspace⟩⟩, ⟨name, hname⟩⟩, parse_eq_ok_iff.mpr ⟨rfl, rfl, rfl⟩⟩

/-- Where the document lies that two names stand for, and its draft: the names are two steps beyond
the root, as texts and as places, also by the rule for texts that are no names. -/
structure LaidOut (c : Context) (root : Path) (space name : String) : Prop where
  dir : c.space.dir = root.resolve space
  path : c.path = c.space.dir.resolve (name ++ ".json")
  draft : c.draft.text = c.path.text ++ ".tmp"
  dir_steps : c.space.dir.steps = ⟨root.steps.absolute, root.steps.pieces ++ [space.toList]⟩
  path_steps : c.path.steps =
    ⟨root.steps.absolute, root.steps.pieces ++ [space.toList, (name ++ ".json").toList]⟩
  fileName : c.path.fileName? = some (name ++ ".json").toList
  path_parent : c.path.parent? = some c.space.dir
  draft_parent : c.draft.parent? = some c.space.dir
  home : c.space.home = root.location ++ [space]
  path_place : c.path.location = c.space.home ++ [name ++ ".json"]
  draft_place : c.draft.location = c.space.home ++ [name ++ ".json" ++ ".tmp"]

theorem fileName?_path (c : Context) : c.path.fileName? = some (c.name.text ++ ".json").toList := by
  have hpieces : c.path.pieces = c.space.dir.pieces ++ [(c.name.text ++ ".json").toList] :=
    Path.pieces_join c.space.endsInName_dir c.isFileName.slashless
  rw [Path.fileName?_of_pieces hpieces c.isFileName.notIdle, if_neg c.isFileName.notAbove]

theorem steps_path (c : Context) :
    c.path.steps = ⟨c.space.root.steps.absolute, c.space.root.steps.pieces ++
      [c.space.name.text.toList, (c.name.text ++ ".json").toList]⟩ := by
  unfold path Namespace.dir
  rw [Path.steps_join _ c.isFileName, Path.steps_join _ c.space.name.isFileName, List.append_assoc]
  rfl

theorem laidOut_of_parse (h : parse root space name = .ok c) : c.LaidOut root space name := by
  obtain ⟨rfl, rfl, rfl⟩ := parse_eq_ok_iff.mp h
  have hspace := c.space.name.isFileName
  exact {
    dir := (Path.resolve_eq_join _ hspace).symm
    path := (Path.resolve_eq_join _ c.isFileName).symm
    draft := c.draft_text
    dir_steps := Path.steps_join _ hspace
    path_steps := c.steps_path
    fileName := c.fileName?_path
    path_parent := Path.parent?_join _ hspace c.isFileName
    draft_parent := c.draft_eq ▸ Path.parent?_join _ hspace c.draft_isFileName
    home := c.space.home_eq
    path_place := c.path_location
    draft_place := c.draft_location }

end Context

/-! ## What requests change -/

/-- From one tree to another nothing changes outside of some namespaces, but that directories are
made on the way to them. -/
def ChangesWithin (spaces : List Namespace) (t t' : Tree) : Prop :=
  ∀ l, (∀ n ∈ spaces, ¬ n.home <+: l) →
    t'.entry? l = t.entry? l ∨
      (∃ n ∈ spaces, l ∈ n.dir.way) ∧ t.entry? l = none ∧ t'.entry? l = some .directory

namespace ChangesWithin

variable {spaces spaces' : List Namespace} {n : Namespace} {t t' t'' : Tree}

theorem refl (spaces : List Namespace) (t : Tree) : ChangesWithin spaces t t := fun _ _ => .inl rfl

theorem mono (h : ChangesWithin spaces t t') (hsub : spaces ⊆ spaces') :
    ChangesWithin spaces' t t' := by
  intro l hl
  refine (h l fun n hn => hl n (hsub hn)).imp_right fun ⟨⟨n, hn, hway⟩, hmade⟩ => ?_
  exact ⟨⟨n, hsub hn, hway⟩, hmade⟩

theorem trans (h : ChangesWithin spaces t t') (h' : ChangesWithin spaces t' t'') :
    ChangesWithin spaces t t'' := by
  intro l hl
  obtain heq | ⟨hway, hnone, hdir⟩ := h l hl
  · rw [← heq]
    exact h' l hl
  · obtain heq' | ⟨-, hnone', -⟩ := h' l hl
    · exact .inr ⟨hway, hnone, heq'.trans hdir⟩
    · rw [hdir] at hnone'
      contradiction

/-- Directories on the way to a namespace have been made. -/
theorem of_paved {ms : List Location} (h : t.Paved ms t') (hms : ms ⊆ n.dir.way) :
    ChangesWithin [n] t t' := by
  intro l _
  rw [h.place]
  split
  · next hl =>
    cases he : t.entry? l with
    | none => exact .inr ⟨⟨n, List.mem_cons_self, hms hl⟩, rfl, rfl⟩
    | some e =>
        cases e with
        | directory => exact .inl rfl
        | file x => exact absurd he (h.clear l hl x)
  · exact .inl rfl

/-- A namespace has changed. -/
theorem of_elsewhere (h : ∀ l, ¬ n.home <+: l → t'.entry? l = t.entry? l) :
    ChangesWithin [n] t t' :=
  fun l hl => .inl (h l (hl n List.mem_cons_self))

end ChangesWithin

theorem Context.leaves_save_within {d : Disk} (hs : d.tree.Sound) (c : Context) (entries : Object) :
    Leaves (c.save entries) d fun d' =>
      d'.tree.Sound ∧ ChangesWithin [c.space] d.tree d'.tree := by
  refine after_ofDisk (after_bind ((Disk.after_makeDirs_way hs
    c.space.dir_text_ne_empty).mono (fun _ d₁ h₁ => ?_) fun _ d₁ h₁ => ?_))
  · have hmade := ChangesWithin.of_paved h₁ (List.Subset.refl _)
    have hdir : d₁.tree.entry? c.space.home = some .directory :=
      (h₁.place _).trans (if_pos c.space.dir.location_mem_way)
    have hwithin {d' : Disk}
        (h : Tree.Confined c.space.home (d₁.tree.prune c.space.home) d'.tree) :
        d'.tree.Sound ∧ ChangesWithin [c.space] d.tree d'.tree := by
      refine ⟨h.sound, hmade.trans (.of_elsewhere fun l hl => ?_)⟩
      rw [h.entry?_eq c.space.home_isBase hl, Tree.entry?_prune c.space.home_isBase, if_neg hl]
    have hconfined := h₁.sound.confined (h := c.space.home) (by simp [hdir])
    exact (c.maintains_replace _ _ d₁ hconfined).mono (fun _ _ => hwithin) fun _ _ => hwithin
  · obtain ⟨ms, hms, hpaved⟩ := h₁
    exact ⟨hpaved.sound, .of_paved hpaved hms⟩

/-- Erasing a namespace changes nothing else, also if it is broken off. -/
theorem Namespace.leaves_erase_elsewhere (n : Namespace) (d : Disk) :
    Leaves n.erase d fun d' => ∀ l, ¬ n.home <+: l → d'.tree.entry? l = d.tree.entry? l := by
  refine Context.after_ofDisk (after_bind ((Disk.after_ifPresent
    (Disk.leaves_removeTree_elsewhere n.dir d)).mono (fun r d' h => after_pure ?_) fun _ _ h => h))
  cases r <;> exact h

namespace StorageRequest

/-- The namespace that is asked for. -/
def space : StorageRequest → Namespace
  | set c _ _ | delete c _ | get c _ | has c _ | keys c => c.space
  | erase n => n

variable {d : Disk}

/-- A request changes nothing outside of the namespace that is asked for. -/
theorem leaves_perform (hs : d.tree.Sound) (r : StorageRequest) :
    Leaves r.perform d fun d' => d'.tree.Sound ∧ ChangesWithin [r.space] d.tree d'.tree := by
  have hrequest (c : Context) (q : ContextRequest) : Leaves (q.of c).perform d fun d' =>
      d'.tree.Sound ∧ ChangesWithin [c.space] d.tree d'.tree := by
    refine Context.after_request c q (fun entries new d₁ _ _ ht => ?_) (fun _ d' _ _ ht => ?_)
      fun d' ht => ?_
    · rw [← ht] at hs ⊢
      exact c.leaves_save_within hs new
    all_goals
      rw [ht]
      exact ⟨hs, .refl _ _⟩
  cases r with
  | set c key v => exact hrequest c (.set key v)
  | delete c key => exact hrequest c (.delete key)
  | get c key => exact hrequest c (.get key)
  | has c key => exact hrequest c (.has key)
  | keys c => exact hrequest c .keys
  | erase n =>
      have herase := (n.leaves_erase_sound hs).and (n.leaves_erase_elsewhere d)
      exact after_bind (herase.mono (fun _ _ h => after_pure ⟨h.1, .of_elsewhere h.2⟩)
        fun _ _ h => ⟨h.1, .of_elsewhere h.2⟩)

/-- Requests, one after the other, change nothing outside of the namespaces that are asked for, also
if one of them fails. -/
theorem leaves_performAll (hs : d.tree.Sound) (requests : List StorageRequest) :
    Leaves (requests.mapM perform) d fun d' =>
      d'.tree.Sound ∧ ChangesWithin (requests.map space) d.tree d'.tree := by
  induction requests generalizing d with
  | nil => exact after_pure ⟨hs, .refl _ _⟩
  | cons r requests ih =>
      have hfirst : [r.space] ⊆ (r :: requests).map space := by simp
      have hrest : requests.map space ⊆ (r :: requests).map space := by simp
      rw [List.mapM_cons]
      refine after_bind ((leaves_perform hs r).mono (fun _ d₁ h₁ => ?_)
        fun _ _ h => ⟨h.1, h.2.mono hfirst⟩)
      have hboth {d' : Disk}
          (h : d'.tree.Sound ∧ ChangesWithin (requests.map space) d₁.tree d'.tree) :
          d'.tree.Sound ∧ ChangesWithin ((r :: requests).map space) d.tree d'.tree :=
        ⟨h.1, (h₁.2.mono hfirst).trans (h.2.mono hrest)⟩
      exact after_bind ((ih h₁.1).mono (fun _ _ h => after_pure (hboth h)) fun _ _ => hboth)

end StorageRequest

namespace Context

/-- Names stand for documents two steps beyond the root, and different names for documents and
drafts that lie apart; no draft lies where a document does. What is asked of the storage stays
within the namespaces that are asked for, and an erased namespace is all that is gone. -/
theorem confined_apart (root : Path) :
    (∀ space name : String, (∃ c, parse root space name = .ok c) ↔
      isStorageName space.toList = true ∧ isStorageName name.toList = true) ∧
    (∀ (space name : String) (c : Context), parse root space name = .ok c →
      c.LaidOut root space name) ∧
    (∀ (space name space' name' : String) (c c' : Context), parse root space name = .ok c →
      parse root space' name' = .ok c' →
      (c.path.Meets c'.path → space = space' ∧ name = name') ∧
      (c.draft.Meets c'.draft → space = space' ∧ name = name')) ∧
    (∀ c c' : Context, ¬ c.draft.Meets c'.path) ∧
    (∀ (n : Namespace) (d : Disk), Leaves n.erase d fun d' =>
      ∀ l, ¬ n.home <+: l → d'.tree.entry? l = d.tree.entry? l) ∧
    ∀ (requests : List StorageRequest) (d : Disk), d.tree.Sound →
      Leaves (requests.mapM StorageRequest.perform) d fun d' =>
        ChangesWithin (requests.map (·.space)) d.tree d'.tree := by
  refine ⟨fun _ _ => exists_parse_iff, fun _ _ _ => laidOut_of_parse,
    fun space name space' name' c c' hc hc' => ?_,
    fun c c' h => path_ne_draft c' c (Path.meets_iff.mp h).symm, Namespace.leaves_erase_elsewhere,
    fun requests d hs => ?_⟩
  · obtain ⟨hroot, hspace, hname⟩ := parse_eq_ok_iff.mp hc
    obtain ⟨hroot', hspace', hname'⟩ := parse_eq_ok_iff.mp hc'
    have hsame (heq : c = c') : space = space' ∧ name = name' := by
      subst heq
      exact ⟨hspace.symm.trans hspace', hname.symm.trans hname'⟩
    have hboth := hroot.trans hroot'.symm
    exact ⟨fun h => hsame (eq_of_path_eq hboth (Path.meets_iff.mp h)),
      fun h => hsame (eq_of_draft_eq hboth (Path.meets_iff.mp h))⟩
  · exact (StorageRequest.leaves_performAll hs requests).mono (fun _ _ h => h.2) fun _ _ h => h.2

/-- A namespace whose name is all dots, with a context and another one that is named like the draft
of the first. -/
theorem confined_apart_of_dots :
    let c := Storable.contextAt "s/.." ⟨"...", by decide⟩ ⟨"x", by decide⟩
    let c' := Storable.contextAt "s/.." ⟨"...", by decide⟩ ⟨"x.json.tmp", by decide⟩
    (isStorageName "...".toList = true ∧ isStorageName "x.json.tmp".toList = true ∧
      parse ⟨"s/.."⟩ "..." "x" = .ok c ∧ parse ⟨"s/.."⟩ "..." "x.json.tmp" = .ok c') ∧
    c.LaidOut ⟨"s/.."⟩ "..." "x" ∧ c.draft.text = "s/../.../x.json.tmp" ∧
    c'.path.text = "s/../.../x.json.tmp.json" ∧ ¬ c.path.Meets c'.path ∧
    ¬ c.draft.Meets c'.draft ∧ ¬ c.draft.Meets c'.path ∧
    Leaves ([.set c "k" .null, .erase c'.space].mapM StorageRequest.perform) ({} : Disk) fun d' =>
      ChangesWithin [c.space, c'.space] [] d'.tree := by
  intro c c'
  have hc : parse ⟨"s/.."⟩ "..." "x" = .ok c := parse_eq_ok_iff.mpr ⟨rfl, rfl, rfl⟩
  have hc' : parse ⟨"s/.."⟩ "..." "x.json.tmp" = .ok c' := parse_eq_ok_iff.mpr ⟨rfl, rfl, rfl⟩
  obtain ⟨haccepted, hlaidOut, hapart, hdraft, -, hrun⟩ := confined_apart ⟨"s/.."⟩
  obtain ⟨hspace, hname⟩ := (haccepted "..." "x.json.tmp").mp ⟨c', hc'⟩
  obtain ⟨hpaths, hdrafts⟩ := hapart _ _ _ _ c c' hc hc'
  exact ⟨⟨hspace, hname, hc, hc'⟩, hlaidOut _ _ c hc, by decide, by decide,
    fun h => absurd (hpaths h).2 (by decide), fun h => absurd (hdrafts h).2 (by decide),
    hdraft c c',
    hrun _ _ Tree.sound_nil⟩

end Context

end DeviceBridge
