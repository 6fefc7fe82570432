import DeviceBridge.Proofs.Json.Lasting
import DeviceBridge.Proofs.Storage.Refinement
import DeviceBridge.Proofs.Storage.Layout
import DeviceBridge.Proofs.Storage.Staging

/-!
# DeviceBridge.Proofs.Storage.Retention

What a document shows stays until it is replaced. As long as all values in a document endure
(`Context.Endures`), a value that lasts and shows at one key (`Context.ShowsAt`) is not affected by
requests that concern other keys (`Context.showsAt_perform`), and it is found unless a fault strikes
(`Context.ShowsAt.after_get`). Where a document can be read, its namespace is there, so that no file
is converted any more (`Context.after_convert_kept`); where a file has been converted, the documents
show what stood in the file (`Context.showsAt_of_made`).
-/

namespace DeviceBridge

open Json (Value Object)
open Files

/-! ## Requests to one document -/

/-- What is asked of a document. -/
inductive ContextRequest where
  | set (key : String) (v : Value)
  | delete (key : String)
  | get (key : String)
  | has (key : String)
  | keys

namespace ContextRequest

/-- What is asked of the storage if the document is that of a context. -/
def of (c : Context) : ContextRequest → StorageRequest
  | set key v => .set c key v
  | delete key => .delete c key
  | get key => .get c key
  | has key => .has c key
  | keys => .keys c

/-- What the document is to hold after a request, if it has to be written anew. -/
def change? (entries : Object) : ContextRequest → Option Object
  | set key v => some (entries.insert key v)
  | delete key => if entries.contains key then some (entries.erase key) else none
  | get _ | has _ | keys => none

/-- Whether a request replaces or removes what is at a key. -/
def Concerns (key : String) : ContextRequest → Prop
  | set key' _ | delete key' => key' = key
  | get _ | has _ | keys => False

/-- Whether what a request sets endures. -/
def Enduring : ContextRequest → Prop
  | set _ v => v.Enduring
  | delete _ | get _ | has _ | keys => True

variable {q : ContextRequest} {entries new : Object} {key : String}

/-- Values that endure are replaced by values that endure. -/
theorem enduring_of_change? (hordered : entries.Ordered) (h : ∀ e ∈ entries, e.2.Enduring)
    (hq : q.Enduring) (hnew : q.change? entries = some new) :
    new.Ordered ∧ ∀ e ∈ new, e.2.Enduring := by
  cases q with
  | set key v =>
      obtain rfl := Option.some.inj hnew
      refine ⟨hordered.insert key v, fun e he => ?_⟩
      rcases Dictionary.mem_insert he with rfl | he
      · exact hq
      · exact h e he
  | delete key =>
      dsimp only [change?] at hnew
      split at hnew
      · obtain rfl := Option.some.inj hnew
        exact ⟨hordered.filter _, fun e he => h e (List.mem_filter.mp he).1⟩
      · contradiction
  | get key | has key | keys => contradiction

theorem get?_of_change? (hq : ¬ q.Concerns key) (hnew : q.change? entries = some new) :
    new.get? key = entries.get? key := by
  cases q with
  | set key' v =>
      obtain rfl := Option.some.inj hnew
      rw [Dictionary.get?_insert, if_neg fun h => hq h.symm]
  | delete key' =>
      dsimp only [change?] at hnew
      split at hnew
      · obtain rfl := Option.some.inj hnew
        rw [Dictionary.get?_erase, if_neg fun h => hq h.symm]
      · contradiction
  | get key | has key | keys => contradiction

end ContextRequest

namespace Context

variable {c : Context} {q : ContextRequest} {t t' : Tree} {key : String} {v : Value}
  {entries : Object} {d : Disk}

/-- For a request the document is loaded, and saved if what it holds is to change; else everything
stays as it is. -/
theorem after_request (c : Context) (q : ContextRequest) {done failed : Disk → Prop}
    (hsave : ∀ entries new d₁, c.Shows d.tree entries → q.change? entries = some new →
      d₁.tree = d.tree → After (c.save new) d₁ (fun _ => done) fun _ => failed)
    (hkept : ∀ entries d', c.Shows d.tree entries → q.change? entries = none →
      d'.tree = d.tree → done d')
    (hfailed : ∀ d', d'.tree = d.tree → failed d') :
    After (q.of c).perform d (fun _ => done) fun _ => failed := by
  cases q with
  | set key v =>
      refine after_bind (after_bind ((after_load c).mono (fun entries d₁ h₁ => ?_)
        fun _ d₁ h => hfailed d₁ h.2))
      exact (hsave entries _ d₁ h₁.2.2 rfl h₁.2.1).imp fun _ _ h₂ => after_pure h₂
  | delete key =>
      refine after_bind (after_bind ((after_load c).mono (fun entries d₁ h₁ => ?_)
        fun _ d₁ h => hfailed d₁ h.2))
      split
      · next hkey =>
        exact after_bind ((hsave entries _ d₁ h₁.2.2 (if_pos hkey) h₁.2.1).imp
          fun _ _ h₂ => after_pure (after_pure h₂))
      · next hkey =>
        exact after_pure (after_pure (hkept entries d₁ h₁.2.2 (if_neg hkey) h₁.2.1))
  | get key =>
      refine after_bind ((after_get? c key).mono (fun _ d₁ h => ?_) fun _ d₁ h => hfailed d₁ h.2)
      obtain ⟨-, ht, entries, hshow, -⟩ := h
      exact after_pure (hkept entries d₁ hshow rfl ht)
  | has key =>
      refine after_bind ((after_has c key).mono (fun _ d₁ h => ?_) fun _ d₁ h => hfailed d₁ h.2)
      obtain ⟨-, ht, entries, hshow, -⟩ := h
      exact after_pure (hkept entries d₁ hshow rfl ht)
  | keys =>
      refine after_bind (after_bind ((after_load c).mono (fun entries d₁ h => ?_)
        fun _ d₁ h => hfailed d₁ h.2))
      exact after_pure (after_pure (hkept entries d₁ h.2.2 rfl h.2.1))

/-- A request is served by what the document shows. Only the document and its draft are touched, and
the document only if it is written anew. -/
theorem after_perform (hs : d.tree.Sound) (c : Context) (q : ContextRequest) :
    After (q.of c).perform d
      (fun _ d' => d'.tree.Sound ∧
        Tree.Spares [c.path.location, c.draft.location] d.tree d'.tree ∧
        ∃ entries, c.Shows d.tree entries ∧
          match q.change? entries with
          | some new => d'.tree.read c.path = .ok (Value.object new).pretty
          | none => d'.tree = d.tree)
      (fun _ d' => d'.tree.Sound ∧
        Tree.Spares [c.path.location, c.draft.location] d.tree d'.tree ∧
        c.Untouched d.tree d'.tree) := by
  refine after_request c q (fun entries new d₁ hshow hnew ht => ?_)
    (fun entries d' hshow hnone ht => ?_) fun d' ht => ?_
  · rw [← ht] at hs hshow ⊢
    refine (after_save_spares hs c new).mono (fun _ d' h => ?_) fun _ d' h =>
      ⟨h.2.1, h.2.2.mono (by simp), untouched_of_draft h.2.2 c rfl⟩
    refine ⟨h.2.1, h.2.2.1, entries, hshow, ?_⟩
    rw [hnew]
    exact h.2.2.2
  · refine ⟨ht ▸ hs, ht ▸ .refl _ _, entries, hshow, ?_⟩
    rw [hnone]
    exact ht
  · rw [ht]
    exact ⟨hs, .refl _ _, .refl _ _⟩

/-! ## What a document shows at a key -/

/-- All values that the document holds endure. -/
def Endures (c : Context) (t : Tree) : Prop :=
  ∀ entries, c.stored? t = some entries → ∀ e ∈ entries, e.2.Enduring

/-- A look at the document shows a value at a key. -/
def ShowsAt (c : Context) (t : Tree) (key : String) (v : Value) : Prop :=
  ∃ entries, c.Shows t entries ∧ entries.get? key = some v

theorem stored?_of_read {s : String} (hr : t.read c.path = .ok s)
    (hv : Json.readValue s = .ok (.object entries)) : c.stored? t = some entries := by
  unfold stored?
  rw [text?_of_read hr]
  dsimp only
  rw [hv]

theorem Shows.enduring (hs : c.Shows t entries) (h : c.Endures t) :
    ∀ e ∈ entries, e.2.Enduring := by
  obtain ⟨-, rfl⟩ | ⟨s, hr, hv⟩ := hs
  · exact fun _ he => nomatch he
  · exact h entries (stored?_of_read hr hv)

/-- What is shown at a key has been read. -/
theorem ShowsAt.exists_read (h : c.ShowsAt t key v) : ∃ s, t.read c.path = .ok s := by
  obtain ⟨entries, ⟨-, rfl⟩ | ⟨s, hr, -⟩, hget⟩ := h
  · contradiction
  · exact ⟨s, hr⟩

theorem endures_of_text (h : c.text? t' = c.text? t) (he : c.Endures t) : c.Endures t' := by
  unfold Endures stored?
  rw [h]
  exact he

theorem Untouched.showsAt (h : c.Untouched t t') (hv : c.ShowsAt t key v) : c.ShowsAt t' key v := by
  obtain ⟨entries, ⟨-, rfl⟩ | ⟨s, hr, hread⟩, hget⟩ := hv
  · contradiction
  · exact ⟨entries, .inr ⟨s, h.read s hr, hread⟩, hget⟩

section
variable (hr : t.read c.path = .ok (Value.object entries).pretty) (hordered : entries.Ordered)
  (he : ∀ e ∈ entries, e.2.Enduring)
include hr hordered he

/-- What has been written shows, and each value as what it is read back as. -/
theorem shows_of_read_pretty : c.Endures t ∧ ∃ shown : Object, c.Shows t shown ∧
    ∀ k, shown.get? k = (entries.get? k).bind (Value.reread 1) := by
  obtain ⟨shown, hv, hshown, hget⟩ := Json.exists_readValue_pretty hordered he
  refine ⟨fun entries' h => ?_, shown, .inr ⟨_, hr, hv⟩, hget⟩
  obtain rfl := Option.some.inj ((stored?_of_read hr hv).symm.trans h)
  exact hshown

/-- A value that lasts shows where it has been written. -/
theorem showsAt_of_read_pretty (hv : v.Lasting) (hget : entries.get? key = some v) :
    c.ShowsAt t key v := by
  obtain ⟨-, shown, hshow, hshown⟩ := shows_of_read_pretty hr hordered he
  exact ⟨shown, hshow, by rw [hshown, hget]; exact hv⟩

end

/-- A document goes on to hold values that endure. -/
theorem endures_perform (hs : d.tree.Sound) (h : c.Endures d.tree) (hq : q.Enduring) :
    Leaves (q.of c).perform d fun d' => c.Endures d'.tree := by
  refine (after_perform hs c q).mono (fun _ d' h' => ?_)
    fun _ d' h' => endures_of_text h'.2.2.text h
  obtain ⟨-, -, entries, hshow, hchange⟩ := h'
  cases hnew : q.change? entries with
  | none =>
      rw [hnew] at hchange
      exact hchange ▸ h
  | some new =>
      rw [hnew] at hchange
      obtain ⟨hordered, he⟩ :=
        ContextRequest.enduring_of_change? hshow.ordered (hshow.enduring h) hq hnew
      exact (shows_of_read_pretty hchange hordered he).1

/-- What lasts and shows at a key goes on to show there, unless a request that concerns the key is
done. -/
theorem showsAt_perform (hs : d.tree.Sound) (h : c.Endures d.tree) (hq : q.Enduring)
    (hlasting : v.Lasting) (hv : c.ShowsAt d.tree key v) :
    After (q.of c).perform d (fun _ d' => ¬ q.Concerns key → c.ShowsAt d'.tree key v)
      (fun _ d' => c.ShowsAt d'.tree key v) := by
  refine (after_perform hs c q).mono (fun _ d' h' hkey => ?_) fun _ d' h' => h'.2.2.showsAt hv
  obtain ⟨-, -, entries, hshow, hchange⟩ := h'
  cases hnew : q.change? entries with
  | none =>
      rw [hnew] at hchange
      exact hchange ▸ hv
  | some new =>
      rw [hnew] at hchange
      obtain ⟨hordered, he⟩ :=
        ContextRequest.enduring_of_change? hshow.ordered (hshow.enduring h) hq hnew
      obtain ⟨entries', hshow', hget⟩ := hv
      refine showsAt_of_read_pretty hchange hordered he hlasting ?_
      rw [ContextRequest.get?_of_change? hkey hnew, hshow.unique hshow', hget]

/-- What has been set shows if it lasts. -/
theorem showsAt_set (hs : d.tree.Sound) (h : c.Endures d.tree) (hv : v.Lasting) :
    After ((ContextRequest.set key v).of c).perform d (fun _ d' => c.ShowsAt d'.tree key v)
      (fun _ _ => True) := by
  refine (after_perform hs c (.set key v)).mono (fun _ d' h' => ?_) fun _ _ _ => trivial
  obtain ⟨-, -, entries, hshow, hread⟩ := h'
  obtain ⟨hordered, he⟩ := ContextRequest.enduring_of_change? hshow.ordered
    (hshow.enduring h) (q := .set key v) hv.enduring rfl
  exact showsAt_of_read_pretty hread hordered he hv (by rw [Dictionary.get?_insert, if_pos rfl])

/-- Where a value has been set that is not read back, nothing shows any more. -/
theorem not_shows_of_set (hs : d.tree.Sound) (hv : v.reread 1 = none) :
    After ((ContextRequest.set key v).of c).perform d (fun _ d' => ∀ e, ¬ c.Shows d'.tree e)
      (fun _ _ => True) := by
  refine (after_perform hs c (.set key v)).mono (fun _ d' h' shown hshow => ?_) fun _ _ _ => trivial
  obtain ⟨-, -, entries, -, hread⟩ := h'
  have hget : (entries.insert key v).get? key = some v := by
    rw [Dictionary.get?_insert, if_pos rfl]
  obtain ⟨hmissing, -⟩ | ⟨s, hr, hok⟩ := hshow
  · rw [hread] at hmissing
    contradiction
  · obtain rfl := Except.ok.inj (hread.symm.trans hr)
    exact Json.not_readValue_pretty hget hv _ hok

/-- A document that can be read is loaded unless a fault strikes. -/
theorem load_of_read {s : String} (hf : d.faults d.accesses = none)
    (hr : d.tree.read c.path = .ok s) (hv : Json.readValue s = .ok (.object entries)) :
    c.load d = .ok entries { d with accesses := d.accesses + 1 } := by
  have hread : Storing.ofDisk (Disk.ifPresent (Disk.read c.path)) d =
      .ok (some s) { d with accesses := d.accesses + 1 } := by
    unfold Storing.ofDisk Disk.ifPresent Disk.read Disk.look Disk.access
    rw [hf]
    dsimp only
    rw [hr]
    rfl
  unfold load
  rw [bind_eq_of_ok hread]
  dsimp only
  rw [hv]
  rfl

/-- What lasts and shows at a key is found there unless a fault strikes. -/
theorem ShowsAt.after_get (h : c.ShowsAt d.tree key v) (hv : v.Lasting) :
    After ((ContextRequest.get key).of c).perform d (fun a _ => a = .value (some v))
      (fun _ _ => d.faults d.accesses ≠ none) := by
  obtain ⟨entries, ⟨-, rfl⟩ | ⟨s, hr, hread⟩, hget⟩ := h
  · contradiction
  have hshow : c.Shows d.tree entries := .inr ⟨s, hr, hread⟩
  have hdecode : (Json.decodeValue v : Except Json.Error Value) = .ok v :=
    Json.decodeValue_of_denotable hv.denotable
  refine after_bind (after_bind (after_bind (.intro (fun r d' hx => after_pure ?_)
    fun e d' hx hf => ?_)))
  · obtain rfl := hshow.unique ((after_load c).of_ok hx).2.2
    rw [hget]
    dsimp only
    rw [hdecode]
    exact after_pure (after_pure rfl)
  · rw [load_of_read hf hr hread] at hx
    contradiction

/-- Where nothing shows, nothing is found. -/
theorem not_succeeds_get (h : ∀ entries, ¬ c.Shows d.tree entries) :
    After ((ContextRequest.get key).of c).perform d (fun _ _ => False) (fun _ _ => True) := by
  refine after_bind ((after_get? c key).mono (fun _ _ h' => ?_) fun _ _ _ => trivial)
  obtain ⟨-, -, entries, hshow, -⟩ := h'
  exact absurd hshow (h entries)

end Context

/-! ## The file at a location -/

namespace Legacy

/-- What the document for a context is to hold according to the file at a location. -/
def entries? (location : Path) (name : String) (t : Tree) : Option Object :=
  match t.read location with
  | .error _ => none
  | .ok s =>
    match Json.readValue s with
    | .ok (.object contexts) => (Dictionary.get? contexts name).map (contents name)
    | _ => none

variable {location : Path} {name : String} {t : Tree} {entries : Object}

theorem entries?_of_read {s : String} {contexts : Object} (hr : t.read location = .ok s)
    (hv : Json.readValue s = .ok (.object contexts)) :
    entries? location name t = (contexts.get? name).map (contents name) := by
  unfold entries?
  rw [hr]
  dsimp only
  rw [hv]

theorem Pending.entries?_eq {id : String} {staging : Namespace} {contexts : Object}
    (h : Pending location id staging contexts t) :
    entries? location name t = (contexts.get? name).map (contents name) := by
  obtain ⟨s, hr, hv⟩ := h.text
  exact entries?_of_read hr hv

theorem ordered_of_entries? (h : entries? location name t = some entries) : entries.Ordered := by
  unfold entries? at h
  split at h
  · contradiction
  · split at h
    · next contexts hv =>
      obtain ⟨v, hget, rfl⟩ := Option.map_eq_some_iff.mp h
      have hdenotable := (Json.denotable_of_readValue hv).object.2 _ (Dictionary.mem_of_get? hget)
      cases v with
      | object entries => exact hdenotable.object.1
      | null | bool b | number n | string s | array items => exact List.pairwise_singleton _ _
    · contradiction

/-- Whatever becomes of a conversion, the tree is as trees are. -/
theorem sound_convert {d : Disk} (hs : d.tree.Sound) (location : Path) :
    Leaves (convert location) d fun d' => d'.tree.Sound := by
  refine (after_convert hs location).mono (fun _ d' h => ?_) fun _ d' h => ?_
  · obtain ht | ⟨_, _, _, -, hs', -⟩ := h
    · exact ht ▸ hs
    · exact hs'
  · obtain ht | ⟨_, _, _, -, hc⟩ := h
    · exact ht ▸ hs
    · exact hc.sound

end Legacy

/-- The way to the root of a namespace does not lead through its staging directory. -/
def Namespace.Direct (n : Namespace) : Prop := ∀ m ∈ n.root.way, ¬ n.staging.home <+: m

instance (n : Namespace) : Decidable n.Direct := inferInstanceAs (Decidable (∀ m ∈ _, _))

namespace Context

/-- The document is one of the namespace that a location stands for. -/
def BelongsTo (c : Context) (location : Path) : Prop :=
  Legacy.split location = .ok (c.space.root, c.space.name.text)

variable {c : Context} {location : Path} {id : String} {t t' : Tree} {key : String} {v : Value}
  {entries : Object} {d : Disk}

/-- Where a document can be read, the directory of its namespace is there. -/
theorem directory_of_read {s : String} (hr : t.read c.path = .ok s) :
    t.entry? c.space.home = some .directory :=
  (Path.directory_of_locate_join c.isFileName.slashless c.space.dir_text_ne_empty
    (Tree.read_eq_ok_iff.mp hr).1).2.1

/-- Where a document can be read, nothing is converted. -/
theorem after_convert_kept (hc : c.BelongsTo location) (hs : d.tree.Sound) {s : String}
    (hr : d.tree.read c.path = .ok s) :
    Leaves (Legacy.convert location) d fun d' => d'.tree = d.tree :=
  (Legacy.after_convert_kept hs hc (directory_of_read hr)).imp fun _ _ h => h.2

section
variable {staging : Namespace} {contexts : Object}

/-- The staging directory for a location is that of the namespace. -/
theorem BelongsTo.staging_eq (hc : c.BelongsTo location)
    (hp : Legacy.Pending location id staging contexts t) :
    c.space.name.text = id ∧ staging = c.space.staging := by
  obtain ⟨hroot, rfl⟩ := Prod.mk.inj (Except.ok.inj (hc.symm.trans hp.split))
  obtain ⟨root, name⟩ := staging
  obtain rfl : c.space.root = root := hroot
  exact ⟨rfl, congrArg _ (StorageName.ext hp.name)⟩

end

/-- Where a file has been converted, the documents hold what stood in the file. -/
theorem endures_of_made (hc : c.BelongsTo location) (hm : Legacy.Made location id t t')
    (he : ∀ entries, Legacy.entries? location c.name.text t = some entries →
      ∀ e ∈ entries, e.2.Enduring) : c.Endures t' := by
  obtain ⟨staging, contexts, hp, hcarried⟩ := hm
  obtain ⟨rfl, rfl⟩ := hc.staging_eq hp
  have hplace : c.path.location =
      (c.space.staging.root.join c.space.name.text).location ++ [c.name.text ++ ".json"] :=
    c.path_location
  intro entries hstored
  unfold stored? at hstored
  cases hv : contexts.get? c.name.text with
  | none =>
      have hnone : c.text? t' = none := by
        refine Option.eq_none_iff_forall_ne_some.mpr fun s hs => ?_
        rw [text?_eq_some_iff, hplace] at hs
        exact hcarried.absent c.staged rfl hv s hs
      rw [hnone] at hstored
      obtain rfl := Option.some.inj hstored
      exact fun _ he => nomatch he
  | some v =>
      have hentries : Legacy.entries? location c.name.text t =
          some (Legacy.contents c.name.text v) := by
        rw [hp.entries?_eq, hv, Option.map_some]
      have htext : c.text? t' = some (Value.object (Legacy.contents c.name.text v)).pretty := by
        rw [text?_eq_some_iff, hplace]
        exact (hcarried.document c.staged rfl v hv).2
      obtain ⟨shown, hv, hshown, -⟩ :=
        Json.exists_readValue_pretty (Legacy.ordered_of_entries? hentries) (he _ hentries)
      rw [htext] at hstored
      dsimp only at hstored
      rw [hv] at hstored
      obtain rfl := Option.some.inj hstored
      exact hshown

/-- Where a file has been converted, a document is found whose path does not lead through the
staging directory. -/
theorem locate_path_of_carried {contexts : Object}
    (hp : Legacy.Pending location c.space.name.text c.space.staging contexts t)
    (hcarried : Legacy.Carried c.space.staging c.space.home contexts t t')
    (hdirect : c.space.Direct) (hstaged : c.staged.path.Passable) :
    t'.locate c.path = .ok c.path.location := by
  obtain ⟨⟨-, hroot, hd⟩, -⟩ := hp.of_file
  have hway : ∀ m ∈ c.space.root.way, t'.entry? m = some .directory := fun m hm => by
    have hdir := Tree.directories_of_locate hroot hd m hm
    rw [hcarried.elsewhere m (hp.not_isPrefix_of_entry? (by simp [hdir])) (hdirect m hm), hdir]
  have hroot' := Tree.locate_of_way (Tree.passable_of_locate hroot) hway
  have htarget := Tree.passable_of_locate hp.locate_target.1
  have hslashless := c.space.name.isFileName.slashless
  have hhome : t'.locate c.space.dir = .ok c.space.dir.location :=
    Path.locate_join_of_fits hslashless hroot' (hway _ c.space.root.location_mem_way)
      htarget.sayable (htarget.fits_join hslashless)
  exact Path.locate_join_of_fits c.isFileName.slashless hhome hcarried.directory
    (pathFault?_of_staged (c := c) "" String.append_empty.symm String.append_empty.symm
      hstaged.sayable)
    (hstaged.fits_join c.isFileName.slashless)

/-- Where a file has been converted, the documents show what stood in the file and lasts. -/
theorem showsAt_of_made (hc : c.BelongsTo location) (hm : Legacy.Made location id t t')
    (hdirect : c.space.Direct) (hentries : Legacy.entries? location c.name.text t = some entries)
    (he : ∀ e ∈ entries, e.2.Enduring) (hv : v.Lasting) (hget : entries.get? key = some v) :
    c.ShowsAt t' key v := by
  obtain ⟨staging, contexts, hp, hcarried⟩ := hm
  obtain ⟨rfl, rfl⟩ := hc.staging_eq hp
  have hordered := Legacy.ordered_of_entries? hentries
  rw [hp.entries?_eq, Option.map_eq_some_iff] at hentries
  obtain ⟨w, hw, rfl⟩ := hentries
  obtain ⟨hstaged, hentry⟩ := hcarried.document c.staged rfl w hw
  have hlocate := locate_path_of_carried hp hcarried hdirect hstaged
  refine showsAt_of_read_pretty (Tree.read_eq_ok_iff.mpr ⟨hlocate, ?_⟩) hordered he hv hget
  rw [path_location]
  exact hentry

/-- A conversion leaves values that endure if those that it carries over do. -/
theorem endures_convert (hc : c.BelongsTo location) (hs : d.tree.Sound) (h : c.Endures d.tree)
    (he : ∀ r d', Legacy.convert location d = .ok r d' → r.converted = true →
      ∀ entries, Legacy.entries? location c.name.text d.tree = some entries →
        ∀ e ∈ entries, e.2.Enduring) :
    Leaves (Legacy.convert location) d fun d' => c.Endures d'.tree := by
  have htold := Legacy.after_convert_told hs location
  refine .intro (fun r d' hx => ?_) fun _ d' hx => ?_
  · cases hr : r.converted with
    | true => exact endures_of_made hc ((htold.of_ok hx).made hr) (he r d' hx hr)
    | false => exact (htold.of_ok hx).kept hr ▸ h
  · obtain ht | ⟨id, staging, contexts, hp, hconfined⟩ := htold.of_error hx
    · exact ht ▸ h
    · obtain ⟨rfl, rfl⟩ := hc.staging_eq hp
      have hout : ¬ c.space.staging.home <+: c.path.location := by
        rw [path_location]
        exact hp.not_isPrefix_target _
      have htext : c.text? d'.tree = c.text? d.tree := by
        unfold text?
        rw [hconfined.entry?_eq c.space.staging.home_isBase hout,
          Tree.entry?_prune c.space.staging.home_isBase, if_neg hout]
      exact endures_of_text htext h

/-- No document lies where the location leads. -/
theorem path_ne_location (hc : c.BelongsTo location)
    (hl : t.locate location = .ok location.location)
    (hf : t.entry? location.location ≠ some .directory) :
    c.path.location ≠ location.location := fun heq => by
  obtain ⟨-, -, name, hloc⟩ := Legacy.root_of_split hc hl hf
  have hlen := congrArg List.length heq
  rw [path_location, Namespace.home_eq, hloc] at hlen
  simp at hlen

end Context

end DeviceBridge
