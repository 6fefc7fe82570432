import DeviceBridge.Proofs.Storage.Room

/-!
# DeviceBridge.Proofs.Storage.Interruption

What a write that fails or is cut off leaves behind. All documents are as they were, and beside them
there may be a draft (`Context.after_set_documents`, `Context.after_delete_documents`). The draft is
no document, so nobody sees it whose path does not lead through it (`Context.outcome_load_without`),
and the next write goes over it and leaves the same (`Context.set_beside_draft`).

A process that is cut off is one for which every access from some point on is struck by a fault.
-/

namespace DeviceBridge

open Json (Value Object)
open Files

namespace Files

/-! ## Without a file -/

namespace Tree

variable {t t' : Tree} {l : Location}

/-- Two trees with the same but at one location, where neither has a directory. -/
structure Beside (l : Location) (t t' : Tree) : Prop where
  entry?_eq : ∀ m, m ≠ l → t'.entry? m = t.entry? m
  ne_directory : t.entry? l ≠ some .directory
  ne_directory' : t'.entry? l ≠ some .directory

theorem Beside.symm (h : Beside l t t') : Beside l t' t :=
  ⟨fun m hm => (h.entry?_eq m hm).symm, h.ne_directory', h.ne_directory⟩

/-- Taking a file away changes nothing else. -/
theorem Sound.beside_prune (hs : t.Sound) {c : Content} (hl : t.entry? l = some (.file c)) :
    Beside l t (t.prune l) := by
  have hdir : t.entry? l ≠ some .directory := by simp [hl]
  have hb := not_isBase_of_entry? hdir
  refine ⟨fun m hm => ?_, hdir, ?_⟩
  · rw [entry?_prune hb]
    split
    · next hp => rw [hs.below_isPrefix hdir hp hm]
    · rfl
  · rw [entry?_prune hb, if_pos List.prefix_rfl]
    exact nofun

end Tree

theorem outcome_read (d : Disk) (p : Path) :
    outcome (Disk.read p) d =
      match d.faults d.accesses with
      | some f => .error f.error
      | none => d.tree.read p := by
  unfold outcome Disk.read Disk.look Disk.access
  cases d.faults d.accesses with
  | some f => rfl
  | none => cases hr : d.tree.read p <;> simp [hr, Except.map]

theorem outcome_ifPresent {α : Type} (x : Access α) (d : Disk) :
    outcome (Disk.ifPresent x) d =
      match outcome x d with
      | .ok a => .ok (some a)
      | .error .notFound => .ok none
      | .error e => .error e := by
  unfold outcome Disk.ifPresent
  rcases x d with ⟨a, d'⟩ | ⟨e, d'⟩
  · rfl
  · cases e <;> rfl

/-- A disk without what lies at a location. -/
def Disk.without (d : Disk) (l : Location) : Disk := { d with tree := d.tree.prune l }

end Files

/-- Work that starts alike and goes on in a way that does not depend on the state ends alike. -/
theorem outcome_bind {ε σ α β : Type} {x : EStateM ε σ α} {f : α → EStateM ε σ β} {s s' : σ}
    (h : outcome x s = outcome x s') (hf : ∀ a t t', outcome (f a) t = outcome (f a) t') :
    outcome (x >>= f) s = outcome (x >>= f) s' := by
  unfold outcome at h hf ⊢
  simp only [bind, EStateM.bind]
  cases hx : x s with
  | ok a t =>
      cases hx' : x s' with
      | ok a' t' =>
          rw [hx, hx'] at h
          obtain rfl := Except.ok.inj h
          exact hf a t t'
      | error e' t' => rw [hx, hx'] at h; contradiction
  | error e t =>
      cases hx' : x s' with
      | ok a' t' => rw [hx, hx'] at h; contradiction
      | error e' t' =>
          rw [hx, hx'] at h
          exact congrArg _ (Except.error.inj h)

namespace Context

variable {c c' : Context} {t t' : Tree} {entries : Object} {d d' : Disk} {key : String} {v : Value}

/-! ## What is left of a write -/

/-- From one tree to another no document is made, changed or lost. -/
def KeepsDocuments (t t' : Tree) : Prop :=
  ∀ (c : Context) (x : Content),
    t'.entry? c.path.location = some (.file x) ↔ t.entry? c.path.location = some (.file x)

/-- From one tree to another no document but one is made, changed or lost. -/
def KeepsOtherDocuments (c : Context) (t t' : Tree) : Prop :=
  ∀ (c' : Context) (x : Content), c'.path.location ≠ c.path.location →
    (t'.entry? c'.path.location = some (.file x) ↔ t.entry? c'.path.location = some (.file x))

theorem keepsDocuments_of_spares (h : Tree.Spares [c.draft.location] t t') : KeepsDocuments t t' :=
  fun _ x => h.file_iff (by simp [path_ne_draft]) x

theorem keepsOtherDocuments_of_spares (h : Tree.Spares [c.path.location, c.draft.location] t t') :
    c.KeepsOtherDocuments t t' :=
  fun _ x hne => h.file_iff (by simp [path_ne_draft, hne]) x

theorem after_save_documents (hs : d.tree.Sound) (c : Context) (entries : Object) :
    After (c.save entries) d
      (fun _ d' => d'.tree.read c.path = .ok (Value.object entries).pretty ∧
        c.KeepsOtherDocuments d.tree d'.tree)
      (fun _ d' => KeepsDocuments d.tree d'.tree) :=
  (after_save_spares hs c entries).mono
    (fun _ _ h => ⟨h.2.2.2, keepsOtherDocuments_of_spares h.2.2.1⟩)
    fun _ _ h => keepsDocuments_of_spares h.2.2

theorem after_set_documents (hs : d.tree.Sound) (c : Context) (key : String) (v : Value) :
    After (c.set key v) d
      (fun _ d' => ∃ entries, c.Shows d.tree entries ∧
        d'.tree.read c.path = .ok (Value.object (entries.insert key v)).pretty ∧
        c.KeepsOtherDocuments d.tree d'.tree)
      (fun _ d' => KeepsDocuments d.tree d'.tree) := by
  unfold set
  refine after_bind ((after_load c).mono (fun entries d₁ h₁ => ?_)
    fun _ _ h => h.2 ▸ fun _ _ => .rfl)
  obtain ⟨-, ht₁, hshow⟩ := h₁
  rw [← ht₁] at hs ⊢
  exact (after_save_documents hs c _).imp fun _ _ h => ⟨entries, ht₁ ▸ hshow, h⟩

theorem after_delete_documents (hs : d.tree.Sound) (c : Context) (key : String) :
    After (c.delete key) d
      (fun b d' => ∃ entries, c.Shows d.tree entries ∧ b = entries.contains key ∧
        if b then
          d'.tree.read c.path = .ok (Value.object (entries.erase key)).pretty ∧
            c.KeepsOtherDocuments d.tree d'.tree
        else d'.tree = d.tree)
      (fun _ d' => KeepsDocuments d.tree d'.tree) := by
  unfold delete
  refine after_bind ((after_load c).mono (fun entries d₁ h₁ => ?_)
    fun _ _ h => h.2 ▸ fun _ _ => .rfl)
  obtain ⟨-, ht₁, hshow⟩ := h₁
  rw [← ht₁] at hs hshow ⊢
  split
  · next hkey =>
    exact after_bind ((after_save_documents hs c _).imp fun _ _ h =>
      after_pure ⟨entries, hshow, hkey.symm, h⟩)
  · next hkey => exact after_pure ⟨entries, hshow, (Bool.eq_false_iff.mpr hkey).symm, rfl⟩

/-! ## What cannot be read -/

/-- Where the document cannot be loaded, nothing is written. -/
theorem set_of_load_error {e : StorageError} (h : c.load d = .error e d') (key : String)
    (v : Value) :
    c.set key v d = .error e d' := by
  unfold set
  simp only [bind, EStateM.bind, h]

theorem delete_of_load_error {e : StorageError} (h : c.load d = .error e d') (key : String) :
    c.delete key d = .error e d' := by
  unfold delete
  simp only [bind, EStateM.bind, h]

theorem exists_load_error (h : ∀ entries, ¬ c.Shows d.tree entries) :
    ∃ e d', c.load d = .error e d' := by
  cases hx : c.load d with
  | ok entries d' => exact absurd ((after_load c).of_ok hx).2.2 (h entries)
  | error e d' => exact ⟨e, d', rfl⟩

/-! ## What is seen of a draft -/

/-- A document is loaded alike where it reads alike. -/
theorem outcome_load_congr (hf : d'.faults d'.accesses = d.faults d.accesses)
    (hr : d'.tree.read c.path = d.tree.read c.path) : outcome c.load d' = outcome c.load d := by
  have hofDisk {α : Type} (x : Access α) (d : Disk) :
      outcome (Storing.ofDisk x) d = (outcome x d).mapError .io := by
    unfold outcome Storing.ofDisk
    cases x d <;> rfl
  refine outcome_bind ?_ fun r t t' => ?_
  · rw [hofDisk, hofDisk, outcome_ifPresent, outcome_ifPresent, outcome_read, outcome_read, hf, hr]
  · cases r with
    | none => rfl
    | some s =>
        simp only
        cases Json.readValue s with
        | error e => rfl
        | ok v => cases v <;> rfl

/-- Without the draft of another, a document is loaded alike, unless its path leads through the
draft. -/
theorem outcome_load_without (hs : d.tree.Sound) {x : Content}
    (hx : d.tree.entry? c.draft.location = some (.file x)) (hway : c.draft.location ∉ c'.path.way) :
    outcome c'.load (d.without c.draft.location) = outcome c'.load d := by
  refine outcome_load_congr rfl (Tree.read_congr fun m hm => ?_)
  exact (hs.beside_prune hx).entry?_eq m fun heq => hway (heq ▸ hm)

theorem outcome_has_congr (h : outcome c.load d' = outcome c.load d) (key : String) :
    outcome (c.has key) d' = outcome (c.has key) d := outcome_bind h fun _ _ _ => rfl

theorem outcome_keys_congr (h : outcome c.load d' = outcome c.load d) :
    outcome c.keys d' = outcome c.keys d := outcome_bind h fun _ _ _ => rfl

theorem outcome_get?_congr {α : Type} [Json.Codec α] (h : outcome c.load d' = outcome c.load d)
    (key : String) : outcome (c.get? α key) d' = outcome (c.get? α key) d := by
  refine outcome_bind (outcome_bind h fun _ _ _ => rfl) fun r t t' => ?_
  cases r with
  | none => rfl
  | some v =>
      simp only
      cases (Json.decodeValue v : Except Json.Error α) <;> rfl

/-! ## Writing over a draft -/

/-- Where a value can be set, it can also be set with another file, or none, in place of the draft.
Then what is left is the same. -/
theorem set_beside_draft (hd' : d'.Faultless) (hs : d.tree.Sound)
    (hs' : d'.tree.Sound) (h : Tree.Beside c.draft.location d.tree d'.tree)
    (hok : succeeds (c.set key v) d = true) :
    succeeds (c.set key v) d' = true ∧ ∀ l,
      (stateAfter (c.set key v) d').tree.entry? l = (stateAfter (c.set key v) d).tree.entry? l := by
  obtain ⟨_, hx⟩ := exists_eq_ok_of_succeeds hok
  have hw := (after_set_writable hs c key v).of_ok hx
  obtain ⟨entries, hshow, hwritten⟩ := (after_set_written hs c key v).of_ok hx
  have hpath : c.path.location ≠ c.draft.location := path_ne_draft _ _
  have hway : ∀ l ∈ c.space.dir.way, d'.tree.entry? l = d.tree.entry? l := fun l hl =>
    h.entry?_eq l fun heq => hw.draft_not_mem_way (heq ▸ hl)
  have hread : d'.tree.read c.path = d.tree.read c.path := by
    refine Tree.read_congr fun m hm => ?_
    obtain hm | heq := Path.mem_way_of_join c.isFileName.slashless hm
    · exact hway m hm
    · rw [heq]
      exact h.entry?_eq _ hpath
  have hshow' : c.Shows d'.tree entries := by
    unfold Shows
    rw [hread]
    exact hshow
  have hw' : c.Writable d'.tree := by
    refine { hw with path := ?_, draft := h.ne_directory' }
    rw [h.entry?_eq _ hpath]
    exact hw.path
  have hn' : c.space.Unblocked d'.tree := fun l hl x => hway l hl ▸ hwritten.clear l hl x
  obtain ⟨_, d₂, hx', -, hwritten'⟩ :=
    (attains_set_writable hd' hs' hn' hw' hshow' key v).exists_ok
  refine ⟨by unfold succeeds; rw [hx'], fun l => ?_⟩
  rw [stateAfter_eq_of_ok hx', hwritten'.place, hwritten.place]
  by_cases hl : l = c.draft.location
  · simp [hl, hpath.symm]
  · rw [h.entry?_eq l hl]

/-- A write that fails or is cut off leaves every document as it was, and one that succeeds replaces
the document of its context by the complete new one and leaves the others as they were. What cannot
be loaded is not written. A draft that is left behind is not seen by any context whose path does not
lead through it, and makes no difference to what the next write of its own context does. -/
theorem write_all_or_nothing (c : Context) (key : String) (v : Value) (d : Disk)
    (hs : d.tree.Sound) :
    After (c.set key v) d
      (fun _ d' => ∃ entries, c.Shows d.tree entries ∧
        d'.tree.read c.path = .ok (Value.object (entries.insert key v)).pretty ∧
        c.KeepsOtherDocuments d.tree d'.tree)
      (fun _ d' => KeepsDocuments d.tree d'.tree) ∧
    After (c.delete key) d
      (fun b d' => ∃ entries, c.Shows d.tree entries ∧ b = entries.contains key ∧
        if b then
          d'.tree.read c.path = .ok (Value.object (entries.erase key)).pretty ∧
            c.KeepsOtherDocuments d.tree d'.tree
        else d'.tree = d.tree)
      (fun _ d' => KeepsDocuments d.tree d'.tree) ∧
    ((∀ entries, ¬ c.Shows d.tree entries) → ∃ e d', c.load d = .error e d') ∧
    (∀ e d', c.load d = .error e d' →
      c.set key v d = .error e d' ∧ c.delete key d = .error e d' ∧ d'.tree = d.tree) ∧
    (∀ x, d.tree.entry? c.draft.location = some (.file x) →
      (∀ c' : Context, c.draft.location ∉ c'.path.way →
        (∀ key, outcome (c'.has key) (d.without c.draft.location) = outcome (c'.has key) d) ∧
        (∀ key, outcome (c'.find? key) (d.without c.draft.location) = outcome (c'.find? key) d) ∧
        (∀ (α : Type) [Json.Codec α] (key : String),
          outcome (c'.get? α key) (d.without c.draft.location) = outcome (c'.get? α key) d) ∧
        outcome c'.keys (d.without c.draft.location) = outcome c'.keys d) ∧
      (d.Faultless →
        succeeds (c.set key v) d = succeeds (c.set key v) (d.without c.draft.location) ∧
        (succeeds (c.set key v) d = true → ∀ l,
          (stateAfter (c.set key v) (d.without c.draft.location)).tree.entry? l =
            (stateAfter (c.set key v) d).tree.entry? l))) := by
  refine ⟨after_set_documents hs c key v, after_delete_documents hs c key, exists_load_error,
    fun e d' h => ⟨set_of_load_error h key v, delete_of_load_error h key,
      ((after_load c).of_error h).2⟩, fun x hx => ⟨fun c' hway => ?_, fun hd => ?_⟩⟩
  · have hload := outcome_load_without hs hx hway
    exact ⟨outcome_has_congr hload, fun _ => outcome_bind hload fun _ _ _ => rfl,
      fun _ _ => outcome_get?_congr hload, outcome_keys_congr hload⟩
  · have hbeside := hs.beside_prune hx
    have hs' : (d.without c.draft.location).tree.Sound :=
      hs.prune (Tree.not_isBase_of_entry? hbeside.ne_directory)
    have hwithout (hok : succeeds (c.set key v) d = true) :=
      set_beside_draft (show (d.without c.draft.location).Faultless from hd) hs hs' hbeside hok
    refine ⟨Bool.eq_iff_iff.mpr ⟨fun hok => (hwithout hok).1, fun hok => ?_⟩,
      fun hok => (hwithout hok).2⟩
    exact (set_beside_draft hd hs' hs hbeside.symm hok).1

/-! ## A torn draft -/

theorem isStorageName_x : isStorageName "x".toList = true := by decide

theorem isStorageName_draft : isStorageName "x.json.tmp".toList = true := by decide

/-- A document in a namespace of its own name. -/
def documentX : Context where
  space := ⟨⟨"s"⟩, ⟨"x", isStorageName_x⟩⟩
  name := ⟨"x", isStorageName_x⟩

/-- A disk that is cut off while a draft of that document is written. -/
def tearing : Disk where
  tree := [
    (["s"], .directory), (["s", "x"], .directory),
    (["s", "x", "x.json"], .file (.text "\x7b\"k\": 1\x7d"))]
  faults k := if 3 ≤ k then
      some ⟨.denied, denied_ne_notFound, some (.text "\x7b"), fun _ => false⟩
    else none

/-- A disk with what the torn write leaves behind, on which nothing fails. -/
def torn : Disk where
  tree := [
    (["s"], .directory), (["s", "x"], .directory),
    (["s", "x", "x.json"], .file (.text "\x7b\"k\": 1\x7d")),
    (["s", "x", "x.json.tmp"], .file (.text "\x7b"))]

theorem write_all_or_nothing_torn :
    succeeds (documentX.set "k" .null) tearing = false ∧
    (stateAfter (documentX.set "k" .null) tearing).tree = torn.tree ∧
    KeepsDocuments tearing.tree torn.tree ∧
    succeeds (documentX.set "k" .null) torn = true ∧
    ∀ key, outcome (documentX.has key) (torn.without documentX.draft.location) =
      outcome (documentX.has key) torn := by
  have hfail : succeeds (documentX.set "k" .null) tearing = false := by decide +kernel
  have hleft : (stateAfter (documentX.set "k" .null) tearing).tree = torn.tree := by decide +kernel
  have htearing : tearing.tree.Sound :=
    Tree.sound_of_entries (by decide +kernel) (by decide +kernel)
  have htorn : torn.tree.Sound := Tree.sound_of_entries (by decide +kernel) (by decide +kernel)
  have hdraft : torn.tree.entry? documentX.draft.location = some (.file (.text "\x7b")) := by
    decide +kernel
  obtain ⟨e, hx⟩ := eq_error_of_not_succeeds hfail
  have hkeeps (d : Disk) (hs : d.tree.Sound) (d' : Disk)
      (hx : documentX.set "k" .null d = .error e d') : KeepsDocuments d.tree d'.tree :=
    (write_all_or_nothing documentX "k" .null d hs).1.of_error hx
  have hkept := hkeeps tearing htearing _ hx
  rw [hleft] at hkept
  obtain ⟨-, -, -, -, hleftover⟩ := write_all_or_nothing documentX "k" .null torn htorn
  obtain ⟨hunseen, hnext⟩ := hleftover _ hdraft
  have hsucceeds : succeeds (documentX.set "k" .null) torn = true := by
    rw [(hnext fun _ => rfl).1]
    decide +kernel
  have hway : documentX.draft.location ∉ documentX.path.way := by decide +kernel
  exact ⟨hfail, hleft, hkept, hsucceeds, (hunseen documentX hway).1⟩

/-- A document whose namespace has the name of that draft. -/
def belowDraft : Context where
  space := ⟨⟨"s/x"⟩, ⟨"x.json.tmp", isStorageName_draft⟩⟩
  name := ⟨"x", isStorageName_x⟩

/-- A draft is seen by a context of the namespace that has the name of the draft. -/
theorem draft_seen_below :
    ¬ ∀ (c c' : Context) (key key' : String) (v : Value) (d d' : Disk) (x : Content),
      d.tree.Sound → succeeds (c.set key v) d = false →
      d'.tree = (stateAfter (c.set key v) d).tree →
      d'.tree.entry? c.draft.location = some (.file x) →
      outcome (c'.has key') (d'.without c.draft.location) = outcome (c'.has key') d' := by
  intro h
  have hsound : tearing.tree.Sound := Tree.sound_of_entries (by decide +kernel) (by decide +kernel)
  have hfail : succeeds (documentX.set "k" .null) tearing = false := by decide +kernel
  have hleft : torn.tree = (stateAfter (documentX.set "k" .null) tearing).tree := by decide +kernel
  have hdraft : torn.tree.entry? documentX.draft.location = some (.file (.text "\x7b")) := by
    decide +kernel
  have hseen := congrArg Except.isOk
    (h documentX belowDraft "k" "k" .null tearing torn _ hsound hfail hleft hdraft)
  revert hseen
  decide +kernel

end Context

end DeviceBridge
