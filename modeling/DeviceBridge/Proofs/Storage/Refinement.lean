import DeviceBridge.Proofs.Storage.Room

/-!
# DeviceBridge.Proofs.Storage.Refinement

The storage as a map. Whatever is asked of it, one request after the other, the answers are those of
a map from contexts and keys to values (`Storable.refines_map`), as long as no fault strikes, the
file system can hold the paths, and no namespace is erased through which the root leads. Without
that, the answers can be those of no map at all (`Storable.unexplained_of_crooked_path`).
-/

namespace DeviceBridge

open Json (Value Object)
open Files

/-! ## Requests -/

/-- Something asked of the storage. -/
inductive StorageRequest where
  | set (c : Context) (key : String) (v : Value)
  | delete (c : Context) (key : String)
  | get (c : Context) (key : String)
  | has (c : Context) (key : String)
  | keys (c : Context)
  | erase (n : Namespace)

/-- What the storage answers. -/
inductive StorageAnswer where
  | done
  | flag (b : Bool)
  | value (v : Option Value)
  | keys (ks : List String)

/-- Whether an answer tells that something is there. -/
def StorageAnswer.tells : StorageAnswer → Bool
  | flag b => b
  | value v => v.isSome
  | done | keys _ => false

namespace StorageRequest

/-- Does what is asked. -/
def perform : StorageRequest → Storing StorageAnswer
  | set c key v => do
    c.set key v
    return .done
  | delete c key => return .flag (← c.delete key)
  | get c key => return .value (← c.get? Value key)
  | has c key => return .flag (← c.has key)
  | keys c => return .keys (← c.keys)
  | erase n => do
    n.erase
    return .done

/-- Whether a request is about a namespace below a root, and what it sets can be read back: it holds
no double, and the document around it is not nested too deeply. -/
def Below (root : Path) : StorageRequest → Prop
  | set c _ v => c.space.root = root ∧ v.Plain (Json.nestingLimit - 1)
  | delete c _ | get c _ | has c _ | keys c => c.space.root = root
  | erase n => n.root = root

/-- Whether the file system can hold the paths that a request goes along, and the root does not lead
through what is erased. -/
def Feasible : StorageRequest → Prop
  | set c _ _ | delete c _ => c.draft.Passable
  | get c _ | has c _ | keys c => c.path.Passable
  | erase n => n.dir.Passable ∧ n.Bypassed

end StorageRequest

/-! ## The map -/

namespace Contents

variable {m : Contents} {c : Context} {key : String} {v? : Option Value} {entries : Object}

/-- The map with another value, or none, at one key of one context. -/
def put (m : Contents) (c : Context) (key : String) (v? : Option Value) : Contents :=
  fun c' k => if c' = c ∧ k = key then v? else m c' k

/-- The map after a request. -/
def after (m : Contents) : StorageRequest → Contents
  | .set c key v => m.put c key (some v)
  | .delete c key => m.put c key none
  | .get _ _ | .has _ _ | .keys _ => m
  | .erase n => fun c => if c.space = n then fun _ => none else m c

/-- Whether an answer is that of the map. -/
def Answers (m : Contents) : StorageRequest → StorageAnswer → Prop
  | .set _ _ _, a | .erase _, a => a = .done
  | .delete c key, a | .has c key, a => a = .flag (m c key).isSome
  | .get c key, a => a = .value (m c key)
  | .keys c, a => ∃ ks, a = .keys ks ∧ ks.Pairwise (· < ·) ∧ ∀ key, key ∈ ks ↔ (m c key).isSome

/-- Whether the answers to requests, one after the other, are those of the map. -/
def Explains (m : Contents) : List StorageRequest → List StorageAnswer → Prop
  | [], [] => True
  | r :: rs, a :: as => m.Answers r a ∧ (m.after r).Explains rs as
  | [], _ :: _ | _ :: _, [] => False

theorem put_self : m.put c key v? c key = v? := if_pos ⟨rfl, rfl⟩

/-- What differs at one key is another map at that key. -/
theorem put_eq (h : ∀ k, entries.get? k = if k = key then v? else m c k) :
    (fun c' => if c' = c then entries.get? else m c') = m.put c key v? := by
  funext c' k
  unfold put
  by_cases hc : c' = c
  · rw [if_pos hc, h, hc]
    simp
  · rw [if_neg hc, if_neg fun h => hc h.1]

/-- Where nothing is, nothing is taken away. -/
theorem put_none (h : m c key = none) : m.put c key none = m := by
  funext c' k
  unfold put
  split
  · next hk => rw [hk.1, hk.2, h]
  · rfl

end Contents

/-! ## What changes in the map -/

/-- A root does not lead through a document that lies deeper than its way. -/
theorem Context.bypassed_of_length {c : Context}
    (h : ∀ l ∈ c.space.root.way, l.length < c.space.root.location.length + 2) : c.Bypassed := by
  have hlength (file : String) :
      (c.space.home ++ [file]).length = c.space.root.location.length + 2 := by
    rw [List.length_append, c.space.length_home, List.length_singleton]
  constructor
  · intro hm
    have hlt := h _ hm
    rw [path_location, hlength] at hlt
    omega
  · intro hm
    have hlt := h _ hm
    rw [draft_location, hlength] at hlt
    omega

namespace Storable

variable {root : Path} {t : Tree} {c : Context}

/-- What is on the way to a namespace is no place of a document or of a draft. -/
theorem not_mem_way (h : Storable root t) (hc : c.space.root = root) {n : Namespace}
    (hn : n.root = root) : c.path.location ∉ n.dir.way ∧ c.draft.location ∉ n.dir.way := by
  have hroot := hn.trans hc.symm
  obtain ⟨hpath, hdraft⟩ := h.bypassed c hc
  constructor
  · intro hm
    obtain hm | heq := Namespace.mem_way hm
    · exact hpath (hroot ▸ hm)
    · exact Context.path_not_isPrefix_home hroot (heq ▸ List.prefix_rfl)
  · intro hm
    obtain hm | heq := Namespace.mem_way hm
    · exact hdraft (hroot ▸ hm)
    · exact Context.draft_not_isPrefix_home hroot (heq ▸ List.prefix_rfl)

/-- In a tree that can hold the documents, each of them can be written. -/
theorem writable (h : Storable root t) (hc : c.space.root = root) (hp : c.draft.Passable) :
    c.Writable t := by
  obtain ⟨_, hd, -⟩ := h.documents c hc
  obtain ⟨hpath, hdraft⟩ := h.not_mem_way hc hc
  exact ⟨hp, hpath, hd.not_directory, hdraft, h.drafts c hc⟩

end Storable

namespace Holds

variable {root : Path} {t t' : Tree} {m : Contents}

/-- What is seen of a document in a tree that holds contents is what they say. -/
theorem shows (h : Holds root t m) {c : Context} (hc : c.space.root = root)
    (hp : c.path.Passable) :
    ∃ entries, c.Shows t entries ∧ (Value.object entries).Plain Json.nestingLimit ∧
      entries.get? = m c := by
  obtain ⟨entries, hd, hrest⟩ := h.displays hc
  exact ⟨entries, hd.shows h.storable.sound hp (h.storable.unblocked _ hc)
    (h.storable.present _ hc), hrest⟩

/-- Writing a document changes the map at its context only. -/
theorem written (h : Holds root t m) {c : Context} (hc : c.space.root = root) {entries : Object}
    (hp : (Value.object entries).Plain Json.nestingLimit) (hw : c.Written entries t t') :
    Holds root t' (fun c' => if c' = c then entries.get? else m c') := by
  refine of_displays hw.sound (fun n hn l hl x => ?_)
    (fun n hn hd => hw.present.of_root (hn.trans hc.symm) hd) (fun c' hc' => ?_)
    h.storable.bypassed fun c' hc' => ?_
  · obtain ⟨hpath, hdraft⟩ := h.storable.not_mem_way hc hn
    have hlp : l ≠ c.path.location := fun heq => hpath (heq ▸ hl)
    have hld : l ≠ c.draft.location := fun heq => hdraft (heq ▸ hl)
    rw [hw.place, if_neg hlp, if_neg hld]
    split
    · simp
    · exact h.storable.unblocked n hn l hl x
  · obtain ⟨-, hdraft⟩ := h.storable.not_mem_way hc' hc
    rw [hw.place, if_neg (Context.path_ne_draft _ _).symm, if_neg hdraft]
    split
    · simp
    · exact h.storable.drafts c' hc'
  · by_cases heq : c' = c
    · refine ⟨entries, heq ▸ hw.displays hp, hp, ?_⟩
      rw [if_pos heq]
    · obtain ⟨entries', hd, hrest⟩ := h.displays hc'
      have hplace := hw.place_other (Context.path_ne_path (hc'.trans hc.symm) heq)
        (Context.path_ne_draft _ _) (h.storable.not_mem_way hc' hc).1
      rw [if_neg heq]
      exact ⟨entries', hd.congr hplace, hrest⟩

/-- Erasing a namespace empties the map there and nowhere else. -/
theorem erased (h : Holds root t m) {n : Namespace} (hn : n.root = root) (hb : n.Bypassed)
    (hs : t'.Sound) (he : ∀ l, t'.entry? l = if n.home <+: l then none else t.entry? l) :
    Holds root t' (fun c => if c.space = n then fun _ => none else m c) := by
  refine of_displays hs (fun n' hn' l hl x => ?_) (fun n' hn' hd => ?_) (fun c hc => ?_)
    h.storable.bypassed fun c hc => ?_
  · rw [he]
    split
    · simp
    · exact h.storable.unblocked n' hn' l hl x
  · -- A namespace that is there still is another one, and the way to it is as it was.
    rw [he] at hd
    obtain ⟨hout, hd⟩ := Option.ite_none_left_eq_some.mp hd
    intro l hl
    have hl' : ¬ n.home <+: l := by
      obtain hm | rfl := Namespace.mem_way hl
      · exact hb l (hn'.trans hn.symm ▸ hm)
      · exact hout
    rw [he, if_neg hl', h.storable.present n' hn' hd l hl]
  · rw [he]
    split
    · simp
    · exact h.storable.drafts c hc
  · by_cases heq : c.space = n
    · refine ⟨[], .inl ⟨?_, rfl⟩, ⟨by decide, List.Pairwise.nil, trivial⟩, ?_⟩
      · rw [he, c.path_location, heq, if_pos (List.prefix_append _ _)]
      · rw [if_pos heq]
        rfl
    · obtain ⟨entries, hd, hrest⟩ := h.displays hc
      rw [if_neg heq]
      refine ⟨entries, hd.congr ?_, hrest⟩
      rw [he, if_neg]
      rw [c.path_location]
      exact fun hp => heq (Namespace.eq_of_home_isPrefix (hn.trans hc.symm) hp).symm

end Holds

/-! ## One request -/

namespace Holds

variable {root : Path} {d : Disk} {m : Contents} {c : Context} {n : Namespace} {key : String}

/-- What the requests that only look have in common: the document is loaded as the map has it, and
nothing changes. -/
theorem load (h : Holds root d.tree m) (hd : d.Faultless) (hc : c.space.root = root)
    (hp : c.path.Passable) :
    Attains c.load d (fun entries d' => d'.Faultless ∧ d'.tree = d.tree ∧
      (Value.object entries).Plain Json.nestingLimit ∧ entries.get? = m c) := by
  obtain ⟨entries, hs, hplain, hget⟩ := h.shows hc hp
  exact (Context.attains_load hd hs).imp
    fun _ d' h' => ⟨h'.1, h'.2.1, h'.2.2 ▸ hplain, h'.2.2 ▸ hget⟩

/-- A document is saved, and what it holds differs from the map at one key. -/
theorem save (h : Holds root d.tree m) (hd : d.Faultless) (hc : c.space.root = root)
    (hp : c.draft.Passable) {entries : Object} {v? : Option Value}
    (hplain : (Value.object entries).Plain Json.nestingLimit)
    (hget : ∀ k, entries.get? k = if k = key then v? else m c k) :
    Attains (c.save entries) d (fun _ d' => d'.Faultless ∧
      Holds root d'.tree (m.put c key v?)) := by
  refine (Context.attains_save_writable hd h.storable.sound (h.storable.unblocked _ hc)
    (h.storable.writable hc hp) entries).imp fun _ d' h' => ?_
  rw [← Contents.put_eq hget]
  exact ⟨h'.1, h.written hc hplain h'.2⟩

theorem set (h : Holds root d.tree m) (hd : d.Faultless) (hc : c.space.root = root)
    (hp : c.draft.Passable) {v : Value} (hv : v.Plain (Json.nestingLimit - 1)) :
    Attains (c.set key v) d (fun _ d' => d'.Faultless ∧
      Holds root d'.tree (m.put c key (some v))) := by
  unfold Context.set
  refine after_bind ((h.load hd hc (Context.passable_path hp)).imp fun entries d₁ h₁ => ?_)
  obtain ⟨hf, ht, hplain, hget⟩ := h₁
  refine (ht ▸ h : Holds root d₁.tree m).save hf hc hp (hplain.insert hv key) fun k => ?_
  rw [Dictionary.get?_insert, hget]

theorem delete (h : Holds root d.tree m) (hd : d.Faultless) (hc : c.space.root = root)
    (hp : c.draft.Passable) :
    Attains (c.delete key) d (fun b d' => d'.Faultless ∧ b = (m c key).isSome ∧
      Holds root d'.tree (m.put c key none)) := by
  unfold Context.delete
  refine after_bind ((h.load hd hc (Context.passable_path hp)).imp fun entries d₁ h₁ => ?_)
  obtain ⟨hf, ht, hplain, hget⟩ := h₁
  have hcontains : entries.contains key = (m c key).isSome := by
    rw [← hget]
    rfl
  rw [hcontains]
  split
  · next hsome =>
    refine after_bind (((ht ▸ h : Holds root d₁.tree m).save hf hc hp (hplain.erase key)
      fun k => ?_).imp fun _ d₂ h₂ => after_pure ⟨h₂.1, hsome.symm, h₂.2⟩)
    rw [Dictionary.get?_erase, hget]
  · next hnone =>
    have habsent : m c key = none := by simpa using hnone
    refine after_pure ⟨hf, by simp [habsent], ?_⟩
    rw [Contents.put_none habsent]
    exact ht ▸ h

theorem get? (h : Holds root d.tree m) (hd : d.Faultless) (hc : c.space.root = root)
    (hp : c.path.Passable) :
    Attains (c.get? Value key) d (fun v? d' => d'.Faultless ∧ d'.tree = d.tree ∧
      v? = m c key) := by
  unfold Context.get? Context.find?
  refine after_bind (after_bind ((h.load hd hc hp).imp fun entries d₁ h₁ => ?_))
  obtain ⟨hf, ht, hplain, hget⟩ := h₁
  refine after_pure ?_
  rw [← hget]
  cases hv : entries.get? key with
  | none => exact after_pure ⟨hf, ht, rfl⟩
  | some v =>
      dsimp only
      rw [Json.decodeValue_of_plain (hplain.get? hv)]
      exact after_bind (after_pure (after_pure ⟨hf, ht, rfl⟩))

theorem erase (h : Holds root d.tree m) (hd : d.Faultless) (hn : n.root = root)
    (hp : n.dir.Passable) (hb : n.Bypassed) :
    Attains n.erase d (fun _ d' => d'.Faultless ∧ Holds root d'.tree (m.after (.erase n))) :=
  (n.attains_erase hd h.storable.sound hp (h.storable.unblocked n hn)
    (h.storable.present n hn)).imp fun _ _ h' => ⟨h'.1, h.erased hn hb h'.2.1 h'.2.2⟩

/-- Each request is answered as the map has it, and the map is what is held afterwards. -/
theorem perform (h : Holds root d.tree m) (hd : d.Faultless) {r : StorageRequest}
    (hr : r.Below root) (hp : r.Feasible) :
    Attains r.perform d (fun a d' => d'.Faultless ∧ m.Answers r a ∧
      Holds root d'.tree (m.after r)) := by
  cases r with
  | set c key v =>
      exact after_bind ((h.set hd hr.1 hp hr.2).imp
        fun _ d' h' => after_pure ⟨h'.1, rfl, h'.2⟩)
  | delete c key =>
      exact after_bind ((h.delete hd hr hp).imp
        fun b d' h' => after_pure ⟨h'.1, congrArg _ h'.2.1, h'.2.2⟩)
  | get c key =>
      exact after_bind ((h.get? hd hr hp).imp
        fun v? d' h' => after_pure ⟨h'.1, congrArg _ h'.2.2, h'.2.1 ▸ h⟩)
  | has c key =>
      refine after_bind (after_bind ((h.load hd hr hp).imp
        fun entries d' h' => after_pure (after_pure ?_)))
      obtain ⟨hf, ht, -, hget⟩ := h'
      have hcontains : entries.contains key = (m c key).isSome := by
        rw [← hget]
        rfl
      exact ⟨hf, congrArg _ hcontains, ht ▸ h⟩
  | keys c =>
      refine after_bind (after_bind ((h.load hd hr hp).imp
        fun entries d' h' => after_pure (after_pure ?_)))
      obtain ⟨hf, ht, hplain, hget⟩ := h'
      refine ⟨hf, ⟨entries.keys, rfl, hplain.2.1.keys, fun key => ?_⟩, ht ▸ h⟩
      rw [Dictionary.mem_keys_iff, hget]
  | erase n =>
      exact after_bind ((h.erase hd hr hp.1 hp.2).imp
        fun _ d' h' => after_pure ⟨h'.1, rfl, h'.2⟩)

/-! ## All requests -/

theorem performAll (h : Holds root d.tree m) (hd : d.Faultless) {requests : List StorageRequest}
    (hr : ∀ r ∈ requests, r.Below root ∧ r.Feasible) :
    Attains (requests.mapM StorageRequest.perform) d (fun answers d' =>
      m.Explains requests answers ∧ Holds root d'.tree (requests.foldl Contents.after m)) := by
  induction requests generalizing d m with
  | nil => exact after_pure ⟨trivial, h⟩
  | cons r requests ih =>
      obtain ⟨⟨hbelow, hfeasible⟩, hrest⟩ := List.forall_mem_cons.mp hr
      rw [List.mapM_cons]
      refine after_bind ((h.perform hd hbelow hfeasible).imp fun a d₁ h₁ => ?_)
      obtain ⟨hf, ha, h₁⟩ := h₁
      exact after_bind ((ih h₁ hf hrest).imp
        fun answers d' h' => after_pure ⟨⟨ha, h'.1⟩, h'.2⟩)

end Holds

namespace Storable

/-- A straight root leads through none of its namespaces, and what is there can be reached. -/
theorem of_straight {root : Path} {t : Tree} (hstraight : root.Straight)
    (hs : t.Sound) (hunblocked : ∀ n : Namespace, n.root = root → n.Unblocked t)
    (hdocuments : ∀ c : Context, c.space.root = root →
      ∃ entries, c.Displays t entries ∧ (Value.object entries).FloatFree)
    (hdrafts : ∀ c : Context, c.space.root = root →
      t.entry? c.draft.location ≠ some .directory) :
    Storable root t ∧ ∀ n : Namespace, n.root = root → n.Bypassed := by
  have hway {l : Location} (hl : l ∈ root.way) : l <+: root.location :=
    Onward.isPrefix_of_mem_way hstraight hl
  refine ⟨⟨hs, hunblocked, fun n hn hd l hl => ?_, hdocuments, hdrafts, fun c hc => ?_⟩,
    fun n hn l hl hp => ?_⟩
  · obtain hl | rfl := Namespace.mem_way hl
    · have hhome : l <+: n.home :=
        n.home_eq ▸ (hway (hn ▸ hl)).trans (hn ▸ List.prefix_append _ _)
      by_cases heq : l = n.home
      · rw [heq, hd]
      · exact hs.above (by simp [hd]) hhome heq
    · exact hd
  · exact Context.bypassed_of_length fun l hl =>
      Nat.lt_of_le_of_lt (hway (hc ▸ hl)).length_le (hc ▸ Nat.lt_add_of_pos_right (by decide))
  · have hlength := (hp.trans (hway (hn ▸ hl))).length_le
    rw [n.length_home, hn] at hlength
    omega

/-- Where nothing is, anything can be held. -/
theorem storable_nil {root : Path} (h : ∀ l ∈ root.way, l.length < root.location.length + 2) :
    Storable root [] := by
  have hfile (l : Location) (x : Content) : Tree.entry? [] l ≠ some (.file x) := by
    unfold Tree.entry?
    split <;> simp
  have hnone {l : Location} (hl : isBase l = false) : Tree.entry? [] l = none :=
    Tree.entry?_of_not_isBase hl
  refine ⟨Tree.sound_nil, fun _ _ l _ => hfile l, fun n _ hd => ?_,
    fun c _ => ⟨[], .inl ⟨?_, rfl⟩, trivial⟩, fun c _ => ?_,
    fun c hc => Context.bypassed_of_length (hc ▸ h)⟩
  · rw [hnone n.home_isBase] at hd
    cases hd
  · rw [c.path_location, hnone (c.isFileName.isBase_concat _)]
  · rw [c.draft_location, hnone (c.draft_isFileName.isBase_concat _)]
    simp

/-- The storage is a map from contexts and keys to values: all requests are done, each is answered
as the map has it, and what the documents hold in the end is what the map has then. -/
theorem refines_map {root : Path} {d : Disk} {requests : List StorageRequest} (hd : d.Faultless)
    (ht : Storable root d.tree) (hr : ∀ r ∈ requests, r.Below root ∧ r.Feasible) :
    ∃ answers d', requests.mapM StorageRequest.perform d = .ok answers d' ∧
      (contents d.tree).Explains requests answers ∧ Storable root d'.tree ∧
      ∀ c : Context, c.space.root = root →
        contents d'.tree c = requests.foldl Contents.after (contents d.tree) c := by
  obtain ⟨answers, d', hok, hexplains, hholds⟩ := (ht.holds.performAll hd hr).exists_ok
  exact ⟨answers, d', hok, hexplains, hholds.storable, hholds.agrees⟩

/-- The context with a name in a namespace with a name. -/
def contextAt (root : String) (space name : StorageName) : Context := ⟨⟨⟨root⟩, space⟩, name⟩

/-- A value is set, looked at, forgotten together with its namespace, and looked for again. -/
def roundOfRequests (c : Context) : List StorageRequest :=
  [.set c "k" (.bool true), .get c "k", .keys c, .erase c.space, .has c "k", .delete c "k"]

/-- The root may begin at that of the system, and go back from where it has led. -/
theorem refines_map_of_round :
    let c := contextAt "/v/../s" ⟨"n", by decide⟩ ⟨"c", by decide⟩
    (Disk.Faultless {} ∧ Storable ⟨"/v/../s"⟩ [] ∧
      ∀ r ∈ roundOfRequests c, r.Below ⟨"/v/../s"⟩ ∧ r.Feasible) ∧
    ∃ answers d', (roundOfRequests c).mapM StorageRequest.perform {} = .ok answers d' ∧
      (contents []).Explains (roundOfRequests c) answers ∧ Storable ⟨"/v/../s"⟩ d'.tree ∧
      ∀ c' : Context, c'.space.root = ⟨"/v/../s"⟩ →
        contents d'.tree c' = (roundOfRequests c).foldl Contents.after (contents []) c' := by
  intro c
  have hd : Disk.Faultless {} := fun _ => rfl
  have ht : Storable ⟨"/v/../s"⟩ ({} : Disk).tree := storable_nil (by decide +kernel)
  have hspace : c.space.dir.Passable ∧ c.space.Bypassed :=
    ⟨⟨by decide, by decide, by decide +kernel⟩, by unfold Namespace.Bypassed; decide +kernel⟩
  have hpath : c.path.Passable := ⟨by decide, by decide, by decide +kernel⟩
  have hdraft : c.draft.Passable := ⟨by decide +kernel, by decide +kernel, by decide +kernel⟩
  have hr : ∀ r ∈ roundOfRequests c, r.Below ⟨"/v/../s"⟩ ∧ r.Feasible := by
    simp only [roundOfRequests, List.forall_mem_cons, List.not_mem_nil, false_implies,
      implies_true, and_true]
    exact ⟨⟨⟨rfl, trivial⟩, hdraft⟩, ⟨rfl, hpath⟩, ⟨rfl, hpath⟩, ⟨rfl, hspace⟩, ⟨rfl, hpath⟩,
      ⟨rfl, hdraft⟩⟩
  exact ⟨⟨hd, ht, hr⟩, refines_map hd ht hr⟩

/-- A name that fits a file, but not with an extension to it. -/
def longName : StorageName := ⟨String.ofList (List.replicate 250 'x'), by
  have hvalid : ∀ n, isStorageName (List.replicate (n + 1) 'x') = true := by
    intro n
    cases n <;> simp [isStorageName, List.replicate_succ, Text.isControl]
  rw [String.toList_ofList]
  exact hvalid 249⟩

theorem utf8ByteSize_longName : longName.text.utf8ByteSize = 250 := by
  have hsize : ∀ n, (String.ofList (List.replicate n 'x')).utf8ByteSize = n := by
    intro n
    induction n with
    | zero => rfl
    | succ n ih =>
        have hcons : String.ofList (List.replicate (n + 1) 'x') =
            "x" ++ String.ofList (List.replicate n 'x') := by
          rw [← String.toList_inj]
          simp [List.replicate_succ]
        rw [hcons, String.utf8ByteSize_append, ih, Nat.add_comm]
        rfl
  exact hsize 250

/-- A root that leads through one of its namespaces, which is erased while another is in use. -/
def requestsAcross : List StorageRequest :=
  let other := contextAt "b/n/.." ⟨"other", by decide⟩ ⟨"c", by decide⟩
  [.set other "k" (.bool true), .erase ⟨⟨"b/n/.."⟩, ⟨"n", by decide⟩⟩, .has other "k"]

/-- A root that leads through a missing directory, which is made when a value is set. -/
def requestsAround : List StorageRequest :=
  let c := contextAt "x/../b" ⟨"n", by decide⟩ ⟨"c", by decide⟩
  [.get c "k", .set (contextAt "x/../b" ⟨"other", by decide⟩ ⟨"c", by decide⟩) "k" (.bool true),
    .get c "k"]

/-- A document that cannot be reached as long as a directory on the way is missing. -/
def hidden : Tree :=
  [(["b"], .directory), (["b", "n"], .directory),
    (["b", "n", "c.json"], .file (.text "\x7b\"k\":true\x7d"))]

/-- A root that leads through the place of a document, where a directory is made when a value is set
for another one. -/
def requestsThrough : List StorageRequest :=
  [.set (contextAt "b/n/c.json/../.." ⟨"other", by decide⟩ ⟨"c", by decide⟩) "k" (.bool true),
    .get (contextAt "b/n/c.json/../.." ⟨"n", by decide⟩ ⟨"c", by decide⟩) "k"]

/-- Nothing is found where the namespaces below a root would be, their documents and the drafts. -/
def Vacant (root : Path) (t : Tree) : Prop :=
  (∀ n : Namespace, n.root = root → ∀ k, t.stat n.dir ≠ .ok k) ∧
    ∀ c : Context, c.space.root = root → ∀ k, t.stat c.path ≠ .ok k ∧ t.stat c.draft ≠ .ok k

/-- Nothing is found below a root that cannot be reached. -/
theorem vacant_of_locate {root : Path} {t : Tree} (htext : root.text ≠ "")
    (h : (t.locate root).toOption = none) : Vacant root t := by
  have hdir (n : Namespace) (hn : n.root = root) (l : Location) :
      t.locate n.dir ≠ .ok l := fun hl => by
    obtain ⟨hroot, -⟩ :=
      Path.directory_of_locate_join n.name.isFileName.slashless (hn ▸ htext) hl
    rw [← hn, hroot] at h
    cases h
  refine ⟨fun n hn k hk => hdir n hn _ (Tree.of_stat_eq_ok hk).1,
    fun c hc k => ⟨fun hk => ?_, fun hk => ?_⟩⟩
  · exact hdir _ hc _ (Path.directory_of_locate_join c.isFileName.slashless
      c.space.dir_text_ne_empty (Tree.of_stat_eq_ok hk).1).1
  · rw [Context.draft_eq] at hk
    exact hdir _ hc _ (Path.directory_of_locate_join c.draft_isFileName.slashless
      c.space.dir_text_ne_empty (Tree.of_stat_eq_ok hk).1).1

theorem exists_three {answers : List StorageAnswer} {p q r : Bool}
    (h : answers.map StorageAnswer.tells = [p, q, r]) :
    ∃ a b c, answers = [a, b, c] ∧ a.tells = p ∧ c.tells = r := by
  obtain ⟨a, _, rfl, ha, h⟩ := List.map_eq_cons_iff.mp h
  obtain ⟨b, _, rfl, -, h⟩ := List.map_eq_cons_iff.mp h
  obtain ⟨c, _, rfl, hc, h⟩ := List.map_eq_cons_iff.mp h
  obtain rfl := List.map_eq_nil_iff.mp h
  exact ⟨a, b, c, rfl, ha, hc⟩

/-- Elsewhere it is not: a name may have no room for the extensions of the draft, a root that leads
through one of its namespaces is lost with that namespace, a document can come to light with a
directory that is made on the way, and such a directory can be made in the place of a document. -/
theorem unexplained_of_crooked_path :
    (Storable ⟨"s"⟩ [] ∧ ∀ d', (contextAt "s" ⟨"n", by decide⟩ longName).set "k" (.bool true) {} ≠
      .ok () d') ∧
    (Storable ⟨"b/n/.."⟩ [] ∧ (∀ r ∈ requestsAcross, r.Below ⟨"b/n/.."⟩) ∧
      ∃ answers d', requestsAcross.mapM StorageRequest.perform {} = .ok answers d' ∧
        ∀ m : Contents, ¬ m.Explains requestsAcross answers) ∧
    (Vacant ⟨"x/../b"⟩ hidden ∧ (∀ r ∈ requestsAround, r.Below ⟨"x/../b"⟩) ∧
      ∃ answers d', requestsAround.mapM StorageRequest.perform { tree := hidden } = .ok answers d' ∧
        ∀ m : Contents, ¬ m.Explains requestsAround answers) ∧
    (Vacant ⟨"b/n/c.json/../.."⟩ [] ∧
      (∀ r ∈ requestsThrough, r.Below ⟨"b/n/c.json/../.."⟩) ∧
      ∀ answers d', requestsThrough.mapM StorageRequest.perform {} ≠ .ok answers d') := by
  refine ⟨⟨storable_nil (by decide +kernel), fun d' hok => ?_⟩,
    ⟨storable_nil (by decide +kernel), ?_, ?_⟩,
    ⟨vacant_of_locate (by decide) (by decide +kernel), ?_, ?_⟩,
    ⟨vacant_of_locate (by decide) (by decide +kernel), ?_, fun answers d' hok => ?_⟩⟩
  · have hsize := Context.size_le_of_set hok
    change longName.text.utf8ByteSize + 9 ≤ nameLimit at hsize
    rw [utf8ByteSize_longName] at hsize
    exact absurd hsize (by decide)
  · simp only [requestsAcross, List.forall_mem_cons, List.not_mem_nil, false_implies,
      implies_true, and_true]
    exact ⟨⟨rfl, trivial⟩, rfl, rfl⟩
  · have hrun : (outcome (requestsAcross.mapM StorageRequest.perform) {}).toOption.map
        (·.map StorageAnswer.tells) = some [false, false, false] := by decide +kernel
    obtain ⟨answers, hok, htold⟩ := exists_eq_ok_of_outcome hrun
    refine ⟨answers, _, hok, fun m hm => ?_⟩
    obtain ⟨a, b, e, rfl, -, he⟩ := exists_three htold
    -- The value is not found any more, but the map has it still.
    have hhas : e = .flag true := by
      simpa [requestsAcross, contextAt, Contents.Explains, Contents.Answers, Contents.after,
        Contents.put_self] using hm.2.2.1
    rw [hhas] at he
    cases he
  · simp only [requestsAround, List.forall_mem_cons, List.not_mem_nil, false_implies,
      implies_true, and_true]
    exact ⟨rfl, ⟨rfl, trivial⟩, rfl⟩
  · have hrun : (outcome (requestsAround.mapM StorageRequest.perform)
        { tree := hidden }).toOption.map (·.map StorageAnswer.tells) =
          some [false, false, true] := by decide +kernel
    obtain ⟨answers, hok, htold⟩ := exists_eq_ok_of_outcome hrun
    refine ⟨answers, _, hok, fun m hm => ?_⟩
    -- What is set in another namespace makes no difference to the map.
    obtain ⟨a, b, e, rfl, ha, he⟩ := exists_three htold
    have hsame : e = a := by
      simpa [Contents.Answers, Contents.after, Contents.put, contextAt] using
        hm.2.2.1.trans hm.1.symm
    rw [hsame, ha] at he
    cases he
  · simp only [requestsThrough, List.forall_mem_cons, List.not_mem_nil, false_implies,
      implies_true, and_true]
    exact ⟨⟨rfl, trivial⟩, rfl⟩
  · have hfails : succeeds (requestsThrough.mapM StorageRequest.perform) {} = false := by
      decide +kernel
    obtain ⟨e, hx⟩ := eq_error_of_not_succeeds hfails
    cases hok.symm.trans hx

end Storable

end DeviceBridge
