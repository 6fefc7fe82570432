import DeviceBridge.Proofs.Json.Exact

/-!
# DeviceBridge.Proofs.Json.Lasting

Values that last and values that endure. A value lasts (`Value.Lasting`) if it is read back, as a
member of a document, as it was written; a plain value does that is nested one level less than a
document may be. It endures (`Value.Enduring`) if it remains a value however often the document is
read and written anew, as a double does that becomes a neighbour. An object of values that endure is
read back (`exists_readValue_pretty`), and one with a value that is not read back is lost
(`not_readValue_pretty`).
-/

namespace DeviceBridge.Json

/-- A value that is read back, as a member of a document, as it was written. -/
def Value.Lasting (v : Value) : Prop := v.reread 1 = some v

/-- What becomes of a value while the document that it is a member of is written and read a number
of times. -/
def Value.rereadTimes : Nat → Value → Option Value
  | 0, v => some v
  | n + 1, v => (v.reread 1).bind (rereadTimes n)

/-- A value that remains one however often its document is written and read. -/
def Value.Enduring (v : Value) : Prop := ∀ n, (v.rereadTimes n).isSome

/-- A value that its written form denotes: its doubles are finite, and the keys of each object in it
ascend. -/
def Value.Denotable (v : Value) : Prop := v.toDocument.toValue? = some v

/-! ## What documents denote -/

theorem toMembers?_of_denotable {ms : List (String × Value)} (h : ∀ e ∈ ms, e.2.Denotable) :
    Document.toMembers? (Value.toEntries ms) = some ms := by
  induction ms with
  | nil => rfl
  | cons e ms ih =>
      obtain ⟨k, v⟩ := e
      obtain ⟨hv, hms⟩ := List.forall_mem_cons.mp h
      have hv : v.toDocument.toValue? = some v := hv
      rw [Value.toEntries, Document.toMembers?, hv, ih hms]
      rfl

theorem toMembers?_of_reread {ms : List (String × Value)} (h : ∀ e ∈ ms, (e.2.reread 1).isSome) :
    (Document.toMembers? (Document.rereadMembers 1 (Value.toEntries ms))).isSome := by
  induction ms with
  | nil => rfl
  | cons e ms ih =>
      obtain ⟨k, v⟩ := e
      obtain ⟨hv, hms⟩ := List.forall_mem_cons.mp h
      obtain ⟨w, hw⟩ := Option.isSome_iff_exists.mp hv
      obtain ⟨ns, hns⟩ := Option.isSome_iff_exists.mp (ih hms)
      have hw : (v.toDocument.reread 1).toValue? = some w := hw
      rw [Value.toEntries, Document.rereadMembers, Document.toMembers?, hw, hns]
      rfl

theorem toMembers?_of_not_reread {ms : List (String × Value)} {e : String × Value} (he : e ∈ ms)
    (h : e.2.reread 1 = none) :
    Document.toMembers? (Document.rereadMembers 1 (Value.toEntries ms)) = none := by
  induction ms with
  | nil => cases he
  | cons e' ms ih =>
      obtain ⟨k, v⟩ := e'
      rw [Value.toEntries, Document.rereadMembers, Document.toMembers?]
      obtain rfl | he := List.mem_cons.mp he
      · have h : (v.toDocument.reread 1).toValue? = none := h
        rw [h]
        rfl
      · rw [ih he]
        cases (v.toDocument.reread 1).toValue? <;> rfl

mutual

/-- Whatever a document denotes can be denoted. -/
theorem denotable_of_toValue? {d : Document} {v : Value} (h : d.toValue? = some v) :
    v.Denotable := by
  cases d with
  | unrepresentable => contradiction
  | null | bool b | string s =>
      obtain rfl := Option.some.inj h
      rfl
  | number n =>
      cases n with
      | integer i =>
          obtain rfl := Option.some.inj h
          rfl
      | float x =>
          rw [Document.toValue?, Option.some.injEq] at h
          subst h
          unfold Value.Denotable
          split
          · next hx => rw [Value.toDocument, Document.toValue?, if_pos hx]
          · rfl
  | array items =>
      rw [Document.toValue?, Option.map_eq_some_iff] at h
      obtain ⟨vs, hvs, rfl⟩ := h
      unfold Value.Denotable
      rw [Value.toDocument, Document.toValue?, toValues?_of_toValues? hvs]
      rfl
  | object members =>
      rw [Document.toValue?, Option.map_eq_some_iff] at h
      obtain ⟨ms, hms, rfl⟩ := h
      have hmembers := toMembers?_of_denotable fun e he =>
        denotable_of_toMembers? hms e (Dictionary.mem_of_mem_ofList he)
      unfold Value.Denotable
      rw [Value.toDocument, Document.toValue?, hmembers, Option.map_some,
        Dictionary.ofList_of_ordered (Dictionary.ordered_ofList ms)]

theorem toValues?_of_toValues? {ds : List Document} {vs : List Value}
    (h : Document.toValues? ds = some vs) :
    Document.toValues? (Value.toDocuments vs) = some vs := by
  cases ds with
  | nil =>
      obtain rfl := Option.some.inj h
      rfl
  | cons d ds =>
      simp only [Document.toValues?, Option.bind_eq_bind, Option.bind_eq_some_iff, pure,
        Option.some.injEq] at h
      obtain ⟨v, hv, ws, hws, rfl⟩ := h
      have hv : v.toDocument.toValue? = some v := denotable_of_toValue? hv
      rw [Value.toDocuments, Document.toValues?, hv, toValues?_of_toValues? hws]
      rfl

theorem denotable_of_toMembers? {ds : List (Option String × Document)} {ms : List (String × Value)}
    (h : Document.toMembers? ds = some ms) : ∀ e ∈ ms, e.2.Denotable := by
  cases ds with
  | nil =>
      obtain rfl := Option.some.inj h
      simp
  | cons d ds =>
      obtain ⟨k, d⟩ := d
      simp only [Document.toMembers?, Option.bind_eq_bind, Option.bind_eq_some_iff, pure,
        Option.some.injEq] at h
      obtain ⟨l, -, v, hv, ns, hns, rfl⟩ := h
      exact List.forall_mem_cons.mpr ⟨denotable_of_toValue? hv, denotable_of_toMembers? hns⟩

end

theorem denotable_of_readValue {text : String} {v : Value} (h : readValue text = .ok v) :
    v.Denotable := by
  unfold readValue at h
  split at h
  · contradiction
  · split at h
    · next hv => exact denotable_of_toValue? (Except.ok.inj h ▸ hv)
    · contradiction

namespace Value

/-- In an object that can be denoted the keys ascend, and so they do in each object in it. -/
theorem Denotable.object {ms : Object} (h : (object ms).Denotable) :
    ms.Ordered ∧ ∀ e ∈ ms, e.2.Denotable := by
  unfold Denotable at h
  rw [toDocument, Document.toValue?, Option.map_eq_some_iff] at h
  obtain ⟨ns, hns, heq⟩ := h
  obtain rfl := Value.object.inj heq
  exact ⟨Dictionary.ordered_ofList ns,
    fun e he => denotable_of_toMembers? hns e (Dictionary.mem_of_mem_ofList he)⟩

theorem Lasting.denotable {v : Value} (h : v.Lasting) : v.Denotable := denotable_of_toValue? h

theorem Enduring.isSome_reread {v : Value} (h : v.Enduring) : (v.reread 1).isSome := by
  have hone := h 1
  rw [rereadTimes, Option.isSome_bind] at hone
  exact Option.isSome_of_any hone

/-- What is read back of a value that endures endures. -/
theorem Enduring.of_reread {v w : Value} (h : v.Enduring) (hw : v.reread 1 = some w) :
    w.Enduring := fun n => by
  have hnext := h (n + 1)
  rw [rereadTimes, hw] at hnext
  exact hnext

/-- A value that lasts endures. -/
theorem Lasting.enduring {v : Value} (h : v.Lasting) : v.Enduring := fun n => by
  have hsame : v.rereadTimes n = some v := by
    induction n with
    | zero => rfl
    | succ n ih =>
        have h : v.reread 1 = some v := h
        rw [rereadTimes, h]
        exact ih
  rw [hsame]
  rfl

/-- A plain value lasts if the document around it is not nested too deeply. -/
theorem Plain.lasting {v : Value} (h : v.Plain (nestingLimit - 1)) : v.Lasting := by
  unfold Lasting reread
  rw [reread_toDocument h (by decide), toValue?_toDocument h]

end Value

/-! ## Reading back -/

/-- An object of values that endure is read back as one, with what is read back of each value. -/
theorem exists_readValue_pretty {ms : Object} (hms : ms.Ordered) (h : ∀ e ∈ ms, e.2.Enduring) :
    ∃ ns : Object, readValue (Value.object ms).pretty = .ok (.object ns) ∧
      (∀ e ∈ ns, e.2.Enduring) ∧ ∀ k, ns.get? k = (ms.get? k).bind (Value.reread 1) := by
  have hread : read (Value.object ms).pretty =
      .ok (.object (Document.rereadMembers 1 (Value.toEntries ms))) := read_pretty _
  have hsome := toMembers?_of_reread fun e he => (h e he).isSome_reread
  obtain ⟨ns, hns⟩ := Option.isSome_iff_exists.mp hsome
  have hok : ∃ v, readValue (Value.object ms).pretty = .ok v := by
    unfold readValue
    rw [hread]
    dsimp only
    rw [Document.toValue?, hns]
    exact ⟨_, rfl⟩
  obtain ⟨v, hv⟩ := hok
  obtain ⟨ns, rfl, hordered, hget⟩ := readValue_pretty hms hv
  refine ⟨ns, hv, fun e he => ?_, hget⟩
  obtain ⟨w, hw, hreread⟩ := Option.bind_eq_some_iff.mp
    ((hget e.1).symm.trans (Dictionary.get?_of_mem hordered he))
  exact (h _ (Dictionary.mem_of_get? hw)).of_reread hreread

/-- An object with a value that is not read back is not read back itself. -/
theorem not_readValue_pretty {ms : Object} {k : String} {v : Value} (hk : ms.get? k = some v)
    (hv : v.reread 1 = none) (w : Value) : readValue (Value.object ms).pretty ≠ .ok w := by
  have hread : read (Value.object ms).pretty =
      .ok (.object (Document.rereadMembers 1 (Value.toEntries ms))) := read_pretty _
  have hnone := toMembers?_of_not_reread (Dictionary.mem_of_get? hk) hv
  unfold readValue
  rw [hread]
  dsimp only
  rw [Document.toValue?, hnone]
  nofun

theorem decodeValue_of_denotable {v : Value} (h : v.Denotable) :
    (decodeValue v : Except Error Value) = .ok v := by
  have hv : v.toDocument.toValue? = some v := h
  unfold decodeValue
  simp only [decode, hv]

end DeviceBridge.Json
