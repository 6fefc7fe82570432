import DeviceBridge.Dictionary

/-!
# DeviceBridge.Proofs.Dictionary

What the order of the keys gives a dictionary: each key stands once, so an entry is found exactly
when it is there (`mem_of_get?`, `get?_of_mem`), a dictionary is given by what is found in it
(`Ordered.ext`), and entering the entries of a dictionary one after the other gives it back
(`ofList_of_ordered`). Every operation keeps the order.
-/

namespace DeviceBridge

/-- Keys in a strict total order. -/
class KeyOrder (κ : Type) [LT κ] : Prop where
  trans : ∀ {a b c : κ}, a < b → b < c → a < c
  irrefl : ∀ a : κ, ¬ a < a
  total : ∀ {a b : κ}, a ≠ b → ¬ a < b → b < a

instance : KeyOrder String where
  trans := String.lt_trans
  irrefl := String.lt_irrefl
  total hne hlt := (Std.lt_trichotomy _ _).resolve_left hlt |>.resolve_left hne

instance : KeyOrder (List String) where
  trans := List.lt_trans
  irrefl := List.lt_irrefl
  total hne hlt := (Std.lt_trichotomy _ _).resolve_left hlt |>.resolve_left hne

namespace Dictionary

variable {κ α : Type} [DecidableEq κ]

instance [LT κ] [DecidableLT κ] (d : Dictionary κ α) : Decidable d.Ordered :=
  inferInstanceAs (Decidable (List.Pairwise _ _))

/-! ## Entries and the view -/

theorem mem_of_get? {d : Dictionary κ α} {k : κ} {v : α} (h : d.get? k = some v) : (k, v) ∈ d := by
  induction d with
  | nil => simp at h
  | cons e r ih =>
      obtain ⟨l, w⟩ := e
      rw [get?_cons] at h
      by_cases hkl : k = l
      · rw [if_pos hkl, Option.some.injEq] at h
        rw [hkl, h]
        exact List.mem_cons_self
      · rw [if_neg hkl] at h
        exact List.mem_cons_of_mem _ (ih h)

/-- What stands first is found. -/
theorem get?_append (d r : Dictionary κ α) (k : κ) :
    get? (d ++ r) k = (d.get? k).or (r.get? k) := by
  induction d with
  | nil => rfl
  | cons e d ih =>
      obtain ⟨l, v⟩ := e
      rw [List.cons_append, get?_cons, get?_cons, ih]
      split <;> rfl

/-- What is kept by its key alone is found as before. -/
theorem get?_filter (d : Dictionary κ α) (p : κ → Bool) (k : κ) :
    get? (d.filter fun e => p e.1) k = if p k then d.get? k else none := by
  induction d with
  | nil => simp
  | cons e r ih =>
      obtain ⟨l, w⟩ := e
      by_cases hl : p l = true
      · rw [List.filter_cons, if_pos hl, get?_cons, get?_cons, ih]
        by_cases hkl : k = l
        · simp [hkl, hl]
        · simp [hkl]
      · rw [List.filter_cons, if_neg hl, ih, get?_cons]
        by_cases hkl : k = l
        · simp [hkl, hl]
        · simp [hkl]

theorem contains_insert [LT κ] [DecidableLT κ] (d : Dictionary κ α) (k l : κ) (v : α) :
    (d.insert k v).contains l = (decide (l = k) || d.contains l) := by
  unfold contains
  rw [get?_insert]
  by_cases h : l = k <;> simp [h]

/-- An inserted entry, or one that was there before. -/
theorem mem_insert [LT κ] [DecidableLT κ] {d : Dictionary κ α} {k : κ} {v : α} {e : κ × α}
    (h : e ∈ d.insert k v) : e = (k, v) ∨ e ∈ d := by
  induction d with
  | nil => exact .inl (by simpa [insert] using h)
  | cons f r ih =>
      obtain ⟨l, w⟩ := f
      rw [insert] at h
      split at h
      · rcases List.mem_cons.mp h with h | h
        · exact .inl h
        · exact .inr (List.mem_cons_of_mem _ h)
      · split at h
        · rcases List.mem_cons.mp h with h | h
          · exact .inl h
          · exact .inr h
        · rcases List.mem_cons.mp h with h | h
          · exact .inr (h ▸ List.mem_cons_self)
          · exact (ih h).imp_right (List.mem_cons_of_mem _)

/-- What has been entered is there. -/
theorem contains_ofList [LT κ] [DecidableLT κ] (entries : List (κ × α)) (k : κ) :
    (ofList entries).contains k = true ↔ k ∈ entries.map Prod.fst := by
  have hfold (es : List (κ × α)) (d : Dictionary κ α) :
      contains (es.foldl (fun d e => d.insert e.1 e.2) d) k = true ↔
        d.contains k = true ∨ k ∈ es.map Prod.fst := by
    induction es generalizing d with
    | nil => simp
    | cons e es ih => simp [ih, contains_insert, or_assoc, or_left_comm]
  unfold ofList
  rw [hfold]
  simp [contains]

/-- The keys are those at which there is a value. -/
theorem mem_keys_iff {d : Dictionary κ α} {k : κ} : k ∈ d.keys ↔ (d.get? k).isSome := by
  induction d with
  | nil => simp [keys]
  | cons e r ih =>
      obtain ⟨l, v⟩ := e
      have hkeys : keys ((l, v) :: r) = l :: keys r := rfl
      rw [hkeys, List.mem_cons, ih, get?_cons]
      split
      · next hkl => simp [hkl]
      · next hkl => simp [hkl]

/-- What is inserted under a key that is not kept leaves what is kept. -/
theorem filter_insert [LT κ] [DecidableLT κ] {d : Dictionary κ α} {p : κ → Bool} {k : κ}
    (hk : p k = false) (v : α) :
    (d.insert k v).filter (fun e => p e.1) = d.filter fun e => p e.1 := by
  induction d with
  | nil => simp [insert, hk]
  | cons e r ih =>
      obtain ⟨l, w⟩ := e
      rw [insert]
      split
      · next hkl => simp [← hkl, hk]
      · split
        · simp [List.filter_cons, hk]
        · rw [List.filter_cons, List.filter_cons, ih]

/-- Entries that are inserted under other keys leave the value at a key. -/
theorem get?_foldl_insert_of_ne [LT κ] [DecidableLT κ] {f : κ × α → κ} {es d : Dictionary κ α}
    {k : κ} (h : ∀ e ∈ es, f e ≠ k) :
    get? (es.foldl (fun d e => d.insert (f e) e.2) d) k = d.get? k := by
  induction es generalizing d with
  | nil => rfl
  | cons e es ih =>
      rw [List.foldl_cons, ih fun e' he' => h e' (List.mem_cons_of_mem e he'), get?_insert,
        if_neg (h e List.mem_cons_self).symm]

/-- Of entries that are inserted, one that is alone in going to a key is found there. -/
theorem get?_foldl_insert_of_mem [LT κ] [DecidableLT κ] {f : κ × α → κ} {es d : Dictionary κ α}
    {e : κ × α} {k : κ} (he : e ∈ es) (hk : f e = k) (halone : ∀ e' ∈ es, f e' = k → e' = e) :
    get? (es.foldl (fun d e => d.insert (f e) e.2) d) k = some e.2 := by
  induction es generalizing d with
  | nil => cases he
  | cons e' es ih =>
      rw [List.foldl_cons]
      by_cases hmem : e ∈ es
      · exact ih hmem fun e₁ h₁ => halone e₁ (List.mem_cons_of_mem e' h₁)
      · obtain rfl : e = e' := (List.mem_cons.mp he).resolve_right hmem
        rw [get?_foldl_insert_of_ne fun e₁ h₁ heq =>
          hmem (halone e₁ (List.mem_cons_of_mem e h₁) heq ▸ h₁), get?_insert, if_pos hk.symm]

/-! ## The order -/

section
variable [LT κ] [KeyOrder κ]

/-- In an ordered dictionary each key stands once. -/
theorem get?_of_mem {d : Dictionary κ α} (h : d.Ordered) {k : κ} {v : α} (hm : (k, v) ∈ d) :
    d.get? k = some v := by
  induction d with
  | nil => simp at hm
  | cons e r ih =>
      obtain ⟨l, w⟩ := e
      obtain ⟨hlt, hr⟩ := List.pairwise_cons.mp h
      rw [get?_cons]
      rcases List.mem_cons.mp hm with heq | hmem
      · obtain ⟨rfl, rfl⟩ := Prod.mk.injEq .. ▸ heq
        rw [if_pos rfl]
      · have hne : k ≠ l := fun hkl => KeyOrder.irrefl l (hkl ▸ hlt _ hmem)
        rw [if_neg hne, ih hr hmem]

/-- Two ordered dictionaries in which the same is found are the same. -/
theorem Ordered.ext {d d' : Dictionary κ α} (h : d.Ordered) (h' : d'.Ordered)
    (hget : ∀ k, d.get? k = d'.get? k) : d = d' := by
  have hnodup {d : Dictionary κ α} (h : d.Ordered) : d.Nodup :=
    List.Pairwise.imp_of_mem (fun _ _ hlt heq => KeyOrder.irrefl _ (heq ▸ hlt)) h
  have hmem (e : κ × α) : e ∈ d ↔ e ∈ d' := by
    obtain ⟨k, v⟩ := e
    exact ⟨fun he => mem_of_get? ((hget k).symm.trans (get?_of_mem h he)),
      fun he => mem_of_get? ((hget k).trans (get?_of_mem h' he))⟩
  have hperm := (List.perm_ext_iff_of_nodup (hnodup h) (hnodup h')).mpr hmem
  refine hperm.eq_of_pairwise (fun a b _ _ hab hba => ?_) h h'
  exact absurd (KeyOrder.trans hab hba) (KeyOrder.irrefl _)

omit [DecidableEq κ] in
/-- The keys that stand before an entry are others. -/
theorem Ordered.ne_of_isPrefix {d gone : Dictionary κ α} {e : κ × α} (h : d.Ordered)
    (hp : gone ++ [e] <+: d) : ∀ f ∈ gone, f.1 ≠ e.1 := by
  intro f hf heq
  have hlt := (List.pairwise_append.mp (h.sublist hp.sublist)).2.2 f hf e List.mem_cons_self
  rw [heq] at hlt
  exact KeyOrder.irrefl _ hlt

omit [DecidableEq κ] [KeyOrder κ] in
theorem Ordered.keys {d : Dictionary κ α} (h : d.Ordered) : d.keys.Pairwise (· < ·) :=
  List.pairwise_map.mpr h

omit [DecidableEq κ] in
theorem Ordered.nodup_keys {d : Dictionary κ α} (h : d.Ordered) : (d.map Prod.fst).Nodup :=
  h.keys.imp fun {a b} (hlt : a < b) (heq : a = b) => KeyOrder.irrefl b (heq ▸ hlt)

variable [DecidableLT κ]

theorem Ordered.insert {d : Dictionary κ α} (h : d.Ordered) (k : κ) (v : α) :
    (d.insert k v).Ordered := by
  induction d with
  | nil => exact List.pairwise_singleton _ _
  | cons e r ih =>
      obtain ⟨l, w⟩ := e
      obtain ⟨hlt, hr⟩ := List.pairwise_cons.mp h
      rw [Dictionary.insert]
      split
      · next hkl => exact List.pairwise_cons.mpr ⟨fun e he => hkl ▸ hlt e he, hr⟩
      · next hkl =>
        split
        · next hk =>
          refine List.pairwise_cons.mpr ⟨fun e he => ?_, h⟩
          rcases List.mem_cons.mp he with rfl | he
          · exact hk
          · exact KeyOrder.trans hk (hlt e he)
        · next hk =>
          refine List.pairwise_cons.mpr ⟨fun e he => ?_, ih hr⟩
          rcases mem_insert he with rfl | he
          · exact KeyOrder.total hkl hk
          · exact hlt e he

/-- A key beyond all others goes to the end. -/
theorem insert_of_forall_lt {d : Dictionary κ α} {k : κ} (v : α) (h : ∀ e ∈ d, e.1 < k) :
    d.insert k v = d ++ [(k, v)] := by
  induction d with
  | nil => rfl
  | cons e r ih =>
      obtain ⟨l, w⟩ := e
      have hlk : l < k := h (l, w) List.mem_cons_self
      have hne : k ≠ l := fun hkl => KeyOrder.irrefl l (hkl ▸ hlk)
      have hnlt : ¬ k < l := fun hkl => KeyOrder.irrefl l (KeyOrder.trans hlk hkl)
      rw [insert, if_neg hne, if_neg hnlt, ih fun e he => h e (List.mem_cons_of_mem _ he)]
      rfl

/-- Entering what lies beyond all that has been entered only appends it. -/
theorem foldl_insert_of_ordered (d r : Dictionary κ α) (h : Ordered (d ++ r)) :
    r.foldl (fun d e => d.insert e.1 e.2) d = d ++ r := by
  induction r generalizing d with
  | nil => simp
  | cons e r ih =>
      have hlt : ∀ f ∈ d, f.1 < e.1 := fun f hf =>
        (List.pairwise_append.mp h).2.2 f hf e List.mem_cons_self
      have happ : d ++ e :: r = d ++ [e] ++ r := by simp
      rw [List.foldl_cons, insert_of_forall_lt e.2 hlt, ih (d ++ [(e.1, e.2)]) (happ ▸ h), happ]

theorem ofList_of_ordered {d : Dictionary κ α} (h : d.Ordered) : ofList d = d := by
  rw [ofList, foldl_insert_of_ordered [] d h, List.nil_append]

theorem ordered_ofList (entries : List (κ × α)) : (ofList entries).Ordered := by
  have hfold : ∀ (es : List (κ × α)) (d : Dictionary κ α), d.Ordered →
      (es.foldl (fun d e => d.insert e.1 e.2) d).Ordered := by
    intro es
    induction es with
    | nil => exact fun d h => h
    | cons e es ih => exact fun d h => ih _ (h.insert e.1 e.2)
  exact hfold entries [] List.Pairwise.nil

omit [KeyOrder κ] in
/-- Whatever has been entered was among the pairs. -/
theorem mem_of_mem_ofList {entries : List (κ × α)} {e : κ × α} (h : e ∈ ofList entries) :
    e ∈ entries := by
  have hfold : ∀ (es : List (κ × α)) (d : Dictionary κ α),
      e ∈ es.foldl (fun d e => d.insert e.1 e.2) d → e ∈ d ∨ e ∈ es := by
    intro es
    induction es with
    | nil => exact fun d h => .inl h
    | cons f es ih =>
        intro d h
        rcases ih _ h with h | h
        · rcases mem_insert h with rfl | h
          · exact .inr List.mem_cons_self
          · exact .inl h
        · exact .inr (List.mem_cons_of_mem f h)
  exact (hfold entries [] h).resolve_left List.not_mem_nil

omit [KeyOrder κ] in
/-- A new key adds its entry to the others. -/
theorem perm_insert {d : Dictionary κ α} {k : κ} (h : k ∉ d.map Prod.fst) (v : α) :
    (d.insert k v).Perm ((k, v) :: d) := by
  induction d with
  | nil => exact .refl _
  | cons e r ih =>
      obtain ⟨l, w⟩ := e
      simp only [List.map_cons, List.mem_cons, not_or] at h
      rw [insert, if_neg h.1]
      split
      · exact .refl _
      · exact ((ih h.2).cons _).trans (.swap _ _ _)

omit [KeyOrder κ] in
/-- Pairs under different keys are all entered. -/
theorem perm_ofList {entries : List (κ × α)} (h : (entries.map Prod.fst).Nodup) :
    (ofList entries).Perm entries := by
  have hfold : ∀ (es : List (κ × α)) (d : Dictionary κ α), ((es ++ d).map Prod.fst).Nodup →
      (es.foldl (fun d e => d.insert e.1 e.2) d).Perm (es ++ d) := by
    intro es
    induction es with
    | nil => exact fun d _ => .refl _
    | cons e es ih =>
        intro d hd
        have hmiddle : (e :: es ++ d).Perm (es ++ e :: d) := List.perm_middle.symm
        have hnodup := (hmiddle.map Prod.fst).nodup_iff.mp hd
        have hnew : e.1 ∉ d.map Prod.fst := by
          rw [List.map_append, List.map_cons] at hnodup
          exact (List.nodup_cons.mp (List.nodup_append.mp hnodup).2.1).1
        have hinsert := perm_insert hnew e.2
        refine (ih _ (((hinsert.append_left es).map Prod.fst).nodup_iff.mpr hnodup)).trans ?_
        exact (hinsert.append_left es).trans hmiddle.symm
  have hall := hfold entries [] (by rwa [List.append_nil])
  rwa [List.append_nil] at hall

/-- Whatever the order in which the entries of a dictionary are entered, they make up the
dictionary. -/
theorem ofList_of_perm {d : Dictionary κ α} (h : d.Ordered) {entries : List (κ × α)}
    (hp : entries.Perm d) : ofList entries = d := by
  have hnodup := (hp.map Prod.fst).nodup_iff.mpr h.nodup_keys
  refine ((perm_ofList hnodup).trans hp).eq_of_pairwise (fun a b _ _ hab hba => ?_)
    (ordered_ofList entries) h
  exact absurd (KeyOrder.trans hab hba) (KeyOrder.irrefl _)

end

end Dictionary

end DeviceBridge
