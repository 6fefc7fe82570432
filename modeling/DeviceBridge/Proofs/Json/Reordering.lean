import DeviceBridge.Proofs.Json.Compact
import DeviceBridge.Proofs.Json.Exact

/-!
# DeviceBridge.Proofs.Json.Reordering

Documents that say the same, the members of each object in any order (`Document.Reordered`). What a
document says is a value as soon as it is plain (`Document.Plain`): then the value's own document
only differs from it in the order of the members (`Document.Plain.exists_toValue?`), the text of
either is read back as it is (`Document.Plain.read_compact`), and all of them denote the same value
(`Value.Plain.toValue?_of_reordered`).
-/

namespace DeviceBridge.Json

/-! ## Kinds of documents -/

namespace Document

mutual

/-- A document without doubles. -/
def FloatFree : Document → Prop
  | number (.float _) => False
  | array items => FloatFreeItems items
  | object members => FloatFreeMembers members
  | _ => True

def FloatFreeItems : List Document → Prop
  | [] => True
  | d :: ds => FloatFree d ∧ FloatFreeItems ds

def FloatFreeMembers : List (Option String × Document) → Prop
  | [] => True
  | (_, d) :: ms => FloatFree d ∧ FloatFreeMembers ms

end

mutual

/-- A document without doubles, nested within a number of levels, of which all parts denote values;
the keys of each object are texts and stand once. -/
def Plain (levels : Nat) : Document → Prop
  | unrepresentable | number (.float _) => False
  | array items => 0 < levels ∧ PlainItems (levels - 1) items
  | object members =>
    0 < levels ∧ (members.map Prod.fst).Nodup ∧ PlainMembers (levels - 1) members
  | _ => True

def PlainItems (levels : Nat) : List Document → Prop
  | [] => True
  | d :: ds => Plain levels d ∧ PlainItems levels ds

def PlainMembers (levels : Nat) : List (Option String × Document) → Prop
  | [] => True
  | (k, d) :: ms => k.isSome ∧ Plain levels d ∧ PlainMembers levels ms

end

mutual

/-- Whether a document only differs from another in the order of the members of its objects. -/
def Reordered : Document → Document → Prop
  | array items, e => ∃ items', e = array items' ∧ ReorderedItems items items'
  | object members, e =>
    ∃ members' ms, e = object ms ∧ ReorderedMembers members members' ∧ members'.Perm ms
  | d, e => e = d

def ReorderedItems : List Document → List Document → Prop
  | [], es => es = []
  | d :: ds, es => ∃ e r, es = e :: r ∧ Reordered d e ∧ ReorderedItems ds r

def ReorderedMembers :
    List (Option String × Document) → List (Option String × Document) → Prop
  | [], ns => ns = []
  | (k, d) :: ms, ns => ∃ e r, ns = (k, e) :: r ∧ Reordered d e ∧ ReorderedMembers ms r

end

theorem floatFreeItems_iff {ds : List Document} : FloatFreeItems ds ↔ ∀ d ∈ ds, d.FloatFree := by
  induction ds with
  | nil => simp [FloatFreeItems]
  | cons d ds ih => simp [FloatFreeItems, ih]

theorem floatFreeMembers_iff {ms : List (Option String × Document)} :
    FloatFreeMembers ms ↔ ∀ m ∈ ms, m.2.FloatFree := by
  induction ms with
  | nil => simp [FloatFreeMembers]
  | cons m ms ih => simp [FloatFreeMembers, ih]

theorem plainItems_iff {levels : Nat} {ds : List Document} :
    PlainItems levels ds ↔ ∀ d ∈ ds, d.Plain levels := by
  induction ds with
  | nil => simp [PlainItems]
  | cons d ds ih => simp [PlainItems, ih]

theorem plainMembers_iff {levels : Nat} {ms : List (Option String × Document)} :
    PlainMembers levels ms ↔ ∀ m ∈ ms, m.1.isSome ∧ m.2.Plain levels := by
  induction ms with
  | nil => simp [PlainMembers]
  | cons m ms ih => simp [PlainMembers, ih, and_assoc]

mutual

theorem Reordered.refl (d : Document) : d.Reordered d := by
  cases d with
  | array items => exact ⟨items, rfl, reorderedItems_refl items⟩
  | object members => exact ⟨members, members, rfl, reorderedMembers_refl members, .refl _⟩
  | unrepresentable | null | bool b | number n | string s => rfl

theorem reorderedItems_refl (ds : List Document) : ReorderedItems ds ds := by
  cases ds with
  | nil => rfl
  | cons d ds => exact ⟨d, ds, rfl, Reordered.refl d, reorderedItems_refl ds⟩

theorem reorderedMembers_refl (ms : List (Option String × Document)) : ReorderedMembers ms ms := by
  cases ms with
  | nil => rfl
  | cons m ms => exact ⟨m.2, ms, rfl, Reordered.refl m.2, reorderedMembers_refl ms⟩

end

theorem eq_null_of_reordered {d : Document} (h : d.Reordered null) : d = null := by
  cases d with
  | array items =>
      obtain ⟨_, h, -⟩ := h
      cases h
  | object members =>
      obtain ⟨_, _, h, -⟩ := h
      cases h
  | unrepresentable | null | bool b | number n | string s => exact h.symm

theorem map_fst_of_reorderedMembers {ms ns : List (Option String × Document)}
    (h : ReorderedMembers ms ns) : ns.map Prod.fst = ms.map Prod.fst := by
  induction ms generalizing ns with
  | nil =>
      obtain rfl := h
      rfl
  | cons m ms ih =>
      obtain ⟨e, r, rfl, -, hr⟩ := h
      simp [ih hr]

/-- A plain document that is no array and no object is plain anywhere. -/
theorem Plain.of_zero {d : Document} (h : d.Plain 0) (levels : Nat) : d.Plain levels := by
  cases d with
  | array items | object members => exact absurd h.1 (Nat.lt_irrefl 0)
  | number n => cases n <;> exact h
  | unrepresentable => exact h
  | null | bool b | string s => trivial

/-- Only the members of objects have an order. -/
theorem Plain.eq_of_reordered {d e : Document} (h : d.Plain 0) (he : d.Reordered e) : e = d := by
  cases d with
  | array items | object members => exact absurd h.1 (Nat.lt_irrefl 0)
  | unrepresentable | null | bool b | number n | string s => exact he

mutual

/-- The order of members is of no importance for being plain. -/
theorem Plain.of_reordered {levels : Nat} {d e : Document} (h : d.Plain levels)
    (he : d.Reordered e) : e.Plain levels := by
  cases d with
  | array items =>
      obtain ⟨items', rfl, hitems⟩ := he
      exact ⟨h.1, plainItems_of_reordered h.2 hitems⟩
  | object members =>
      obtain ⟨members', ms, rfl, hmembers, hperm⟩ := he
      obtain ⟨hpos, hnodup, hplain⟩ := h
      rw [← map_fst_of_reorderedMembers hmembers, (hperm.map _).nodup_iff] at hnodup
      have hplain' := plainMembers_iff.mp (plainMembers_of_reordered hplain hmembers)
      exact ⟨hpos, hnodup, plainMembers_iff.mpr fun m hm => hplain' m (hperm.mem_iff.mpr hm)⟩
  | unrepresentable | null | bool b | number n | string s =>
      obtain rfl := he
      exact h

theorem plainItems_of_reordered {levels : Nat} {ds es : List Document} (h : PlainItems levels ds)
    (he : ReorderedItems ds es) : PlainItems levels es := by
  cases ds with
  | nil =>
      obtain rfl := he
      trivial
  | cons d ds =>
      obtain ⟨e, r, rfl, he, hr⟩ := he
      exact ⟨h.1.of_reordered he, plainItems_of_reordered h.2 hr⟩

theorem plainMembers_of_reordered {levels : Nat} {ms ns : List (Option String × Document)}
    (h : PlainMembers levels ms) (hn : ReorderedMembers ms ns) : PlainMembers levels ns := by
  cases ms with
  | nil =>
      obtain rfl := hn
      trivial
  | cons m ms =>
      obtain ⟨e, r, rfl, he, hr⟩ := hn
      exact ⟨h.1, h.2.1.of_reordered he, plainMembers_of_reordered h.2.2 hr⟩

end

/-! ## Reading a plain document back -/

mutual

theorem Plain.reread_eq {levels depth : Nat} {d : Document} (h : d.Plain levels)
    (hd : depth + levels ≤ nestingLimit) : d.reread depth = d := by
  cases d with
  | unrepresentable => exact h.elim
  | null | bool b | string s => rfl
  | number n =>
      cases n with
      | integer i => rfl
      | float x => exact h.elim
  | array items =>
      obtain ⟨hpos, hitems⟩ := h
      rw [reread, if_pos (by omega), rereadItems_of_plain hitems (by omega)]
  | object members =>
      obtain ⟨hpos, -, hmembers⟩ := h
      rw [reread, if_pos (by omega), rereadMembers_of_plain hmembers (by omega)]

theorem rereadItems_of_plain {levels depth : Nat} {ds : List Document} (h : PlainItems levels ds)
    (hd : depth + levels ≤ nestingLimit) : rereadItems depth ds = ds := by
  cases ds with
  | nil => rfl
  | cons d ds => rw [rereadItems, h.1.reread_eq hd, rereadItems_of_plain h.2 hd]

theorem rereadMembers_of_plain {levels depth : Nat} {ms : List (Option String × Document)}
    (h : PlainMembers levels ms) (hd : depth + levels ≤ nestingLimit) :
    rereadMembers depth ms = ms := by
  cases ms with
  | nil => rfl
  | cons m ms =>
      obtain ⟨k, d⟩ := m
      obtain ⟨hk, hd', hms⟩ := h
      obtain ⟨s, rfl⟩ := Option.isSome_iff_exists.mp hk
      rw [rereadMembers, hd'.reread_eq hd, rereadMembers_of_plain hms hd, Option.getD_some]

end

/-- The text of a plain document within the limit is read back as the document. -/
theorem Plain.read_compact {d : Document} (h : d.Plain nestingLimit) : read d.compact = .ok d := by
  rw [Json.read_compact, h.reread_eq (by omega)]

end Document

/-! ## What a plain document denotes -/

namespace Value

theorem toEntries_eq_map (ms : List (String × Value)) :
    toEntries ms = ms.map fun e => (some e.1, e.2.toDocument) := by
  induction ms with
  | nil => rfl
  | cons e ms ih => rw [toEntries, ih, List.map_cons]

end Value

namespace Document

theorem keys_of_toMembers?_some {ms : List (Option String × Document)} {vs : List (String × Value)}
    (h : toMembers? ms = some vs) : ms.map Prod.fst = (vs.map Prod.fst).map some := by
  induction ms generalizing vs with
  | nil =>
      obtain rfl := Option.some.inj h
      rfl
  | cons m ms ih =>
      obtain ⟨k, d⟩ := m
      simp only [toMembers?, Option.bind_eq_bind, Option.bind_eq_some_iff, pure, Option.some.injEq]
        at h
      obtain ⟨l, rfl, v, -, ws, hws, rfl⟩ := h
      simp [ih hws]

mutual

/-- A plain document denotes a value, whose own document only differs in the order of the
members. -/
theorem Plain.exists_toValue? {levels : Nat} {d : Document} (h : d.Plain levels) :
    ∃ v, d.toValue? = some v ∧ d.Reordered v.toDocument := by
  cases d with
  | unrepresentable => exact h.elim
  | null => exact ⟨.null, rfl, rfl⟩
  | bool b => exact ⟨.bool b, rfl, rfl⟩
  | string s => exact ⟨.string s, rfl, rfl⟩
  | number n =>
      cases n with
      | integer i => exact ⟨.number (.integer i), rfl, rfl⟩
      | float x => exact h.elim
  | array items =>
      obtain ⟨vs, hvs, hitems⟩ := exists_toValues? h.2
      exact ⟨.array vs, by rw [toValue?, hvs]; rfl, _, rfl, hitems⟩
  | object members =>
      obtain ⟨-, hnodup, hmembers⟩ := h
      obtain ⟨vs, hvs, hentries⟩ := exists_toMembers? hmembers
      rw [keys_of_toMembers?_some hvs] at hnodup
      have hperm := Dictionary.perm_ofList ((List.pairwise_map.mp hnodup).imp
        fun hne heq => hne (congrArg some heq))
      refine ⟨.object (Dictionary.ofList vs), by rw [toValue?, hvs]; rfl, _, _, rfl, hentries, ?_⟩
      rw [Value.toEntries_eq_map, Value.toEntries_eq_map]
      exact hperm.symm.map _

theorem exists_toValues? {levels : Nat} {ds : List Document} (h : PlainItems levels ds) :
    ∃ vs, toValues? ds = some vs ∧ ReorderedItems ds (Value.toDocuments vs) := by
  cases ds with
  | nil => exact ⟨[], rfl, rfl⟩
  | cons d ds =>
      obtain ⟨v, hv, hd⟩ := h.1.exists_toValue?
      obtain ⟨vs, hvs, hds⟩ := exists_toValues? h.2
      exact ⟨v :: vs, by rw [toValues?, hv, hvs]; rfl, _, _, rfl, hd, hds⟩

theorem exists_toMembers? {levels : Nat} {ms : List (Option String × Document)}
    (h : PlainMembers levels ms) :
    ∃ vs, toMembers? ms = some vs ∧ ReorderedMembers ms (Value.toEntries vs) := by
  cases ms with
  | nil => exact ⟨[], rfl, rfl⟩
  | cons m ms =>
      obtain ⟨k, d⟩ := m
      obtain ⟨hk, hd, hms⟩ := h
      obtain ⟨s, rfl⟩ := Option.isSome_iff_exists.mp hk
      obtain ⟨v, hv, hd⟩ := hd.exists_toValue?
      obtain ⟨vs, hvs, hms⟩ := exists_toMembers? hms
      exact ⟨(s, v) :: vs, by rw [toMembers?, hv, hvs]; rfl, _, _, rfl, hd, hms⟩

end

theorem toMembers?_of_perm {ms ns : List (Option String × Document)} (hp : ms.Perm ns)
    {vs : List (String × Value)} (h : toMembers? ms = some vs) :
    ∃ ws, toMembers? ns = some ws ∧ vs.Perm ws := by
  induction hp generalizing vs with
  | nil => exact ⟨vs, h, .refl _⟩
  | cons m _ ih =>
      obtain ⟨k, d⟩ := m
      simp only [toMembers?, Option.bind_eq_bind, Option.bind_eq_some_iff, pure, Option.some.injEq]
        at h ⊢
      obtain ⟨l, rfl, v, hv, us, hus, rfl⟩ := h
      obtain ⟨ws, hws, hperm⟩ := ih hus
      exact ⟨(l, v) :: ws, ⟨l, rfl, v, hv, ws, hws, rfl⟩, hperm.cons _⟩
  | swap m n ms =>
      obtain ⟨k, d⟩ := m
      obtain ⟨l, e⟩ := n
      simp only [toMembers?, Option.bind_eq_bind, Option.bind_eq_some_iff, pure, Option.some.injEq]
        at h ⊢
      obtain ⟨l', rfl, w, hw, _, ⟨k', rfl, v, hv, us, hus, rfl⟩, rfl⟩ := h
      exact ⟨_, ⟨k', rfl, v, hv, _, ⟨l', rfl, w, hw, us, hus, rfl⟩, rfl⟩, .swap _ _ _⟩
  | trans _ _ ih ih' =>
      obtain ⟨us, hus, hperm⟩ := ih h
      obtain ⟨ws, hws, hperm'⟩ := ih' hus
      exact ⟨ws, hws, hperm.trans hperm'⟩

end Document

namespace Value

mutual

/-- In whatever order the members of its objects stand, the document of a plain value denotes it. -/
theorem Plain.toValue?_of_reordered {levels : Nat} {v : Value} (h : v.Plain levels) {e : Document}
    (he : v.toDocument.Reordered e) : e.toValue? = some v := by
  cases v with
  | null | bool b | string s =>
      obtain rfl := he
      rfl
  | number n =>
      obtain rfl := he
      cases n with
      | integer i => rfl
      | float x => exact h.elim
  | array items =>
      obtain ⟨es, rfl, hitems⟩ := he
      rw [Document.toValue?, toValues?_of_reordered h.2 hitems]
      rfl
  | object members =>
      obtain ⟨ns, ms, rfl, hmembers, hperm⟩ := he
      obtain ⟨ws, hws, hperm'⟩ :=
        Document.toMembers?_of_perm hperm (toMembers?_of_reordered h.2.2 hmembers)
      rw [Document.toValue?, hws, Option.map_some, Dictionary.ofList_of_perm h.2.1 hperm'.symm]

theorem toValues?_of_reordered {levels : Nat} {vs : List Value} (h : PlainItems levels vs)
    {es : List Document} (he : Document.ReorderedItems (toDocuments vs) es) :
    Document.toValues? es = some vs := by
  cases vs with
  | nil =>
      obtain rfl := he
      rfl
  | cons v vs =>
      obtain ⟨e, r, rfl, he, hr⟩ := he
      rw [Document.toValues?, h.1.toValue?_of_reordered he, toValues?_of_reordered h.2 hr]
      rfl

theorem toMembers?_of_reordered {levels : Nat} {vs : List (String × Value)}
    (h : PlainMembers levels vs) {ms : List (Option String × Document)}
    (hm : Document.ReorderedMembers (toEntries vs) ms) : Document.toMembers? ms = some vs := by
  cases vs with
  | nil =>
      obtain rfl := hm
      rfl
  | cons v vs =>
      obtain ⟨e, r, rfl, he, hr⟩ := hm
      rw [Document.toMembers?, h.1.toValue?_of_reordered he, toMembers?_of_reordered h.2 hr]
      rfl

end

mutual

theorem Plain.toDocument {levels : Nat} {v : Value} (h : v.Plain levels) :
    v.toDocument.Plain levels := by
  cases v with
  | null | bool b | string s => trivial
  | number n => cases n <;> exact h
  | array items => exact ⟨h.1, toDocuments_plain h.2⟩
  | object members =>
      refine ⟨h.1, ?_, toEntries_plain h.2.2⟩
      have hkeys : (toEntries members).map Prod.fst = (members.map Prod.fst).map some := by
        simp [toEntries_eq_map]
      rw [hkeys]
      exact List.pairwise_map.mpr (h.2.1.nodup_keys.imp fun hne heq => hne (Option.some.inj heq))

theorem toDocuments_plain {levels : Nat} {vs : List Value} (h : PlainItems levels vs) :
    Document.PlainItems levels (toDocuments vs) := by
  cases vs with
  | nil => trivial
  | cons v vs => exact ⟨h.1.toDocument, toDocuments_plain h.2⟩

theorem toEntries_plain {levels : Nat} {vs : List (String × Value)} (h : PlainMembers levels vs) :
    Document.PlainMembers levels (toEntries vs) := by
  cases vs with
  | nil => trivial
  | cons v vs => exact ⟨rfl, h.1.toDocument, toEntries_plain h.2⟩

end

mutual

theorem FloatFree.toDocument {v : Value} (h : v.FloatFree) : v.toDocument.FloatFree := by
  cases v with
  | null | bool b | string s => trivial
  | number n => cases n <;> exact h
  | array items => exact toDocuments_floatFree h
  | object members => exact toEntries_floatFree h

theorem toDocuments_floatFree {vs : List Value} (h : FloatFreeItems vs) :
    Document.FloatFreeItems (toDocuments vs) := by
  cases vs with
  | nil => trivial
  | cons v vs => exact ⟨h.1.toDocument, toDocuments_floatFree h.2⟩

theorem toEntries_floatFree {vs : List (String × Value)} (h : FloatFreeMembers vs) :
    Document.FloatFreeMembers (toEntries vs) := by
  cases vs with
  | nil => trivial
  | cons v vs => exact ⟨h.1.toDocument, toEntries_floatFree h.2⟩

end

end Value

mutual

/-- What a document without doubles denotes has no doubles. -/
theorem floatFree_of_toValue? {d : Document} {v : Value} (hd : d.FloatFree)
    (h : d.toValue? = some v) : v.FloatFree := by
  cases d with
  | unrepresentable => contradiction
  | null | bool b | string s =>
      obtain rfl := Option.some.inj h
      trivial
  | number n =>
      cases n with
      | integer i =>
          obtain rfl := Option.some.inj h
          trivial
      | float x => exact hd.elim
  | array items =>
      rw [Document.toValue?, Option.map_eq_some_iff] at h
      obtain ⟨vs, hvs, rfl⟩ := h
      exact floatFree_of_toValues? hd hvs
  | object members =>
      rw [Document.toValue?, Option.map_eq_some_iff] at h
      obtain ⟨ms, hms, rfl⟩ := h
      exact Value.floatFreeMembers_iff.mpr fun e he =>
        floatFree_of_toMembers? hd hms e (Dictionary.mem_of_mem_ofList he)

theorem floatFree_of_toValues? {ds : List Document} {vs : List Value}
    (hds : Document.FloatFreeItems ds) (h : Document.toValues? ds = some vs) :
    Value.FloatFreeItems vs := by
  cases ds with
  | nil =>
      obtain rfl := Option.some.inj h
      trivial
  | cons d ds =>
      simp only [Document.toValues?, Option.bind_eq_bind, Option.bind_eq_some_iff, pure,
        Option.some.injEq] at h
      obtain ⟨v, hv, ws, hws, rfl⟩ := h
      exact ⟨floatFree_of_toValue? hds.1 hv, floatFree_of_toValues? hds.2 hws⟩

theorem floatFree_of_toMembers? {ds : List (Option String × Document)}
    {ms : List (String × Value)} (hds : Document.FloatFreeMembers ds)
    (h : Document.toMembers? ds = some ms) : ∀ e ∈ ms, e.2.FloatFree := by
  cases ds with
  | nil =>
      obtain rfl := Option.some.inj h
      simp
  | cons d ds =>
      obtain ⟨k, d⟩ := d
      simp only [Document.toMembers?, Option.bind_eq_bind, Option.bind_eq_some_iff, pure,
        Option.some.injEq] at h
      obtain ⟨l, -, v, hv, ns, hns, rfl⟩ := h
      exact List.forall_mem_cons.mpr
        ⟨floatFree_of_toValue? hds.1 hv, floatFree_of_toMembers? hds.2 hns⟩

end

end DeviceBridge.Json
