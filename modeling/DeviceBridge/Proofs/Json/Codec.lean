import DeviceBridge.Proofs.Json.Reordering
import Mathlib.Data.List.Forall2
import Mathlib.Data.List.Nodup
import Mathlib.Data.List.Perm.Basic

/-!
# DeviceBridge.Proofs.Json.Codec

Types that are read back as they were written. A value is kept (`Kept`) if its written form is plain
and is read as the value again, in whatever order the members of its objects stand. A type is lawful
(`Lawful`) if all that it accepts is kept. Lawful types make lawful options, lists, maps and
records; of a record it is enough to look at the fields (`lawful_record`).
-/

namespace DeviceBridge.Json

variable {α β : Type} [Codec α] [Codec β]

/-- A value whose written form is plain within a number of levels and is read as the value again, in
whatever order the members of its objects stand. -/
structure Kept (levels : Nat) (x : α) : Prop where
  plain : (encode x).Plain levels
  reads : ∀ d, (encode x).Reordered d → decode d = .ok x

/-- A type of which each value is kept that is read from a document without doubles, within the
levels of the document, but at least a certain number of them. -/
class Lawful (α : Type) [Codec α] (levels : outParam Nat) : Prop where
  kept : ∀ {n : Nat} {d : Document} {x : α}, levels ≤ n → d.FloatFree → d.Within n →
    decode d = .ok x → Kept n x

/-- A type of which every value is kept. -/
class Faithful (α : Type) [Codec α] : Prop where
  kept : ∀ (n : Nat) (x : α), Kept n x

instance [Faithful α] : Lawful α 0 := ⟨fun _ _ _ _ => Faithful.kept _ _⟩

/-- A type of which nothing is written as `null`. -/
class Present (α : Type) [Codec α] : Prop where
  encode_ne_null : ∀ x : α, encode x ≠ .null

theorem bind_eq_ok {ε γ δ : Type} {x : Except ε γ} {f : γ → Except ε δ} {b : δ} :
    x >>= f = .ok b ↔ ∃ a, x = .ok a ∧ f a = .ok b := by
  cases x with
  | error e => exact ⟨nofun, nofun⟩
  | ok a => exact ⟨fun h => ⟨a, rfl, h⟩, fun ⟨_, ha, h⟩ => Except.ok.inj ha ▸ h⟩

theorem map_eq_ok {ε γ δ : Type} {x : Except ε γ} {f : γ → δ} {b : δ} :
    x.map f = .ok b ↔ ∃ a, x = .ok a ∧ f a = b := by
  cases x with
  | error e => exact ⟨nofun, nofun⟩
  | ok a =>
      refine ⟨fun h => ⟨a, rfl, Except.ok.inj h⟩, fun ⟨_, ha, h⟩ => ?_⟩
      cases ha
      exact congrArg _ h

theorem pure_eq_ok {ε γ : Type} {a b : γ} : (pure a : Except ε γ) = .ok b ↔ a = b :=
  ⟨Except.ok.inj, congrArg _⟩

/-! ## Basic types -/

/-- What is no array and no object has no members to stand in another order. -/
theorem Kept.of_scalar {n : Nat} {x : α} (hplain : (encode x).Plain 0)
    (h : decode (encode x) = .ok x) : Kept n x :=
  ⟨hplain.of_zero n, fun _ hd => hplain.eq_of_reordered hd ▸ h⟩

theorem Faithful.of_scalar (hplain : ∀ x : α, (encode x).Plain 0)
    (h : ∀ x : α, decode (encode x) = .ok x) : Faithful α :=
  ⟨fun _ x => .of_scalar (hplain x) (h x)⟩

instance : Faithful String := .of_scalar (fun _ => trivial) fun _ => rfl

instance : Present String := ⟨nofun⟩

instance : Faithful Bool := .of_scalar (fun _ => trivial) fun _ => rfl

/-- A word is read back if it is below the bound. -/
theorem decodeNat_ofUInt64 {bound : Nat} {n : UInt64} (h : n.toNat < bound) :
    decodeNat bound (.integer (.ofUInt64 n)) = .ok n.toNat := by
  have hval : (Integer.ofUInt64 n).val = n.toNat := rfl
  simp only [decodeNat, hval]
  rw [if_pos (by omega), Int.toNat_natCast]

instance : Faithful UInt8 := .of_scalar (fun _ => trivial) fun n => by
  have hread : decode (encode n) =
      (decodeNat UInt8.size (.integer (.ofUInt64 n.toUInt64))).map UInt8.ofNat := rfl
  have hbound : n.toUInt64.toNat < UInt8.size := by
    rw [UInt8.toNat_toUInt64]
    exact n.toNat_lt
  rw [hread, decodeNat_ofUInt64 hbound, Except.map, UInt8.toNat_toUInt64, UInt8.ofNat_toNat]

instance : Faithful UInt16 := .of_scalar (fun _ => trivial) fun n => by
  have hread : decode (encode n) =
      (decodeNat UInt16.size (.integer (.ofUInt64 n.toUInt64))).map UInt16.ofNat := rfl
  have hbound : n.toUInt64.toNat < UInt16.size := by
    rw [UInt16.toNat_toUInt64]
    exact n.toNat_lt
  rw [hread, decodeNat_ofUInt64 hbound, Except.map, UInt16.toNat_toUInt64, UInt16.ofNat_toNat]

instance : Faithful UInt32 := .of_scalar (fun _ => trivial) fun n => by
  have hread : decode (encode n) =
      (decodeNat UInt32.size (.integer (.ofUInt64 n.toUInt64))).map UInt32.ofNat := rfl
  have hbound : n.toUInt64.toNat < UInt32.size := by
    rw [UInt32.toNat_toUInt64]
    exact n.toNat_lt
  rw [hread, decodeNat_ofUInt64 hbound, Except.map, UInt32.toNat_toUInt64, UInt32.ofNat_toNat]

instance : Faithful UInt64 := .of_scalar (fun _ => trivial) fun n => by
  have hread : decode (encode n) =
      (decodeNat UInt64.size (.integer (.ofUInt64 n))).map UInt64.ofNat := rfl
  rw [hread, decodeNat_ofUInt64 n.toNat_lt, Except.map, UInt64.ofNat_toNat]

instance : Lawful Value 0 where
  kept {n d v} _ hfree hwithin h := by
    have hv : d.toValue? = some v := by
      simp only [decode] at h
      split at h
      · next w hw => exact hw.trans (congrArg some (Except.ok.inj h))
      · contradiction
    have hplain := plain_of_toValue? hwithin hv (floatFree_of_toValue? hfree hv)
    refine ⟨hplain.toDocument, fun e he => ?_⟩
    simp only [decode, hplain.toValue?_of_reordered he]

/-! ## Options, lists and maps -/

theorem kept_none {n : Nat} : Kept n (none : Option α) := .of_scalar trivial rfl

theorem decode_option {d : Document} (h : d ≠ .null) :
    (decode d : Except Error (Option α)) = (decode d).map some := by
  cases d <;> first | rfl | exact absurd rfl h

theorem kept_some [Present α] {n : Nat} {x : α} (h : Kept n x) : Kept n (some x) := by
  refine ⟨h.plain, fun d hd => ?_⟩
  have hne : d ≠ .null := by
    rintro rfl
    exact Present.encode_ne_null x (Document.eq_null_of_reordered hd)
  rw [decode_option hne, h.reads d hd]
  rfl

instance [Faithful α] [Present α] : Faithful (Option α) where
  kept n x :=
    match x with
    | none => kept_none
    | some x => kept_some (Faithful.kept n x)

theorem of_decode_some {d : Document} {x : α} (h : decode d = .ok (some x)) : decode d = .ok x := by
  have hne : d ≠ .null := by
    rintro rfl
    cases h
  rw [decode_option hne] at h
  obtain ⟨a, ha, hx⟩ := map_eq_ok.mp h
  exact Option.some.inj hx ▸ ha

instance {levels : Nat} [Lawful α levels] [Present α] : Lawful (Option α) levels where
  kept {n d x} hn hfree hwithin h := by
    cases x with
    | none => exact kept_none
    | some x => exact kept_some (Lawful.kept hn hfree hwithin (of_decode_some h))

theorem mapM_eq_ok {ε γ δ : Type} {f : γ → Except ε δ} {as : List γ} {bs : List δ} :
    as.mapM f = .ok bs ↔ List.Forall₂ (fun a b => f a = .ok b) as bs := by
  induction as generalizing bs with
  | nil => exact ⟨fun h => Except.ok.inj h ▸ .nil, fun h => by cases h; rfl⟩
  | cons a as ih =>
      simp only [List.mapM_cons, bind_eq_ok, pure_eq_ok, ih]
      constructor
      · rintro ⟨b, hb, bs, hbs, rfl⟩
        exact .cons hb hbs
      · intro h
        cases h with
        | cons hb hbs => exact ⟨_, hb, _, hbs, rfl⟩

/-- What stands in the second list is related to something in the first. -/
theorem exists_of_forall₂ {γ δ : Type} {R : γ → δ → Prop} {as : List γ} {bs : List δ}
    (h : List.Forall₂ R as bs) {b : δ} (hb : b ∈ bs) : ∃ a ∈ as, R a b := by
  induction h with
  | nil => exact absurd hb List.not_mem_nil
  | cons hab _ ih =>
      obtain rfl | hb := List.mem_cons.mp hb
      · exact ⟨_, List.mem_cons_self, hab⟩
      · obtain ⟨a, ha, h⟩ := ih hb
        exact ⟨a, List.mem_cons_of_mem _ ha, h⟩

theorem decode_of_reorderedItems {xs : List α} {ds : List Document}
    (hd : Document.ReorderedItems (xs.map encode) ds)
    (h : ∀ x ∈ xs, ∀ d, (encode x).Reordered d → decode d = .ok x) :
    List.Forall₂ (fun d x => decode d = .ok x) ds xs := by
  induction xs generalizing ds with
  | nil =>
      obtain rfl := hd
      exact .nil
  | cons x xs ih =>
      obtain ⟨d, r, rfl, hd, hr⟩ := hd
      exact .cons (h x List.mem_cons_self d hd) (ih hr fun y hy => h y (List.mem_cons_of_mem x hy))

theorem Kept.list {n : Nat} {xs : List α} (hpos : 0 < n) (h : ∀ x ∈ xs, Kept (n - 1) x) :
    Kept n xs := by
  refine ⟨⟨hpos, Document.plainItems_iff.mpr fun d hd => ?_⟩, ?_⟩
  · obtain ⟨x, hx, rfl⟩ := List.mem_map.mp hd
    exact (h x hx).plain
  · rintro _ ⟨ds, rfl, hds⟩
    exact mapM_eq_ok.mpr (decode_of_reorderedItems hds fun x hx => (h x hx).reads)

instance {levels : Nat} [Lawful α levels] : Lawful (List α) (levels + 1) where
  kept {n d xs} hn hfree hwithin h := by
    cases d with
    | array ds =>
        refine .list (by omega) fun x hx => ?_
        obtain ⟨d, hd, hread⟩ := exists_of_forall₂ (mapM_eq_ok.mp h) hx
        exact Lawful.kept (by omega) (Document.floatFreeItems_iff.mp hfree d hd)
          (Document.withinItems_iff.mp hwithin.2 d hd) hread
    | unrepresentable | null | bool b | number m | string s | object members => cases h

/-- Fields that are told as others tell them, but for the order of the members inside. -/
def Fields.Tell : Fields → Fields → Prop :=
  List.Forall₂ fun m g => m.1 = g.1 ∧ m.2.Reordered g.2

theorem exists_of_reorderedMembers {members : Fields} {ns : List (Option String × Document)}
    (h : Document.ReorderedMembers (members.map fun (k, d) => (some k, d)) ns) :
    ∃ gs : Fields, ns = gs.map (fun (k, d) => (some k, d)) ∧ members.Tell gs := by
  induction members generalizing ns with
  | nil =>
      obtain rfl := h
      exact ⟨[], rfl, .nil⟩
  | cons m members ih =>
      obtain ⟨e, r, rfl, he, hr⟩ := h
      obtain ⟨gs, rfl, hgs⟩ := ih hr
      exact ⟨(m.1, e) :: gs, rfl, .cons ⟨rfl, he⟩ hgs⟩

/-- A list in another order than images is one of images in another order. -/
theorem exists_map_of_perm {γ δ : Type} {f : γ → δ} {as : List γ} {bs : List δ}
    (h : (as.map f).Perm bs) : ∃ cs : List γ, bs = cs.map f ∧ as.Perm cs := by
  have hmap : List.Forall₂ (fun b a => b = f a) (as.map f) as := by
    rw [List.forall₂_map_left_iff]
    exact List.forall₂_same.mpr fun _ _ => rfl
  obtain ⟨cs, hcs, hp⟩ := List.perm_comp_forall₂ h.symm hmap
  refine ⟨cs, ?_, hp.symm⟩
  rwa [← List.forall₂_map_right_iff, List.forall₂_eq_eq_eq] at hcs

theorem exists_of_reordered_record {members : Fields} {e : Document}
    (h : (Document.record members).Reordered e) :
    ∃ gs hs : Fields, e = .record hs ∧ members.Tell gs ∧ gs.Perm hs := by
  obtain ⟨ns, ms, rfl, hns, hperm⟩ := h
  obtain ⟨gs, rfl, hgs⟩ := exists_of_reorderedMembers hns
  obtain ⟨hs, rfl, hp⟩ := exists_map_of_perm hperm
  exact ⟨gs, hs, rfl, hgs, hp⟩

theorem plain_record {n : Nat} {members : Fields} (hpos : 0 < n)
    (hnodup : (members.map Prod.fst).Nodup) (h : ∀ m ∈ members, m.2.Plain (n - 1)) :
    (Document.record members).Plain n := by
  refine ⟨hpos, ?_, Document.plainMembers_iff.mpr fun m hm => ?_⟩
  · have hsome := List.Nodup.map (fun _ _ => Option.some.inj) hnodup
    rwa [List.map_map] at hsome ⊢
  · obtain ⟨f, hf, rfl⟩ := List.mem_map.mp hm
    exact ⟨rfl, h f hf⟩

theorem Kept.dictionary {n : Nat} {xs : Dictionary String α} (ho : xs.Ordered) (hpos : 0 < n)
    (h : ∀ e ∈ xs, Kept (n - 1) e.2) : Kept n xs := by
  refine ⟨plain_record hpos ?_ fun m hm => ?_, fun d hd => ?_⟩
  · simpa [Function.comp_def] using ho.nodup_keys
  · obtain ⟨e, he, rfl⟩ := List.mem_map.mp hm
    exact (h e he).plain
  · obtain ⟨gs, hs, rfl, hgs, hp⟩ := exists_of_reordered_record hd
    have hread : List.Forall₂ (fun g e => (decode g.2).map (g.1, ·) = .ok e) gs xs := by
      have hall := (List.forall₂_and_left _ _).mpr ⟨h, List.forall₂_map_left_iff.mp hgs⟩
      refine hall.flip.imp fun g e ⟨hkept, hkey, hreordered⟩ => ?_
      rw [hkept.reads g.2 hreordered, ← hkey]
      rfl
    obtain ⟨entries, hentries, hperm⟩ := List.perm_comp_forall₂ hp.symm hread
    exact bind_eq_ok.mpr ⟨entries, mapM_eq_ok.mpr (List.forall₂_map_left_iff.mpr hentries),
      congrArg _ (Dictionary.ofList_of_perm ho hperm)⟩

instance {levels : Nat} [Lawful α levels] : Lawful (Dictionary String α) (levels + 1) where
  kept {n d xs} hn hfree hwithin h := by
    cases d with
    | object members =>
        obtain ⟨entries, hentries, hxs⟩ := bind_eq_ok.mp h
        obtain rfl := pure_eq_ok.mp hxs
        refine .dictionary (Dictionary.ordered_ofList entries) (by omega) fun e he => ?_
        obtain ⟨m, hm, hread⟩ :=
          exists_of_forall₂ (mapM_eq_ok.mp hentries) (Dictionary.mem_of_mem_ofList he)
        obtain ⟨_ | k, d⟩ := m
        · cases hread
        · obtain ⟨x, hx, rfl⟩ := map_eq_ok.mp hread
          exact Lawful.kept (by omega) (Document.floatFreeMembers_iff.mp hfree _ hm)
            (Document.withinMembers_iff.mp hwithin.2 _ hm) hx
    | unrepresentable | null | bool b | number m | string s | array ds => cases h

/-! ## Records -/

theorem namedMembers?_eq_some {ms : List (Option String × Document)} {fs : Fields} :
    namedMembers? ms = some fs ↔ ms = fs.map fun (k, d) => (some k, d) := by
  induction ms generalizing fs with
  | nil => cases fs <;> simp [namedMembers?]
  | cons m ms ih =>
      obtain ⟨_ | k, d⟩ := m
      · cases fs <;> simp [namedMembers?]
      · cases fs with
        | nil => cases h : namedMembers? ms <;> simp [namedMembers?, h]
        | cons f fs =>
            rw [List.map_cons, List.cons.injEq, ← ih]
            cases h : namedMembers? ms <;> simp [namedMembers?, h, Prod.ext_iff]

namespace Fields

/-- Fields without doubles, nested within a number of levels. -/
def Sound (levels : Nat) (fs : Fields) : Prop := ∀ f ∈ fs, f.2.FloatFree ∧ f.2.Within levels

theorem Sound.filter {n : Nat} {fs : Fields} (h : fs.Sound n) (p : String × Document → Bool) :
    Sound n (fs.filter p) := fun f hf => h f (List.mem_of_mem_filter hf)

theorem sound_of_namedMembers {n : Nat} {members : List (Option String × Document)} {fs : Fields}
    (hfree : (Document.object members).FloatFree) (hwithin : (Document.object members).Within n)
    (h : namedMembers? members = some fs) : fs.Sound (n - 1) := by
  obtain rfl := namedMembers?_eq_some.mp h
  intro f hf
  have hm := List.mem_map_of_mem (f := fun m : String × Document => (some m.1, m.2)) hf
  exact ⟨Document.floatFreeMembers_iff.mp hfree _ hm, Document.withinMembers_iff.mp hwithin.2 _ hm⟩

theorem sound_of_fields {n : Nat} {d : Document} {names : List String} {fs : Fields}
    (hfree : d.FloatFree) (hwithin : d.Within n) (h : d.fields names = .ok fs) :
    fs.Sound (n - 1) := by
  cases d with
  | object members =>
      simp only [Document.fields] at h
      split at h
      · contradiction
      · next hs hnamed =>
        split at h
        · obtain rfl := Except.ok.inj h
          exact (sound_of_namedMembers hfree hwithin hnamed).filter _
        · contradiction
  | array items =>
      simp only [Document.fields] at h
      split at h
      · obtain rfl := Except.ok.inj h
        intro f hf
        have hm := (List.of_mem_zip hf).2
        exact ⟨Document.floatFreeItems_iff.mp hfree _ hm,
          Document.withinItems_iff.mp hwithin.2 _ hm⟩
      · contradiction
  | unrepresentable | null | bool b | number m | string s => cases h

theorem lookup_of_mem {fs : Fields} (hnodup : (fs.map Prod.fst).Nodup) {f : String × Document}
    (h : f ∈ fs) : fs.lookup f.1 = some f.2 := by
  obtain ⟨as, bs, rfl⟩ := List.append_of_mem h
  refine List.lookup_eq_some_iff.mpr ⟨as, bs, rfl, fun a ha => ?_⟩
  rw [List.map_append, List.map_cons] at hnodup
  have hne := (List.nodup_append.mp hnodup).2.2 a.1 (List.mem_map_of_mem ha) f.1 List.mem_cons_self
  exact bne_iff_ne.mpr hne.symm

theorem map_fst_of_tell {ms gs : Fields} (h : ms.Tell gs) : gs.map Prod.fst = ms.map Prod.fst := by
  rw [← List.forall₂_eq_eq_eq, List.forall₂_map_left_iff, List.forall₂_map_right_iff]
  exact h.flip.imp fun _ _ h => h.1.symm

/-- Fields among which each of certain members is told, but for the order of the members inside. -/
def Spells (members fs : Fields) : Prop :=
  ∀ m ∈ members, ∃ e, fs.lookup m.1 = some e ∧ m.2.Reordered e

end Fields

/-- A record in another order has the same fields. -/
theorem fields_of_reordered {members : Fields} {e : Document}
    (hnodup : (members.map Prod.fst).Nodup) (h : (Document.record members).Reordered e) :
    ∃ hs, e.fields (members.map Prod.fst) = .ok hs ∧ members.Spells hs := by
  obtain ⟨gs, hs, rfl, hgs, hp⟩ := exists_of_reordered_record h
  have hkeys : (hs.map Prod.fst).Perm (members.map Prod.fst) :=
    Fields.map_fst_of_tell hgs ▸ (hp.map Prod.fst).symm
  have hnodup' := hkeys.nodup_iff.mpr hnodup
  refine ⟨hs, ?_, fun m hm => ?_⟩
  · have hfilter : (hs.filter fun f => f.1 ∈ members.map Prod.fst) = hs :=
      List.filter_eq_self.mpr fun f hf =>
        decide_eq_true (hkeys.mem_iff.mp (List.mem_map_of_mem hf))
    simp only [Document.record, Document.fields, namedMembers?_eq_some.mpr rfl]
    rw [hfilter, if_pos hnodup']
  · obtain ⟨g, hg, hkey, hreordered⟩ := exists_of_forall₂ hgs.flip hm
    exact ⟨g.2, hkey ▸ Fields.lookup_of_mem hnodup' (hp.mem_iff.mp hg), hreordered⟩

namespace Fields

variable {n : Nat} {fs : Fields} {name : String} {x : α}

/-- What is read from a field is kept. -/
theorem Sound.kept {levels : Nat} [Lawful α levels] (hn : levels ≤ n) (hfs : fs.Sound n)
    (h : fs.required name = .ok x) : Kept n x := by
  unfold required at h
  split at h
  · next d hd =>
    obtain ⟨as, bs, rfl, -⟩ := List.lookup_eq_some_iff.mp hd
    obtain ⟨hfree, hwithin⟩ := hfs (name, d) (List.mem_append_right as List.mem_cons_self)
    exact Lawful.kept hn hfree hwithin h
  · contradiction

/-- So is what is read from a field that may be missing, if what it then stands for is kept. -/
theorem Sound.kept_optional {levels : Nat} [Lawful α levels] (hn : levels ≤ n) (hfs : fs.Sound n)
    {default : α} (hdefault : Kept n default) (h : fs.optional name default = .ok x) :
    Kept n x := by
  unfold optional at h
  split at h
  · next d hd =>
    have hrequired : fs.required name = .ok x := by simpa only [required, hd] using h
    exact hfs.kept hn hrequired
  · exact Except.ok.inj h ▸ hdefault

/-- Members that are plain, and of which it is enough for some fields to tell of them for a value to
be read from the fields. -/
structure Recovers {γ : Type} (n : Nat) (members : Fields) (read : Fields → Except Error γ)
    (x : γ) :
    Prop where
  plain : ∀ m ∈ members, m.2.Plain n
  reads : ∀ gs, members.Spells gs → read gs = .ok x

variable {γ : Type} {z : γ} {y : β} {read : β → Fields → Except Error γ} {members : Fields}

theorem recovers_pure : Recovers n [] (fun _ => pure z) z := ⟨nofun, fun _ _ => rfl⟩

/-- A kept field that has to be there, in front of what is read next. -/
theorem Recovers.required (hy : Kept n y) (h : Recovers n members (read y) z) :
    Recovers n ((name, encode y) :: members) (fun gs => gs.required name >>= (read · gs)) z where
  plain := List.forall_mem_cons.mpr ⟨hy.plain, h.plain⟩
  reads gs hgs := by
    obtain ⟨⟨e, he, hreordered⟩, hgs⟩ := List.forall_mem_cons.mp hgs
    refine bind_eq_ok.mpr ⟨y, ?_, h.reads gs hgs⟩
    simp only [Fields.required, he, hy.reads e hreordered]

/-- A kept field that may be missing, in front of what is read next. -/
theorem Recovers.optional {default : β} (hy : Kept n y) (h : Recovers n members (read y) z) :
    Recovers n ((name, encode y) :: members)
      (fun gs => gs.optional name default >>= (read · gs)) z where
  plain := List.forall_mem_cons.mpr ⟨hy.plain, h.plain⟩
  reads gs hgs := by
    obtain ⟨⟨e, he, hreordered⟩, hgs⟩ := List.forall_mem_cons.mp hgs
    refine bind_eq_ok.mpr ⟨y, ?_, h.reads gs hgs⟩
    simp only [Fields.optional, he, hy.reads e hreordered]

end Fields

/-- A type is lawful if it is written as a record and read from the fields of a record, and a value
that is read from sound fields is recovered from its own. -/
theorem lawful_record {levels : Nat} (names : List String) (members : α → Fields)
    {read : Fields → Except Error α} (hnames : names.Nodup)
    (hmembers : ∀ x, (members x).map Prod.fst = names)
    (hencode : ∀ x : α, encode x = .record (members x))
    (hdecode : ∀ d : Document, decode d = d.fields names >>= read)
    (hread : ∀ {n : Nat} {fs : Fields} {x : α}, levels ≤ n → fs.Sound n → read fs = .ok x →
      Fields.Recovers n (members x) read x) :
    Lawful α (levels + 1) where
  kept {n d x} hn hfree hwithin h := by
    obtain ⟨fs, hfs, hx⟩ := bind_eq_ok.mp (hdecode d ▸ h)
    have hrecovers := hread (by omega) (Fields.sound_of_fields hfree hwithin hfs) hx
    have hnodup : ((members x).map Prod.fst).Nodup := hmembers x ▸ hnames
    refine ⟨hencode x ▸ plain_record (by omega) hnodup hrecovers.plain, fun e he => ?_⟩
    obtain ⟨gs, hgs, hspells⟩ := fields_of_reordered hnodup (hencode x ▸ he)
    rw [hdecode, ← hmembers x]
    exact bind_eq_ok.mpr ⟨gs, hgs, hrecovers.reads gs hspells⟩

/-! ## Texts and values -/

/-- A text is accepted if it is one document, and the document is accepted. -/
theorem decodeText_eq_ok {s : String} {x : α} :
    decodeText s = .ok x ↔ ∃ d, read s = .ok d ∧ decode d = .ok x := by
  unfold decodeText read
  cases readTokens (tokens s.toList) with
  | done d => exact ⟨fun h => ⟨d, rfl, h⟩, fun ⟨_, hd, h⟩ => Except.ok.inj hd ▸ h⟩
  | trailing d =>
      refine ⟨fun h => ?_, fun ⟨_, hd, _⟩ => nomatch hd⟩
      obtain ⟨_, _, h⟩ := bind_eq_ok.mp h
      contradiction
  | _ => exact ⟨nofun, fun ⟨_, hd, _⟩ => nomatch hd⟩

/-- The text of a kept value is accepted. -/
theorem Kept.decodeText_compact {x : α} (h : Kept nestingLimit x) {d : Document}
    (hd : (encode x).Reordered d) : decodeText d.compact = .ok x :=
  decodeText_eq_ok.mpr ⟨d, (h.plain.of_reordered hd).read_compact, h.reads d hd⟩

/-- So is the value of its written form. -/
theorem Kept.exists_decodeValue {n : Nat} {x : α} (h : Kept n x) :
    ∃ v, (encode x).toValue? = some v ∧ decodeValue v = .ok x := by
  obtain ⟨v, hv, hreordered⟩ := h.plain.exists_toValue?
  exact ⟨v, hv, h.reads _ hreordered⟩

/-- Of a lawful type, whatever is accepted from a text without doubles is kept. -/
theorem kept_of_decodeText {levels : Nat} [Lawful α levels] (hlevels : levels ≤ nestingLimit)
    {s : String} (hfree : ∀ d, read s = .ok d → d.FloatFree) {x : α} (h : decodeText s = .ok x) :
    Kept nestingLimit x := by
  obtain ⟨d, hd, hx⟩ := decodeText_eq_ok.mp h
  exact Lawful.kept hlevels (hfree d hd) (within_of_read hd) hx

theorem exists_kept_of_decodeValue {levels : Nat} [Lawful α levels] {v : Value}
    (hfree : v.FloatFree)
    {x : α} (h : decodeValue v = .ok x) : ∃ n, Kept n x := by
  obtain ⟨n, hn⟩ := v.toDocument.exists_within
  exact ⟨n + levels, Lawful.kept (by omega) hfree.toDocument (hn _ (by omega)) h⟩

end DeviceBridge.Json
