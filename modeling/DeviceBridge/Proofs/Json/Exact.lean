import DeviceBridge.Json.Codec
import DeviceBridge.Proofs.Json.Reread

/-!
# DeviceBridge.Proofs.Json.Exact

Values that are read back as they were written. A value is plain (`Value.Plain`) if it holds no
double, the keys of each object in it ascend, and it is nested within a number of levels. A plain
value within the limit is read back exactly (`readValue_pretty_of_plain`), and whatever is read is
plain, doubles aside (`plain_of_readValue`), since the reader gives no value to what is nested more
deeply.
-/

namespace DeviceBridge.Json

/-! ## Plain values -/

mutual

/-- A value without doubles, nested within a number of levels, the keys of each object in order. -/
def Value.Plain (levels : Nat) : Value → Prop
  | .null | .bool _ | .string _ | .number (.integer _) => True
  | .number (.float _) => False
  | .array items => 0 < levels ∧ Value.PlainItems (levels - 1) items
  | .object members =>
    0 < levels ∧ Dictionary.Ordered members ∧ Value.PlainMembers (levels - 1) members

def Value.PlainItems (levels : Nat) : List Value → Prop
  | [] => True
  | v :: vs => v.Plain levels ∧ Value.PlainItems levels vs

def Value.PlainMembers (levels : Nat) : List (String × Value) → Prop
  | [] => True
  | (_, v) :: ms => v.Plain levels ∧ Value.PlainMembers levels ms

end

mutual

/-- A value without doubles. -/
def Value.FloatFree : Value → Prop
  | .null | .bool _ | .string _ | .number (.integer _) => True
  | .number (.float _) => False
  | .array items => Value.FloatFreeItems items
  | .object members => Value.FloatFreeMembers members

def Value.FloatFreeItems : List Value → Prop
  | [] => True
  | v :: vs => v.FloatFree ∧ Value.FloatFreeItems vs

def Value.FloatFreeMembers : List (String × Value) → Prop
  | [] => True
  | (_, v) :: ms => v.FloatFree ∧ Value.FloatFreeMembers ms

end

namespace Value

theorem plainMembers_iff {levels : Nat} {ms : List (String × Value)} :
    PlainMembers levels ms ↔ ∀ e ∈ ms, e.2.Plain levels := by
  induction ms with
  | nil => simp [PlainMembers]
  | cons e ms ih => simp [PlainMembers, ih]

theorem floatFreeMembers_iff {ms : List (String × Value)} :
    FloatFreeMembers ms ↔ ∀ e ∈ ms, e.2.FloatFree := by
  induction ms with
  | nil => simp [FloatFreeMembers]
  | cons e ms ih => simp [FloatFreeMembers, ih]

variable {levels : Nat} {members : Object}

/-- Setting a member keeps an object plain if the value is nested one level less. -/
theorem Plain.insert (h : (object members).Plain levels) {v : Value} (hv : v.Plain (levels - 1))
    (key : String) : (object (members.insert key v)).Plain levels := by
  obtain ⟨hpos, hord, hmembers⟩ := h
  refine ⟨hpos, hord.insert key v, plainMembers_iff.mpr fun e he => ?_⟩
  rcases Dictionary.mem_insert he with rfl | he
  · exact hv
  · exact plainMembers_iff.mp hmembers e he

theorem Plain.erase (h : (object members).Plain levels) (key : String) :
    (object (members.erase key)).Plain levels :=
  ⟨h.1, h.2.1.filter _,
    plainMembers_iff.mpr fun e he => plainMembers_iff.mp h.2.2 e (List.mem_filter.mp he).1⟩

theorem Plain.get? (h : (object members).Plain levels) {key : String} {v : Value}
    (hv : members.get? key = some v) : v.Plain (levels - 1) :=
  plainMembers_iff.mp h.2.2 _ (Dictionary.mem_of_get? hv)

mutual

/-- More levels are no trouble. -/
theorem Plain.mono {m n : Nat} {v : Value} (h : v.Plain m) (hle : m ≤ n) : v.Plain n := by
  cases v with
  | null | bool b | string s => trivial
  | number x => cases x <;> exact h
  | array items => exact ⟨by have := h.1; omega, plainItems_mono h.2 (by omega)⟩
  | object members => exact ⟨by have := h.1; omega, h.2.1, plainMembers_mono h.2.2 (by omega)⟩

theorem plainItems_mono {m n : Nat} {vs : List Value} (h : PlainItems m vs) (hle : m ≤ n) :
    PlainItems n vs := by
  cases vs with
  | nil => trivial
  | cons v vs => exact ⟨Plain.mono h.1 hle, plainItems_mono h.2 hle⟩

theorem plainMembers_mono {m n : Nat} {ms : List (String × Value)} (h : PlainMembers m ms)
    (hle : m ≤ n) : PlainMembers n ms := by
  cases ms with
  | nil => trivial
  | cons e ms => exact ⟨Plain.mono h.1 hle, plainMembers_mono h.2 hle⟩

end

mutual

theorem Plain.floatFree {levels : Nat} {v : Value} (h : v.Plain levels) : v.FloatFree := by
  cases v with
  | null | bool b | string s => trivial
  | number n => cases n <;> exact h
  | array items => exact floatFreeItems_of_plain h.2
  | object members => exact floatFreeMembers_of_plain h.2.2

theorem floatFreeItems_of_plain {levels : Nat} {vs : List Value} (h : PlainItems levels vs) :
    FloatFreeItems vs := by
  cases vs with
  | nil => trivial
  | cons v vs => exact ⟨Plain.floatFree h.1, floatFreeItems_of_plain h.2⟩

theorem floatFreeMembers_of_plain {levels : Nat} {ms : List (String × Value)}
    (h : PlainMembers levels ms) : FloatFreeMembers ms := by
  cases ms with
  | nil => trivial
  | cons e ms => exact ⟨Plain.floatFree h.1, floatFreeMembers_of_plain h.2⟩

end

end Value

/-! ## Reading a plain value back -/

mutual

theorem reread_toDocument {levels depth : Nat} {v : Value} (h : v.Plain levels)
    (hd : depth + levels ≤ nestingLimit) : v.toDocument.reread depth = v.toDocument := by
  cases v with
  | null | bool b | string s => rfl
  | number n =>
      cases n with
      | integer i => rfl
      | float x => exact h.elim
  | array items =>
      obtain ⟨hpos, hitems⟩ := h
      rw [Value.toDocument, Document.reread, if_pos (by omega),
        rereadItems_toDocuments hitems (by omega)]
  | object members =>
      obtain ⟨hpos, -, hmembers⟩ := h
      rw [Value.toDocument, Document.reread, if_pos (by omega),
        rereadMembers_toEntries hmembers (by omega)]

theorem rereadItems_toDocuments {levels depth : Nat} {vs : List Value}
    (h : Value.PlainItems levels vs) (hd : depth + levels ≤ nestingLimit) :
    Document.rereadItems depth (Value.toDocuments vs) = Value.toDocuments vs := by
  cases vs with
  | nil => rfl
  | cons v vs =>
      rw [Value.toDocuments, Document.rereadItems, reread_toDocument h.1 hd,
        rereadItems_toDocuments h.2 hd]

theorem rereadMembers_toEntries {levels depth : Nat} {ms : List (String × Value)}
    (h : Value.PlainMembers levels ms) (hd : depth + levels ≤ nestingLimit) :
    Document.rereadMembers depth (Value.toEntries ms) = Value.toEntries ms := by
  cases ms with
  | nil => rfl
  | cons e ms =>
      obtain ⟨k, v⟩ := e
      rw [Value.toEntries, Document.rereadMembers, reread_toDocument h.1 hd,
        rereadMembers_toEntries h.2 hd, Option.getD_some]

end

mutual

theorem toValue?_toDocument {levels : Nat} {v : Value} (h : v.Plain levels) :
    v.toDocument.toValue? = some v := by
  cases v with
  | null | bool b | string s => rfl
  | number n =>
      cases n with
      | integer i => rfl
      | float x => exact h.elim
  | array items =>
      rw [Value.toDocument, Document.toValue?, toValues?_toDocuments h.2]
      rfl
  | object members =>
      rw [Value.toDocument, Document.toValue?, toMembers?_toEntries h.2.2, Option.map_some,
        Dictionary.ofList_of_ordered h.2.1]

theorem toValues?_toDocuments {levels : Nat} {vs : List Value} (h : Value.PlainItems levels vs) :
    Document.toValues? (Value.toDocuments vs) = some vs := by
  cases vs with
  | nil => rfl
  | cons v vs =>
      rw [Value.toDocuments, Document.toValues?, toValue?_toDocument h.1,
        toValues?_toDocuments h.2]
      rfl

theorem toMembers?_toEntries {levels : Nat} {ms : List (String × Value)}
    (h : Value.PlainMembers levels ms) :
    Document.toMembers? (Value.toEntries ms) = some ms := by
  cases ms with
  | nil => rfl
  | cons e ms =>
      obtain ⟨k, v⟩ := e
      rw [Value.toEntries, Document.toMembers?, toValue?_toDocument h.1,
        toMembers?_toEntries h.2]
      rfl

end

/-- A plain value within the limit is read back as it was written. -/
theorem readValue_pretty_of_plain {v : Value} (h : v.Plain nestingLimit) :
    readValue v.pretty = .ok v := by
  have hread : read v.pretty = .ok v.toDocument := by
    rw [Value.pretty, read_pretty, reread_toDocument h (by omega)]
  unfold readValue
  rw [hread]
  dsimp only
  rw [toValue?_toDocument h]

theorem decodeValue_of_plain {levels : Nat} {v : Value} (h : v.Plain levels) :
    (decodeValue v : Except Error Value) = .ok v := by
  unfold decodeValue
  simp only [decode, toValue?_toDocument h]

/-! ## How deeply a document that is read is nested -/

mutual

/-- A document that is nested within a number of levels. -/
def Document.Within (levels : Nat) : Document → Prop
  | array items => 0 < levels ∧ Document.WithinItems (levels - 1) items
  | object members => 0 < levels ∧ Document.WithinMembers (levels - 1) members
  | _ => True

def Document.WithinItems (levels : Nat) : List Document → Prop
  | [] => True
  | d :: ds => d.Within levels ∧ Document.WithinItems levels ds

def Document.WithinMembers (levels : Nat) : List (Option String × Document) → Prop
  | [] => True
  | (_, d) :: ms => d.Within levels ∧ Document.WithinMembers levels ms

end

theorem Document.withinItems_iff {levels : Nat} {ds : List Document} :
    WithinItems levels ds ↔ ∀ d ∈ ds, d.Within levels := by
  induction ds with
  | nil => simp [WithinItems]
  | cons d ds ih => simp [WithinItems, ih]

theorem Document.withinMembers_iff {levels : Nat} {ms : List (Option String × Document)} :
    WithinMembers levels ms ↔ ∀ m ∈ ms, m.2.Within levels := by
  induction ms with
  | nil => simp [WithinMembers]
  | cons m ms ih => simp [WithinMembers, ih]

/-- What is not nested at all fits anywhere. -/
theorem Document.Within.of_zero {d : Document} (h : d.Within 0) (levels : Nat) :
    d.Within levels := by
  cases d with
  | array items | object members => exact absurd h.1 (Nat.lt_irrefl 0)
  | _ => trivial

mutual

/-- Every document is nested within some number of levels, and within any greater one. -/
theorem Document.exists_within (d : Document) : ∃ n, ∀ m, n ≤ m → d.Within m := by
  cases d with
  | array items =>
      obtain ⟨n, hn⟩ := exists_withinItems items
      exact ⟨n + 1, fun m hm => ⟨by omega, hn (m - 1) (by omega)⟩⟩
  | object members =>
      obtain ⟨n, hn⟩ := exists_withinMembers members
      exact ⟨n + 1, fun m hm => ⟨by omega, hn (m - 1) (by omega)⟩⟩
  | unrepresentable | null | bool b | number n | string s => exact ⟨0, fun _ _ => trivial⟩

theorem exists_withinItems (ds : List Document) : ∃ n, ∀ m, n ≤ m → Document.WithinItems m ds := by
  cases ds with
  | nil => exact ⟨0, fun _ _ => trivial⟩
  | cons d ds =>
      obtain ⟨k, hk⟩ := Document.exists_within d
      obtain ⟨n, hn⟩ := exists_withinItems ds
      exact ⟨k + n, fun m hm => ⟨hk m (by omega), hn m (by omega)⟩⟩

theorem exists_withinMembers (ms : List (Option String × Document)) :
    ∃ n, ∀ m, n ≤ m → Document.WithinMembers m ms := by
  cases ms with
  | nil => exact ⟨0, fun _ _ => trivial⟩
  | cons e ms =>
      obtain ⟨k, hk⟩ := Document.exists_within e.2
      obtain ⟨n, hn⟩ := exists_withinMembers ms
      exact ⟨k + n, fun m hm => ⟨hk m (by omega), hn m (by omega)⟩⟩

end

/-- A token that is no more than a scalar. -/
def Token.Flat : Token → Prop
  | .scalar d => d.Within 0
  | _ => True

theorem flat_wordToken (letters : List Char) : (wordToken letters).Flat := by
  unfold wordToken
  repeat' split
  all_goals simp [Token.Flat, Document.Within]

theorem flat_numeralToken (phase : NumeralPhase) (n : Numeral) : (n.token phase).Flat := by
  unfold Numeral.token
  repeat' split
  all_goals simp [Token.Flat, Document.Within]

/-- All tokens made so far are flat. -/
def Lexer.Flat (l : Lexer) : Prop := ∀ t ∈ l.tokens, t.Flat

namespace Lexer

theorem flat_cons {m : Mode} {ts : List Token} {t : Token} (ht : t.Flat)
    (h : ∀ t ∈ ts, t.Flat) : Flat ⟨m, t :: ts⟩ := List.forall_mem_cons.mpr ⟨ht, h⟩

theorem flat_start {ts : List Token} (h : ∀ t ∈ ts, t.Flat) (c : Char) : (start ts c).Flat := by
  fun_cases start ts c <;> first | exact h | exact flat_cons trivial h

theorem flat_resume {ts : List Token} (h : ∀ t ∈ ts, t.Flat) {t : Token} (ht : t.Flat) (c : Char) :
    (resume ts t c).Flat := by
  fun_cases resume ts t c with
  | case1 => exact flat_cons trivial h
  | case2 => exact flat_start (List.forall_mem_cons.mpr ⟨ht, h⟩) c

theorem flat_escape {ts : List Token} (h : ∀ t ∈ ts, t.Flat) (pieces : List Piece) (c : Char) :
    (escape ts pieces c).Flat := by
  fun_cases escape ts pieces c <;> first | exact h | exact flat_cons trivial h

theorem flat_step {l : Lexer} (h : l.Flat) (c : Char) : (l.step c).Flat := by
  fun_cases step l c <;>
    first
      | exact h
      | exact flat_cons trivial h
      | exact flat_start h c
      | exact flat_escape h _ c
      | exact flat_resume h (flat_wordToken _) c
      | exact flat_resume h (flat_numeralToken _ _) c

theorem flat_finish {l : Lexer} (h : l.Flat) : ∀ t ∈ l.finish, t.Flat := by
  have hlast {t : Token} (ht : t.Flat) : ∀ u ∈ (t :: l.tokens).reverse, u.Flat := fun u hu =>
    List.forall_mem_cons.mpr ⟨ht, h⟩ u (List.mem_reverse.mp hu)
  fun_cases finish l <;>
    first
      | exact fun t ht => h t (List.mem_reverse.mp ht)
      | exact hlast (flat_wordToken _)
      | exact hlast (flat_numeralToken _ _)
      | exact hlast trivial

end Lexer

/-- The tokens of a text are flat. -/
theorem flat_tokens (cs : List Char) : ∀ t ∈ tokens cs, t.Flat := by
  have hfold : ∀ (cs : List Char) (l : Lexer), l.Flat → (cs.foldl Lexer.step l).Flat := by
    intro cs
    induction cs with
    | nil => exact fun l h => h
    | cons c cs ih => exact fun l h => ih _ (Lexer.flat_step h c)
  have hempty : Lexer.Flat {} := fun t ht => nomatch ht
  exact Lexer.flat_finish (hfold cs {} hempty)

namespace Reader

/-- What the arrays and objects that are still open hold fits into the levels that are left. -/
def Room : List Frame → Prop
  | [] => True
  | .array items :: stack =>
    (∀ d ∈ items, d.Within (nestingLimit - (stack.length + 1))) ∧ Room stack
  | .object members _ :: stack =>
    (∀ m ∈ members, m.2.Within (nestingLimit - (stack.length + 1))) ∧ Room stack

/-- What has been read so far fits into the levels that are left. -/
def HasRoom : Reader → Prop
  | wantValue stack | wantFirstItem stack | wantFirstKey stack => Room stack
  | afterItem items stack =>
    (∀ d ∈ items, d.Within (nestingLimit - (stack.length + 1))) ∧ Room stack
  | wantKey members stack | wantColon members _ stack | afterMember members stack =>
    (∀ m ∈ members, m.2.Within (nestingLimit - (stack.length + 1))) ∧ Room stack
  | done d | trailing d => d.Within nestingLimit
  | failed => True

theorem hasRoom_complete {d : Document} {stack : List Frame}
    (hd : d.Within (nestingLimit - stack.length)) (h : Room stack) :
    (complete d stack).HasRoom := by
  cases stack with
  | nil => exact hd
  | cons f stack => cases f <;> exact ⟨List.forall_mem_cons.mpr ⟨hd, h.1⟩, h.2⟩

theorem hasRoom_close {d : Document} {stack : List Frame}
    (hd : stack.length < nestingLimit → d.Within (nestingLimit - stack.length))
    (h : Room stack) : (close d stack).HasRoom := by
  refine hasRoom_complete ?_ h
  split
  · next hlt => exact hd hlt
  · trivial

theorem hasRoom_closeArray {items : List Document} {stack : List Frame}
    (hitems : ∀ d ∈ items, d.Within (nestingLimit - (stack.length + 1))) (h : Room stack) :
    (close (.array items) stack).HasRoom :=
  hasRoom_close (fun hlt => ⟨Nat.sub_pos_of_lt hlt, Document.withinItems_iff.mpr hitems⟩) h

theorem hasRoom_closeObject {members : List (Option String × Document)} {stack : List Frame}
    (hmembers : ∀ m ∈ members, m.2.Within (nestingLimit - (stack.length + 1))) (h : Room stack) :
    (close (.object members) stack).HasRoom :=
  hasRoom_close (fun hlt => ⟨Nat.sub_pos_of_lt hlt, Document.withinMembers_iff.mpr hmembers⟩) h

theorem hasRoom_begin {stack : List Frame} (h : Room stack) {t : Token} (ht : t.Flat) :
    (begin stack t).HasRoom := by
  fun_cases begin stack t with
  | case1 d => exact hasRoom_complete (ht.of_zero _) h
  | case2 s | case3 => exact hasRoom_complete trivial h
  | case4 | case5 => exact h
  | case6 => trivial

theorem hasRoom_step {r : Reader} (h : r.HasRoom) {t : Token} (ht : t.Flat) :
    (r.step t).HasRoom := by
  fun_cases step r t with
  | case1 stack => exact hasRoom_begin h ht
  | case2 stack => exact hasRoom_closeArray (by simp) h
  | case3 stack => exact hasRoom_begin (show Room (.array [] :: stack) from ⟨by simp, h⟩) ht
  | case5 items stack => exact hasRoom_closeArray (by simpa using h.1) h.2
  | case6 stack => exact hasRoom_closeObject (by simp) h
  | case7 k stack => exact ⟨by simp, h⟩
  | case11 members stack => exact hasRoom_closeObject (by simpa using h.1) h.2
  | case14 => trivial
  | _ => exact h

end Reader

/-- Whatever is read is nested within the limit. -/
theorem within_of_read {text : String} {d : Document} (h : read text = .ok d) :
    d.Within nestingLimit := by
  have hfold : ∀ (ts : List Token) (r : Reader), r.HasRoom → (∀ t ∈ ts, t.Flat) →
      (ts.foldl Reader.step r).HasRoom := by
    intro ts
    induction ts with
    | nil => exact fun r hr _ => hr
    | cons t ts ih =>
        intro r hr hts
        obtain ⟨ht, hts⟩ := List.forall_mem_cons.mp hts
        exact ih _ (Reader.hasRoom_step hr ht) hts
  have hroom := hfold (tokens text.toList) (.wantValue []) trivial (flat_tokens _)
  unfold read readTokens at h
  split at h
  · next hdone =>
    rw [hdone] at hroom
    exact Except.ok.inj h ▸ hroom
  · contradiction

/-! ## What a document that is read denotes -/

mutual

theorem plain_of_toValue? {levels : Nat} {d : Document} {v : Value} (hd : d.Within levels)
    (h : d.toValue? = some v) (hv : v.FloatFree) : v.Plain levels := by
  cases d with
  | unrepresentable => contradiction
  | null | bool b | string s =>
      obtain rfl := Option.some.inj h
      trivial
  | number n =>
      cases n with
      | integer i =>
          obtain rfl := Option.some.inj h
          trivial
      | float x =>
          rw [Document.toValue?, Option.some.injEq] at h
          split at h
          · exact (h ▸ hv : (Value.number (.float x)).FloatFree).elim
          · exact h ▸ trivial
  | array items =>
      rw [Document.toValue?, Option.map_eq_some_iff] at h
      obtain ⟨vs, hvs, rfl⟩ := h
      exact ⟨hd.1, plain_of_toValues? hd.2 hvs hv⟩
  | object members =>
      rw [Document.toValue?, Option.map_eq_some_iff] at h
      obtain ⟨ms, hms, rfl⟩ := h
      refine ⟨hd.1, Dictionary.ordered_ofList ms, Value.plainMembers_iff.mpr fun e he => ?_⟩
      exact plain_of_toMembers? hd.2 hms e (Dictionary.mem_of_mem_ofList he)
        (Value.floatFreeMembers_iff.mp hv e he)

theorem plain_of_toValues? {levels : Nat} {ds : List Document} {vs : List Value}
    (hds : Document.WithinItems levels ds) (h : Document.toValues? ds = some vs)
    (hvs : Value.FloatFreeItems vs) : Value.PlainItems levels vs := by
  cases ds with
  | nil =>
      obtain rfl := Option.some.inj h
      trivial
  | cons d ds =>
      simp only [Document.toValues?, Option.bind_eq_bind, Option.bind_eq_some_iff, pure,
        Option.some.injEq] at h
      obtain ⟨v, hv, ws, hws, rfl⟩ := h
      exact ⟨plain_of_toValue? hds.1 hv hvs.1, plain_of_toValues? hds.2 hws hvs.2⟩

theorem plain_of_toMembers? {levels : Nat} {ds : List (Option String × Document)}
    {ms : List (String × Value)} (hds : Document.WithinMembers levels ds)
    (h : Document.toMembers? ds = some ms) :
    ∀ e ∈ ms, e.2.FloatFree → e.2.Plain levels := by
  cases ds with
  | nil =>
      obtain rfl := Option.some.inj h
      simp
  | cons d ds =>
      obtain ⟨k, d⟩ := d
      simp only [Document.toMembers?, Option.bind_eq_bind, Option.bind_eq_some_iff, pure,
        Option.some.injEq] at h
      obtain ⟨l, -, v, hv, ns, hns, rfl⟩ := h
      exact List.forall_mem_cons.mpr
        ⟨plain_of_toValue? hds.1 hv, plain_of_toMembers? hds.2 hns⟩

end

/-- Whatever is read without doubles is plain. -/
theorem plain_of_readValue {text : String} {v : Value} (h : readValue text = .ok v)
    (hv : v.FloatFree) : v.Plain nestingLimit := by
  unfold readValue at h
  cases hd : read text with
  | error e => rw [hd] at h; contradiction
  | ok d =>
      rw [hd] at h
      dsimp only at h
      split at h
      · next v' hv' =>
        obtain rfl := Except.ok.inj h
        exact plain_of_toValue? (within_of_read hd) hv' hv
      · contradiction

end DeviceBridge.Json
