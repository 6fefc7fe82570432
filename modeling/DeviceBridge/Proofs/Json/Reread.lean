import DeviceBridge.Proofs.Dictionary
import DeviceBridge.Proofs.Json.Numeral

/-!
# DeviceBridge.Proofs.Json.Reread

Documents, written on lines and read back. Every document is written as a text that is well formed
(`read_pretty`), and what it is read back as is computed from it part by part (`Document.reread`):
all is as before, but a double may have become a neighbour, and what is nested too deeply denotes no
value any more. So an object that is read back at all has the keys it had, and strings and whole
numbers at them are the same (`readValue_pretty`).
-/

namespace DeviceBridge.Json

/-! ## Tokens of a document -/

namespace Document

mutual

/-- The tokens that a document is written as. -/
def toTokens : Document → List Token
  | unrepresentable | null => [.scalar .null]
  | bool b => [.scalar (.bool b)]
  | number n => [.scalar n.reread]
  | string s => [.text (some s)]
  | array items => .openArray :: (itemTokens true items ++ [.closeArray])
  | object members => .openObject :: (memberTokens true members ++ [.closeObject])

/-- The tokens of an array's items, each but the first after a comma. -/
def itemTokens (first : Bool) : List Document → List Token
  | [] => []
  | d :: ds => (if first then [] else [.comma]) ++ toTokens d ++ itemTokens false ds

/-- The tokens of an object's members, each but the first after a comma. -/
def memberTokens (first : Bool) : List (Option String × Document) → List Token
  | [] => []
  | (k, d) :: ms =>
    (if first then [] else [.comma]) ++ .text (some (k.getD "")) :: .colon ::
      (toTokens d ++ memberTokens false ms)

end

end Document

/-- What the lexer makes of the rest of a text. -/
def Lexer.run (l : Lexer) (cs : List Char) : List Token := (cs.foldl Lexer.step l).finish

/-- A rest of a text that may follow a value directly. -/
def Follows (rest : List Char) : Prop := ∀ c ∈ rest.head?, isDelimiter c = true

theorem follows_cons {c : Char} (h : isDelimiter c = true) (cs : List Char) :
    Follows (c :: cs) := fun _ hc => Option.some.inj hc ▸ h

theorem Lexer.Settles.run {l : Lexer} {ts : List Token} (h : l.Settles ts) {rest : List Char}
    (hr : Follows rest) : l.run rest = Lexer.run ⟨.between, ts⟩ rest := by
  cases rest with
  | nil => exact h.finish
  | cons c cs =>
      unfold Lexer.run
      rw [h.foldl (hr c rfl)]

theorem run_append (l : Lexer) (cs ds : List Char) :
    l.run (cs ++ ds) = (cs.foldl Lexer.step l).run ds := by
  unfold Lexer.run
  rw [List.foldl_append]

/-- Blanks between tokens are skipped. -/
theorem run_lineBreak (level : Nat) (ts : List Token) (rest : List Char) :
    Lexer.run ⟨.between, ts⟩ (Document.lineBreak level ++ rest) =
      Lexer.run ⟨.between, ts⟩ rest := by
  have hblanks (n : Nat) : (List.replicate n ' ').foldl Lexer.step ⟨.between, ts⟩ =
      ⟨.between, ts⟩ := by
    induction n with
    | zero => rfl
    | succ n ih => exact ih
  rw [run_append]
  congr 1
  exact hblanks (2 * level)

theorem follows_prettyItems (level : Nat) (ds : List Document) {rest : List Char}
    (h : Follows rest) : Follows (Document.prettyItems level false ds rest) := by
  cases ds with
  | nil => exact h
  | cons d ds => exact follows_cons rfl _

theorem follows_prettyMembers (level : Nat) (ms : List (Option String × Document))
    {rest : List Char} (h : Follows rest) :
    Follows (Document.prettyMembers level false ms rest) := by
  cases ms with
  | nil => exact h
  | cons m ms => exact follows_cons rfl _

theorem follows_lineBreak (level : Nat) (rest : List Char) :
    Follows (Document.lineBreak level ++ rest) := follows_cons rfl _

theorem run_scalar {w : List Char} {d : Document} {ts : List Token} {rest : List Char}
    (h : Lexer.Settles (w.foldl Lexer.step ⟨.between, ts⟩) (.scalar d :: ts))
    (hr : Follows rest) :
    Lexer.run ⟨.between, ts⟩ (w ++ rest) = Lexer.run ⟨.between, .scalar d :: ts⟩ rest := by
  rw [run_append, h.run hr]

theorem run_writeString (s : String) (ts : List Token) (rest : List Char) :
    Lexer.run ⟨.between, ts⟩ (writeString s ++ rest) =
      Lexer.run ⟨.between, .text (some s) :: ts⟩ rest := by
  rw [run_append, foldl_writeString]

/-- A comma stands before all but the first. -/
theorem run_comma (first : Bool) (ts : List Token) (rest : List Char) :
    Lexer.run ⟨.between, ts⟩ ((if first then [] else [',']) ++ rest) =
      Lexer.run ⟨.between, (if first then [] else [.comma]) ++ ts⟩ rest := by
  cases first <;> rfl

mutual

/-- The text of a document on lines has the tokens of the document. -/
theorem run_writePretty (level : Nat) (d : Document) (ts : List Token) {rest : List Char}
    (hr : Follows rest) :
    Lexer.run ⟨.between, ts⟩ (d.writePretty level rest) =
      Lexer.run ⟨.between, d.toTokens.reverse ++ ts⟩ rest := by
  cases d with
  | unrepresentable | null =>
      exact run_scalar (w := ['n', 'u', 'l', 'l']) (settles_word rfl ts) hr
  | bool b =>
      cases b
      · exact run_scalar (w := ['f', 'a', 'l', 's', 'e']) (settles_word rfl ts) hr
      · exact run_scalar (w := ['t', 'r', 'u', 'e']) (settles_word rfl ts) hr
  | number n => exact run_scalar (settles_writeNumber n ts) hr
  | string s => exact run_writeString s ts rest
  | array items =>
      cases items with
      | nil => rfl
      | cons d ds =>
          have hopen (cs : List Char) : Lexer.run ⟨.between, ts⟩ ('[' :: cs) =
              Lexer.run ⟨.between, .openArray :: ts⟩ cs := rfl
          have hclose (ts : List Token) : Lexer.run ⟨.between, ts⟩ (']' :: rest) =
              Lexer.run ⟨.between, .closeArray :: ts⟩ rest := rfl
          rw [Document.writePretty, hopen, run_prettyItems (level + 1) true (d :: ds) _
            (follows_lineBreak level _), run_lineBreak, hclose]
          simp [Document.toTokens]
  | object members =>
      cases members with
      | nil => rfl
      | cons m ms =>
          have hopen (cs : List Char) : Lexer.run ⟨.between, ts⟩ ('\x7b' :: cs) =
              Lexer.run ⟨.between, .openObject :: ts⟩ cs := rfl
          have hclose (ts : List Token) : Lexer.run ⟨.between, ts⟩ ('\x7d' :: rest) =
              Lexer.run ⟨.between, .closeObject :: ts⟩ rest := rfl
          rw [Document.writePretty, hopen, run_prettyMembers (level + 1) true (m :: ms) _
            (follows_lineBreak level _), run_lineBreak, hclose]
          simp [Document.toTokens]

theorem run_prettyItems (level : Nat) (first : Bool) (ds : List Document) (ts : List Token)
    {rest : List Char} (hr : Follows rest) :
    Lexer.run ⟨.between, ts⟩ (Document.prettyItems level first ds rest) =
      Lexer.run ⟨.between, (Document.itemTokens first ds).reverse ++ ts⟩ rest := by
  cases ds with
  | nil => rfl
  | cons d ds =>
      rw [Document.prettyItems, List.append_assoc, run_comma, run_lineBreak,
        run_writePretty level d _ (follows_prettyItems level ds hr),
        run_prettyItems level false ds _ hr]
      cases first <;> simp [Document.itemTokens]

theorem run_prettyMembers (level : Nat) (first : Bool) (ms : List (Option String × Document))
    (ts : List Token) {rest : List Char} (hr : Follows rest) :
    Lexer.run ⟨.between, ts⟩ (Document.prettyMembers level first ms rest) =
      Lexer.run ⟨.between, (Document.memberTokens first ms).reverse ++ ts⟩ rest := by
  cases ms with
  | nil => rfl
  | cons m ms =>
      obtain ⟨k, d⟩ := m
      have hcolon (ts : List Token) (cs : List Char) :
          Lexer.run ⟨.between, ts⟩ (':' :: ' ' :: cs) =
            Lexer.run ⟨.between, .colon :: ts⟩ cs := rfl
      rw [Document.prettyMembers, List.append_assoc, List.append_assoc, run_comma, run_lineBreak,
        writeKey, run_writeString, hcolon,
        run_writePretty level d _ (follows_prettyMembers level ms hr),
        run_prettyMembers level false ms _ hr]
      cases first <;> simp [Document.memberTokens]

end

/-! ## Reading a document back -/

namespace Document

mutual

/-- What a document that lies inside a number of arrays and objects is read back as. -/
def reread (depth : Nat) : Document → Document
  | unrepresentable | null => null
  | bool b => bool b
  | number n => n.reread
  | string s => string s
  | array items =>
    if depth < nestingLimit then array (rereadItems (depth + 1) items) else unrepresentable
  | object members =>
    if depth < nestingLimit then object (rereadMembers (depth + 1) members) else unrepresentable

def rereadItems (depth : Nat) : List Document → List Document
  | [] => []
  | d :: ds => reread depth d :: rereadItems depth ds

def rereadMembers (depth : Nat) :
    List (Option String × Document) → List (Option String × Document)
  | [] => []
  | (k, d) :: ms => (some (k.getD ""), reread depth d) :: rereadMembers depth ms

end

end Document

namespace Reader

/-- Whether a value that comes next is handed to the given stack. -/
def Awaits (r : Reader) (stack : List Frame) : Prop :=
  ∀ t, t ≠ .closeArray → r.step t = begin stack t

theorem awaits_wantValue (stack : List Frame) : Awaits (.wantValue stack) stack := fun _ _ => rfl

theorem awaits_wantFirstItem (stack : List Frame) :
    Awaits (.wantFirstItem stack) (.array [] :: stack) := fun t ht => by
  cases t <;> first | exact absurd rfl ht | rfl

end Reader

open Reader in
mutual

/-- The tokens of a document make the reader hand over the document that is read back. -/
theorem foldl_toTokens (d : Document) {r : Reader} {stack : List Frame} (h : r.Awaits stack) :
    d.toTokens.foldl Reader.step r = complete (d.reread stack.length) stack := by
  cases d with
  | unrepresentable | null | bool b | number n | string s =>
      exact h _ (by simp)
  | array items =>
      rw [Document.toTokens, List.foldl_cons, h _ (by simp), Document.reread]
      have hclose : close (.array (Document.rereadItems (stack.length + 1) items)) stack =
          complete (if stack.length < nestingLimit
            then .array (Document.rereadItems (stack.length + 1) items) else .unrepresentable)
            stack := rfl
      rw [← hclose]
      cases items with
      | nil => rfl
      | cons d ds =>
          have hfirst := foldl_toTokens d (awaits_wantFirstItem stack)
          simp only [Document.itemTokens, if_true, List.nil_append, List.append_assoc]
          rw [List.foldl_append]
          change List.foldl _ (List.foldl _ (wantFirstItem stack) _) _ = _
          rw [hfirst]
          exact foldl_itemTokens ds _ stack
  | object members =>
      rw [Document.toTokens, List.foldl_cons, h _ (by simp), Document.reread]
      have hclose : close (.object (Document.rereadMembers (stack.length + 1) members)) stack =
          complete (if stack.length < nestingLimit
            then .object (Document.rereadMembers (stack.length + 1) members)
            else .unrepresentable) stack := rfl
      rw [← hclose]
      cases members with
      | nil => rfl
      | cons m ms =>
          obtain ⟨k, d⟩ := m
          have hfirst := foldl_toTokens d
            (awaits_wantValue (.object [] (some (k.getD "")) :: stack))
          simp only [Document.memberTokens, if_true, List.nil_append, List.append_assoc,
            List.cons_append, List.foldl_cons]
          rw [List.foldl_append]
          change List.foldl _ (List.foldl _ (wantValue _) _) _ = _
          rw [hfirst]
          exact foldl_memberTokens ms _ stack

theorem foldl_itemTokens (ds items : List Document) (stack : List Frame) :
    (Document.itemTokens false ds ++ [Token.closeArray]).foldl Reader.step
        (.afterItem items stack) =
      close (.array (items.reverse ++ Document.rereadItems (stack.length + 1) ds)) stack := by
  cases ds with
  | nil =>
      rw [Document.rereadItems, List.append_nil]
      rfl
  | cons d ds =>
      have hnext := foldl_toTokens d (awaits_wantValue (.array items :: stack))
      simp only [Document.itemTokens, Bool.false_eq_true, if_false, List.append_assoc,
        List.cons_append, List.nil_append, List.foldl_cons]
      rw [List.foldl_append]
      change List.foldl _ (List.foldl _ (wantValue _) _) _ = _
      rw [hnext]
      change List.foldl _ (afterItem (d.reread (stack.length + 1) :: items) stack) _ = _
      rw [foldl_itemTokens ds _ stack]
      simp [Document.rereadItems]

theorem foldl_memberTokens (ms members : List (Option String × Document)) (stack : List Frame) :
    (Document.memberTokens false ms ++ [Token.closeObject]).foldl Reader.step
        (.afterMember members stack) =
      close (.object (members.reverse ++ Document.rereadMembers (stack.length + 1) ms)) stack := by
  cases ms with
  | nil =>
      rw [Document.rereadMembers, List.append_nil]
      rfl
  | cons m ms =>
      obtain ⟨k, d⟩ := m
      have hnext := foldl_toTokens d
        (awaits_wantValue (.object members (some (k.getD "")) :: stack))
      simp only [Document.memberTokens, Bool.false_eq_true, if_false, List.append_assoc,
        List.cons_append, List.nil_append, List.foldl_cons]
      rw [List.foldl_append]
      change List.foldl _ (List.foldl _ (wantValue _) _) _ = _
      rw [hnext]
      change List.foldl _ (afterMember
        ((some (k.getD ""), d.reread (stack.length + 1)) :: members) stack) _ = _
      rw [foldl_memberTokens ms _ stack]
      simp [Document.rereadMembers]

end

/-- Whatever is written on lines is well formed, and it is read back part by part. -/
theorem read_pretty (d : Document) : read d.pretty = .ok (d.reread 0) := by
  have htokens : tokens (d.writePretty 0 []) = d.toTokens := by
    have hempty : Follows [] := fun c hc => by simp at hc
    have hrun := run_writePretty 0 d [] hempty
    rw [List.append_nil] at hrun
    exact hrun.trans (List.reverse_reverse _)
  unfold read Document.pretty readTokens
  rw [String.toList_ofList, htokens, foldl_toTokens d (Reader.awaits_wantValue [])]
  rfl

/-! ## Reading an object back -/

/-- What a value that lies inside a number of arrays and objects is read back as, if it is. -/
def Value.reread (depth : Nat) (v : Value) : Option Value := (v.toDocument.reread depth).toValue?

@[simp] theorem Value.reread_string (depth : Nat) (s : String) :
    Value.reread depth (.string s) = some (.string s) := rfl

@[simp] theorem Value.reread_integer (depth : Nat) (i : Integer) :
    Value.reread depth (.number (.integer i)) = some (.number (.integer i)) := rfl

theorem keys_of_toMembers? {depth : Nat} {es ms : List (String × Value)}
    (h : Document.toMembers? (Document.rereadMembers depth (Value.toEntries es)) = some ms) :
    ms.map Prod.fst = es.map Prod.fst ∧
      ∀ k, Dictionary.get? ms k = (Dictionary.get? es k).bind (Value.reread depth) := by
  induction es generalizing ms with
  | nil =>
      obtain rfl := Option.some.inj h
      exact ⟨rfl, fun k => rfl⟩
  | cons e es ih =>
      obtain ⟨k, v⟩ := e
      simp only [Value.toEntries, Document.rereadMembers, Document.toMembers?, Option.getD_some,
        Option.bind_eq_bind, Option.bind_some, Option.bind_eq_some_iff, pure, Option.some.injEq]
        at h
      obtain ⟨w, hw, ns, hns, rfl⟩ := h
      obtain ⟨hkeys, hget⟩ := ih hns
      refine ⟨by simp [hkeys], fun l => ?_⟩
      rw [Dictionary.get?_cons, Dictionary.get?_cons]
      by_cases hl : l = k
      · rw [if_pos hl, if_pos hl, Option.bind_some]
        exact hw.symm
      · rw [if_neg hl, if_neg hl, hget]

/-- What an object is read back as has what is read back of each value at its key. -/
theorem lookup_rereadMembers (depth : Nat) (es : Object) (k : String) :
    (Document.rereadMembers depth (Value.toEntries es)).lookup (some k) =
      (es.get? k).map fun v => v.toDocument.reread depth := by
  induction es with
  | nil => rfl
  | cons e es ih =>
      obtain ⟨l, v⟩ := e
      rw [Value.toEntries, Document.rereadMembers, List.lookup_cons, Dictionary.get?_cons, ih]
      by_cases hkl : k = l
      · simp [hkl]
      · have hbeq : (k == l) = false := beq_false_of_ne hkl
        simp [hkl, hbeq]

/-- Objects that are written as the same text are read back as the same, value by value. -/
theorem reread_of_pretty_eq {es fs : Object}
    (h : (Value.object es).pretty = (Value.object fs).pretty)
    (k : String) :
    (es.get? k).map (fun v => v.toDocument.reread 1) =
      (fs.get? k).map fun v => v.toDocument.reread 1 := by
  have hread (es : Object) : read (Value.object es).pretty =
      .ok (.object (Document.rereadMembers 1 (Value.toEntries es))) := read_pretty _
  have hsame := (hread es).symm.trans ((congrArg read h).trans (hread fs))
  rw [← lookup_rereadMembers, ← lookup_rereadMembers, Document.object.inj (Except.ok.inj hsame)]

theorem ordered_of_keys {es ms : Object} (h : ms.map Prod.fst = es.map Prod.fst)
    (hes : es.Ordered) : ms.Ordered := by
  have hpair (d : Object) : d.Ordered ↔ (d.map Prod.fst).Pairwise (· < ·) :=
    List.pairwise_map.symm
  rw [hpair, h, ← hpair]
  exact hes

/-- What an object was written as is an object again, with what is read back of each value. -/
theorem readValue_pretty {es : Object} (hes : es.Ordered) {v : Value}
    (h : readValue (Value.object es).pretty = .ok v) :
    ∃ ms : Object, v = .object ms ∧ ms.Ordered ∧
      ∀ k, ms.get? k = (es.get? k).bind (Value.reread 1) := by
  have hread : read (Value.object es).pretty =
      .ok (.object (Document.rereadMembers 1 (Value.toEntries es))) := read_pretty _
  unfold readValue at h
  rw [hread] at h
  simp only [Document.toValue?] at h
  cases hms : Document.toMembers? (Document.rereadMembers 1 (Value.toEntries es)) with
  | none => rw [hms] at h; contradiction
  | some ms =>
      rw [hms] at h
      simp only [Option.map_some, Except.ok.injEq] at h
      obtain ⟨hkeys, hget⟩ := keys_of_toMembers? hms
      have hord := ordered_of_keys hkeys hes
      rw [Dictionary.ofList_of_ordered hord] at h
      exact ⟨ms, h.symm, hord, hget⟩

/-- Whatever an object is read from, its keys ascend. -/
theorem ordered_of_readValue {text : String} {es : Object}
    (h : readValue text = .ok (.object es)) : es.Ordered := by
  unfold readValue at h
  cases hr : read text with
  | error e => rw [hr] at h; contradiction
  | ok d =>
      rw [hr] at h
      simp only at h
      cases d with
      | object members =>
          simp only [Document.toValue?] at h
          cases hms : Document.toMembers? members with
          | none => rw [hms] at h; contradiction
          | some ms =>
              rw [hms] at h
              simp only [Option.map_some, Except.ok.injEq, Value.object.injEq] at h
              exact h ▸ Dictionary.ordered_ofList ms
      | array items =>
          simp only [Document.toValue?] at h
          cases hvs : Document.toValues? items with
          | none => rw [hvs] at h; contradiction
          | some vs => rw [hvs] at h; simp at h
      | number n =>
          cases n with
          | integer i => simp [Document.toValue?] at h
          | float x =>
              simp only [Document.toValue?] at h
              split at h <;> simp at h
      | unrepresentable | null | bool b | string s => simp [Document.toValue?] at h

end DeviceBridge.Json
