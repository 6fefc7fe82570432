import DeviceBridge.NodeId
import DeviceBridge.Proofs.Json.Numeral
import Mathlib.Data.List.Forall2
import Mathlib.Data.List.TakeWhile
import Mathlib.Data.Nat.Digits.Defs
import Mathlib.Tactic.Ring

/-!
# DeviceBridge.Proofs.NodeId

Which texts name a node, and which node. The grammar is stated without the reader: a numeral denotes
the number that its digits write in the radix that it announces (`NodeId.Denotes`), and a text names
that number if there is nothing else in it but white space around the numeral and one `n` behind it
(`NodeId.Names`). The reader takes just the texts that name a number below 2 ^ 64, and hands back
every other text as it was (`NodeId.parse_grammar`).
-/

namespace DeviceBridge

/-! ## Positional numbers -/

/-- A character writes a digit of a radix; a letter does so in either case. -/
def WritesDigit (radix : Nat) (c : Char) (d : Nat) : Prop :=
  d < radix ∧
    ("0123456789abcdef".toList[d]? = some c ∨ "0123456789ABCDEF".toList[d]? = some c)

/-- Characters write a number in a radix, the most significant digit first. -/
def WritesNumber (radix : Nat) (cs : List Char) (v : Nat) : Prop :=
  cs ≠ [] ∧ ∃ ds, List.Forall₂ (WritesDigit radix) cs ds ∧ v = Nat.ofDigits radix ds.reverse

/-- Digits and letters stand in ASCII. -/
theorem toNat_lt_of_digitValue? {c : Char} {d : Nat} (h : digitValue? c = some d) :
    c.toNat < 123 := by
  unfold digitValue? at h
  split at h
  · next hc =>
    have hle : c.toNat ≤ 57 := hc.2
    omega
  · split at h
    · next hc =>
      have hle : c.toNat ≤ 122 := hc.2
      omega
    · split at h
      · next hc =>
        have hle : c.toNat ≤ 90 := hc.2
        omega
      · contradiction

theorem writesDigit_iff {radix : Nat} (hradix : radix ≤ 16) {c : Char} {d : Nat} :
    WritesDigit radix c d ↔ digitValue? c = some d ∧ d < radix := by
  constructor
  · rintro ⟨hd, hc⟩
    have hd16 : d < 16 := Nat.lt_of_lt_of_le hd hradix
    have hlower : "0123456789abcdef".toList.map digitValue? = (List.range 16).map some := by decide
    have hupper : "0123456789ABCDEF".toList.map digitValue? = (List.range 16).map some := by decide
    have hread {cs : List Char} (hcs : cs.map digitValue? = (List.range 16).map some)
        (hc : cs[d]? = some c) : digitValue? c = some d := by
      have hat := congrArg (·[d]?) hcs
      simpa [hc, hd16] using hat
    exact ⟨hc.elim (hread hlower) (hread hupper), hd⟩
  · rintro ⟨hc, hd⟩
    have hascii : ∀ n < 123, ∀ d < 16, digitValue? (Char.ofNat n) = some d →
        "0123456789abcdef".toList[d]? = some (Char.ofNat n) ∨
          "0123456789ABCDEF".toList[d]? = some (Char.ofNat n) := by decide +kernel
    have hchar := hascii c.toNat (toNat_lt_of_digitValue? hc) d (Nat.lt_of_lt_of_le hd hradix)
    rw [Char.ofNat_toNat] at hchar
    exact ⟨hd, hchar hc⟩

theorem plain_of_all {cs : List Char}
    (h : cs.all (fun c => !Text.isBlank c && decide (c ≠ 'n')) = true) :
    ∀ c ∈ cs, Text.isBlank c = false ∧ c ≠ 'n' := fun c hc => by
  simpa using List.all_eq_true.mp h c hc

/-- No digit is white space or an `n`. -/
theorem WritesDigit.plain {radix : Nat} {c : Char} {d : Nat} (h : WritesDigit radix c d) :
    Text.isBlank c = false ∧ c ≠ 'n' :=
  h.2.elim (fun hc => plain_of_all (by decide) c (List.mem_of_getElem? hc)) fun hc =>
    plain_of_all (by decide) c (List.mem_of_getElem? hc)

theorem digitsFrom?_eq_some_iff {radix : Nat} (hradix : radix ≤ 16) {cs : List Char} {a v : Nat} :
    digitsFrom? radix a cs = some v ↔
      ∃ ds, List.Forall₂ (WritesDigit radix) cs ds ∧
        v = ds.foldl (fun v d => v * radix + d) a := by
  induction cs generalizing a with
  | nil => simp [digitsFrom?, eq_comm]
  | cons c cs ih =>
      have hstep : digitsFrom? radix a (c :: cs) = some v ↔
          ∃ d, WritesDigit radix c d ∧ digitsFrom? radix (a * radix + d) cs = some v := by
        simp only [writesDigit_iff hradix]
        rw [digitsFrom?]
        cases hc : digitValue? c with
        | none => simp
        | some d =>
            by_cases hd : d < radix
            · simp [hd]
            · simp [hd]
      rw [hstep]
      constructor
      · rintro ⟨d, hd, hrest⟩
        obtain ⟨ds, hds, hv⟩ := ih.mp hrest
        exact ⟨d :: ds, .cons hd hds, hv⟩
      · rintro ⟨ds, hds, hv⟩
        cases hds with
        | cons hd hds => exact ⟨_, hd, ih.mpr ⟨_, hds, hv⟩⟩

/-- Reading digits one after the other gives their positional value. -/
theorem foldl_digits (radix a : Nat) (ds : List Nat) :
    ds.foldl (fun v d => v * radix + d) a =
      a * radix ^ ds.length + Nat.ofDigits radix ds.reverse := by
  induction ds generalizing a with
  | nil => simp
  | cons d ds ih =>
      rw [List.foldl_cons, ih, Nat.ofDigits_reverse_cons, List.length_cons, Nat.pow_succ]
      ring

theorem positional?_eq_some_iff {radix : Nat} (hradix : radix ≤ 16) {cs : List Char} {v : Nat} :
    positional? radix cs = some v ↔ WritesNumber radix cs v := by
  unfold positional? WritesNumber
  split
  · next h => simp [h]
  · next h => simp [h, digitsFrom?_eq_some_iff hradix, foldl_digits]

namespace NodeId

/-! ## Numerals -/

/-- What stands in front of the digits announces the radix. -/
inductive Announces : List Char → Nat → Prop
  | decimal : Announces [] 10
  | hexadecimal {c : Char} (hc : c = 'x' ∨ c = 'X') : Announces ['0', c] 16
  | octal {c : Char} (hc : c = 'o' ∨ c = 'O') : Announces ['0', c] 8
  | binary {c : Char} (hc : c = 'b' ∨ c = 'B') : Announces ['0', c] 2

/-- A numeral denotes the number that its digits write in the radix that it announces. -/
def Denotes (numeral : List Char) (v : Nat) : Prop :=
  ∃ announcement digits radix, Announces announcement radix ∧
    numeral = announcement ++ digits ∧ WritesNumber radix digits v

/-- A text names a number: it is a numeral, perhaps with an `n` behind it, with white space
around. -/
def Names (text : List Char) (v : Nat) : Prop :=
  ∃ before numeral suffix after, text = before ++ (numeral ++ suffix) ++ after ∧
    (∀ c ∈ before, Text.isBlank c = true) ∧ (∀ c ∈ after, Text.isBlank c = true) ∧
    (suffix = [] ∨ suffix = ['n']) ∧ Denotes numeral v

theorem Announces.le {announcement : List Char} {radix : Nat} (h : Announces announcement radix) :
    radix ≤ 16 := by
  cases h <;> decide

theorem Announces.plain {announcement : List Char} {radix : Nat}
    (h : Announces announcement radix) :
    ∀ c ∈ announcement, Text.isBlank c = false ∧ c ≠ 'n' := by
  cases h with
  | decimal => exact plain_of_all rfl
  | hexadecimal hc | octal hc | binary hc =>
      obtain rfl | rfl := hc <;> exact plain_of_all (by decide)

/-- The second of two decimal digits announces no radix. -/
theorem splitRadix_of_decimal {cs : List Char} {v : Nat} (h : WritesNumber 10 cs v) :
    splitRadix cs = (10, cs) := by
  obtain ⟨-, ds, hds, -⟩ := h
  have hletter {b c : Char} {rest : List Char} (hc : ∀ d < 10, digitValue? c ≠ some d)
      (hds : List.Forall₂ (WritesDigit 10) (b :: c :: rest) ds) : False := by
    obtain ⟨_, _, _, hrest, _⟩ := List.forall₂_cons_left_iff.mp hds
    obtain ⟨d, _, hd, _, _⟩ := List.forall₂_cons_left_iff.mp hrest
    obtain ⟨hval, hlt⟩ := (writesDigit_iff (by decide)).mp hd
    exact hc d hlt hval
  unfold splitRadix
  split
  · exact (hletter (by decide) hds).elim
  · exact (hletter (by decide) hds).elim
  · exact (hletter (by decide) hds).elim
  · exact (hletter (by decide) hds).elim
  · exact (hletter (by decide) hds).elim
  · exact (hletter (by decide) hds).elim
  · rfl

/-- What stands in front of the digits and announces their radix is parted from them. -/
theorem exists_announces (cs : List Char) :
    ∃ announcement, Announces announcement (splitRadix cs).1 ∧
      cs = announcement ++ (splitRadix cs).2 := by
  unfold splitRadix
  split
  · exact ⟨_, .hexadecimal (.inl rfl), rfl⟩
  · exact ⟨_, .hexadecimal (.inr rfl), rfl⟩
  · exact ⟨_, .octal (.inl rfl), rfl⟩
  · exact ⟨_, .octal (.inr rfl), rfl⟩
  · exact ⟨_, .binary (.inl rfl), rfl⟩
  · exact ⟨_, .binary (.inr rfl), rfl⟩
  · exact ⟨_, .decimal, rfl⟩

theorem positional?_splitRadix {cs : List Char} {v : Nat} :
    positional? (splitRadix cs).1 (splitRadix cs).2 = some v ↔ Denotes cs v := by
  constructor
  · intro h
    obtain ⟨announcement, ha, hcs⟩ := exists_announces cs
    exact ⟨announcement, _, _, ha, hcs, (positional?_eq_some_iff ha.le).mp h⟩
  · rintro ⟨announcement, digits, radix, ha, rfl, hdigits⟩
    have hradix := ha.le
    cases ha with
    | decimal =>
        rw [List.nil_append, splitRadix_of_decimal hdigits]
        exact (positional?_eq_some_iff hradix).mpr hdigits
    | hexadecimal hc | octal hc | binary hc =>
        obtain rfl | rfl := hc <;> exact (positional?_eq_some_iff hradix).mpr hdigits

/-! ## White space and suffix -/

/-- Trimming parts a text into white space, the rest, and white space. -/
theorem exists_trim (text : List Char) :
    ∃ before after, text = before ++ Text.trim text ++ after ∧
      (∀ c ∈ before, Text.isBlank c = true) ∧ ∀ c ∈ after, Text.isBlank c = true := by
  let rest := text.dropWhile Text.isBlank
  let tail := rest.reverse.takeWhile Text.isBlank
  have hfront : text = text.takeWhile Text.isBlank ++ rest :=
    List.takeWhile_append_dropWhile.symm
  have hback : rest = Text.trim text ++ tail.reverse := by
    rw [Text.trim, ← List.reverse_append, List.takeWhile_append_dropWhile, List.reverse_reverse]
  refine ⟨text.takeWhile Text.isBlank, tail.reverse, ?_, fun c hc => List.mem_takeWhile_imp hc,
    fun c hc => ?_⟩
  · rw [List.append_assoc, ← hback]
    exact hfront
  · have htail : c ∈ rest.reverse.takeWhile Text.isBlank := List.mem_reverse.mp hc
    exact List.mem_takeWhile_imp htail

/-- White space around a text without any is trimmed. -/
theorem trim_append {before core after : List Char} (hne : core ≠ [])
    (hbefore : ∀ c ∈ before, Text.isBlank c = true) (hafter : ∀ c ∈ after, Text.isBlank c = true)
    (hcore : ∀ c ∈ core, Text.isBlank c = false) :
    Text.trim (before ++ core ++ after) = core := by
  have hdrop {blanks cs : List Char} (hblanks : ∀ c ∈ blanks, Text.isBlank c = true)
      (hcs : ∀ c ∈ cs.head?, Text.isBlank c = false) :
      (blanks ++ cs).dropWhile Text.isBlank = cs := by
    rw [List.dropWhile_append_of_pos hblanks]
    cases cs with
    | nil => rfl
    | cons c cs => exact List.dropWhile_cons_of_neg (by simpa using hcs c rfl)
  have hhead : ∀ c ∈ (core ++ after).head?, Text.isBlank c = false := fun c hc => by
    rw [List.head?_append_of_ne_nil _ hne] at hc
    exact hcore c (List.mem_of_mem_head? hc)
  have hlast : ∀ c ∈ core.reverse.head?, Text.isBlank c = false := fun c hc =>
    hcore c (List.mem_reverse.mp (List.mem_of_mem_head? hc))
  have hblanks : ∀ c ∈ after.reverse, Text.isBlank c = true := fun c hc =>
    hafter c (List.mem_reverse.mp hc)
  rw [Text.trim, List.append_assoc, hdrop hbefore hhead, List.reverse_append,
    hdrop hblanks hlast, List.reverse_reverse]

/-- One `n` at the end is dropped, if there is one. -/
theorem exists_dropSuffix (cs : List Char) :
    ∃ suffix, cs = dropSuffix cs ++ suffix ∧ (suffix = [] ∨ suffix = ['n']) := by
  unfold dropSuffix
  split
  · next h => exact ⟨['n'], (List.dropLast_append_getLast? _ h).symm, .inr rfl⟩
  · exact ⟨[], (List.append_nil cs).symm, .inl rfl⟩

/-- What does not end in an `n` is what is left. -/
theorem dropSuffix_append {cs suffix : List Char} (h : ∀ c ∈ cs, c ≠ 'n')
    (hsuffix : suffix = [] ∨ suffix = ['n']) : dropSuffix (cs ++ suffix) = cs := by
  unfold dropSuffix
  obtain rfl | rfl := hsuffix
  · have hlast : (cs ++ []).getLast? ≠ some 'n' := fun hlast =>
      h 'n' (List.mem_of_getLast? (List.append_nil cs ▸ hlast)) rfl
    rw [if_neg hlast, List.append_nil]
  · rw [if_pos List.getLast?_concat, List.dropLast_concat]

/-! ## The whole text -/

/-- Nothing in a numeral is white space or an `n`. -/
theorem Denotes.plain {numeral : List Char} {v : Nat} (h : Denotes numeral v) :
    numeral ≠ [] ∧ ∀ c ∈ numeral, Text.isBlank c = false ∧ c ≠ 'n' := by
  obtain ⟨announcement, digits, radix, ha, rfl, hne, ds, hds, -⟩ := h
  refine ⟨fun hnil => hne (List.append_eq_nil_iff.mp hnil).2, fun c hc => ?_⟩
  rcases List.mem_append.mp hc with hc | hc
  · exact ha.plain c hc
  · have hall := hds.imp fun c d hd => And.intro hd.plain hd
    exact ((List.forall₂_and_left _ _).mp hall).1 c hc

theorem number?_eq_some_iff {text : List Char} {v : Nat} :
    number? text = some v ↔ Names text v := by
  have hnumber : number? text = some v ↔ Denotes (dropSuffix (Text.trim text)) v :=
    positional?_splitRadix
  rw [hnumber]
  constructor
  · intro h
    obtain ⟨before, after, htext, hbefore, hafter⟩ := exists_trim text
    obtain ⟨suffix, htrim, hsuffix⟩ := exists_dropSuffix (Text.trim text)
    exact ⟨before, _, suffix, after, htrim ▸ htext, hbefore, hafter, hsuffix, h⟩
  · rintro ⟨before, numeral, suffix, after, rfl, hbefore, hafter, hsuffix, h⟩
    obtain ⟨hne, hplain⟩ := h.plain
    have hcore : ∀ c ∈ numeral ++ suffix, Text.isBlank c = false := fun c hc => by
      rcases List.mem_append.mp hc with hc | hc
      · exact (hplain c hc).1
      · obtain rfl | rfl := hsuffix
        · cases hc
        · obtain rfl := List.mem_singleton.mp hc
          decide
    rw [trim_append (by simp [hne]) hbefore hafter hcore,
      dropSuffix_append (fun c hc => (hplain c hc).2) hsuffix]
    exact h

theorem parse_eq_ok_iff {s : String} {id : NodeId} :
    parse s = .ok id ↔ Names s.toList id.value.toNat := by
  rw [← number?_eq_some_iff]
  unfold parse
  cases hn : number? s.toList with
  | none => simp
  | some n =>
      by_cases hsize : n < UInt64.size
      · have hword : (UInt64.ofNat n).toNat = n := UInt64.toNat_ofNat_of_lt' hsize
        simp only [hsize, if_true, Except.ok.injEq, Option.some.injEq]
        constructor
        · rintro rfl
          exact hword.symm
        · rintro rfl
          exact congrArg NodeId.mk UInt64.ofNat_toNat
      · simp only [hsize, if_false, reduceCtorEq, Option.some.injEq, false_iff]
        rintro rfl
        exact hsize id.value.toNat_lt_size

theorem parse_eq_error_iff {s : String} {e : InvalidNodeId} :
    parse s = .error e ↔ e = ⟨s⟩ ∧ ∀ v < 2 ^ 64, ¬ Names s.toList v := by
  have hnames (v : Nat) : Names s.toList v ↔ number? s.toList = some v :=
    number?_eq_some_iff.symm
  simp only [hnames]
  unfold parse
  cases hn : number? s.toList with
  | none => simp [eq_comm]
  | some n =>
      by_cases hsize : n < UInt64.size
      · simp only [hsize, if_true, reduceCtorEq, Option.some.injEq, false_iff, not_and]
        exact fun _ h => h n hsize rfl
      · simp only [hsize, if_false, Except.error.injEq, Option.some.injEq]
        refine ⟨fun h => ⟨h.symm, ?_⟩, fun h => h.1.symm⟩
        rintro v hv rfl
        exact hsize hv

/-! ## What is displayed -/

/-- The decimal digits of a number write it. -/
theorem denotes_decimalDigits (n : Nat) : Denotes (Json.decimalDigits n) n := by
  obtain ⟨d, ds, htext, hlt, hvalue, -⟩ := Json.decimalDigits_spec n
  have hdigit : ∀ x < 10, WritesDigit 10 (Nat.digitChar x) x := by
    unfold WritesDigit
    decide
  have hwrites : List.Forall₂ (WritesDigit 10) (Json.decimalDigits n) (d :: ds) := by
    rw [htext, List.forall₂_map_left_iff, List.forall₂_same]
    exact fun x hx => hdigit x (hlt x hx)
  have hpositional : n = Nat.ofDigits 10 (d :: ds).reverse := by
    have hfold := foldl_digits 10 0 (d :: ds)
    rw [Nat.zero_mul, Nat.zero_add] at hfold
    exact hvalue.symm.trans hfold
  exact ⟨[], _, 10, .decimal, rfl, Json.decimalDigits_ne_nil n, d :: ds, hwrites, hpositional⟩

/-- A numeral may have an `n` behind it. -/
theorem Denotes.names {numeral suffix : List Char} {v : Nat} (h : Denotes numeral v)
    (hsuffix : suffix = [] ∨ suffix = ['n']) : Names (numeral ++ suffix) v :=
  ⟨[], numeral, suffix, [], by simp, by simp, by simp, hsuffix, h⟩

/-- A text is read as a node id just if it names the number of the node: once the white space around
it and then one `n` at its end are removed, digits are left, decimal ones or those of the radix that
is announced before them, whose positional value is that number, which is below 2 ^ 64. Every other
text is refused and handed back as it was. In particular what is displayed of a node is read as that
node, with an `n` or without. -/
theorem parse_grammar (s : String) :
    (∀ id : NodeId, parse s = .ok id ↔ Names s.toList id.value.toNat) ∧
      (∀ e, parse s = .error e ↔ e = ⟨s⟩ ∧ ∀ v < 2 ^ 64, ¬ Names s.toList v) ∧
      ∀ id : NodeId, parse id.display = .ok id ∧ parse (id.display ++ "n") = .ok id := by
  refine ⟨fun id => parse_eq_ok_iff, fun e => parse_eq_error_iff, fun id => ?_⟩
  have hdisplay : id.display.toList = Json.decimalDigits id.value.toNat := String.toList_ofList
  have hdenotes := denotes_decimalDigits id.value.toNat
  constructor
  · rw [parse_eq_ok_iff, hdisplay, ← List.append_nil (Json.decimalDigits _)]
    exact hdenotes.names (.inl rfl)
  · rw [parse_eq_ok_iff, String.toList_append, hdisplay]
    exact hdenotes.names (.inr rfl)

end NodeId

end DeviceBridge
