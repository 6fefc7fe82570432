import DeviceBridge.Proofs.Decimal
import DeviceBridge.Proofs.Json.Text

/-!
# DeviceBridge.Proofs.Json.Numeral

Numbers, written and read. The lexer goes through a numeral in phases, and a numeral ends where a
delimiter follows (`Lexer.Settles`). A whole number within 64 bits is read back exactly
(`settles_writeInteger`); of a double it is only said that its text is one numeral
(`settles_writeFloat`), as a double may be read back as one of its neighbours.
-/

namespace DeviceBridge.Json

/-! ## The end of a token -/

/-- Whether a character may follow a value directly. -/
def isDelimiter (c : Char) : Bool := c = ',' ∨ c = ']' ∨ c = '\x7d' ∨ c = '\n'

/-- A state of the lexer in which, as soon as a delimiter or the end follows, the tokens are the
given ones. -/
structure Lexer.Settles (l : Lexer) (ts : List Token) : Prop where
  finish : l.finish = ts.reverse
  step : ∀ c, isDelimiter c = true → l.step c = Lexer.step ⟨.between, ts⟩ c

/-- From a delimiter on, a settled state reads as the state between tokens does. -/
theorem Lexer.Settles.foldl {l : Lexer} {ts : List Token} (h : l.Settles ts) {c : Char}
    (hc : isDelimiter c = true) (cs : List Char) :
    (c :: cs).foldl Lexer.step l = (c :: cs).foldl Lexer.step ⟨.between, ts⟩ := by
  rw [List.foldl_cons, h.step c hc, List.foldl_cons]

/-- Whether a numeral may end in a phase. -/
def NumeralPhase.isFinal : NumeralPhase → Bool
  | zero | whole | fraction | exponent => true
  | _ => false

theorem digit?_of_isDelimiter {c : Char} (h : isDelimiter c = true) : digit? c = none := by
  simp only [isDelimiter, decide_eq_true_eq] at h
  rcases h with rfl | rfl | rfl | rfl <;> rfl

theorem extend?_of_isDelimiter {phase : NumeralPhase} (hp : phase.isFinal = true) (n : Numeral)
    {c : Char} (hc : isDelimiter c = true) : n.extend? phase c = none := by
  have hd := digit?_of_isDelimiter hc
  have hne : c ≠ '.' ∧ c ≠ 'e' ∧ c ≠ 'E' := by
    simp only [isDelimiter, decide_eq_true_eq] at hc
    rcases hc with rfl | rfl | rfl | rfl <;> decide
  cases phase <;> simp_all [NumeralPhase.isFinal, Numeral.extend?]

/-- The token of a numeral that may end is a scalar. -/
theorem token_of_isFinal {phase : NumeralPhase} (hp : phase.isFinal = true) (n : Numeral) :
    ∃ d, n.token phase = .scalar d := by
  cases phase with
  | zero | whole | fraction | exponent =>
      simp only [Numeral.token]
      cases n.inOrder.number? <;> exact ⟨_, rfl⟩
  | minus | point | mark | sign | wrong => simp [NumeralPhase.isFinal] at hp

theorem settles_numeral {phase : NumeralPhase} (hp : phase.isFinal = true) (n : Numeral)
    (ts : List Token) : Lexer.Settles ⟨.numeral phase n, ts⟩ (n.token phase :: ts) := by
  refine ⟨rfl, fun c hc => ?_⟩
  have hstep : Lexer.step ⟨.numeral phase n, ts⟩ c = Lexer.resume ts (n.token phase) c := by
    simp only [Lexer.step]
    rw [extend?_of_isDelimiter hp n hc]
  obtain ⟨d, hd⟩ := token_of_isFinal hp n
  rw [hstep, hd]
  rfl

theorem settles_word {letters : List Char} {d : Document}
    (h : wordToken letters.reverse = .scalar d) (ts : List Token) :
    Lexer.Settles ⟨.word letters, ts⟩ (.scalar d :: ts) := by
  refine ⟨by simp only [Lexer.finish, h], fun c hc => ?_⟩
  have hletter : ¬ ('a' ≤ c ∧ c ≤ 'z') := by
    simp only [isDelimiter, decide_eq_true_eq] at hc
    rcases hc with rfl | rfl | rfl | rfl <;> decide
  simp only [Lexer.step, hletter, if_false, h]
  rfl

/-! ## Phases -/

/-- From any numeral in one phase, the text leads to a numeral in another. -/
def Leads (phase : NumeralPhase) (cs : List Char) (phase' : NumeralPhase) : Prop :=
  ∀ n, ∃ n', ∀ ts, cs.foldl Lexer.step ⟨.numeral phase n, ts⟩ = ⟨.numeral phase' n', ts⟩

/-- The text is the beginning of a numeral that is then in the given phase. -/
def Starts (cs : List Char) (phase : NumeralPhase) : Prop :=
  ∃ n, ∀ ts, cs.foldl Lexer.step ⟨.between, ts⟩ = ⟨.numeral phase n, ts⟩

theorem Leads.append {p q r : NumeralPhase} {cs ds : List Char} (h : Leads p cs q)
    (h' : Leads q ds r) : Leads p (cs ++ ds) r := fun n => by
  obtain ⟨n', hn'⟩ := h n
  obtain ⟨n'', hn''⟩ := h' n'
  exact ⟨n'', fun ts => by rw [List.foldl_append, hn', hn'']⟩

theorem Starts.append {p q : NumeralPhase} {cs ds : List Char} (h : Starts cs p)
    (h' : Leads p ds q) : Starts (cs ++ ds) q := by
  obtain ⟨n, hn⟩ := h
  obtain ⟨n', hn'⟩ := h' n
  exact ⟨n', fun ts => by rw [List.foldl_append, hn, hn']⟩

/-- One character leads from phase to phase if every numeral takes it in. -/
theorem leads_singleton {p q : NumeralPhase} {c : Char}
    (h : ∀ n : Numeral, ∃ n', n.extend? p c = some (q, n')) : Leads p [c] q := fun n => by
  obtain ⟨n', hn'⟩ := h n
  exact ⟨n', fun ts => by simp only [List.foldl_cons, List.foldl_nil, Lexer.step, hn']⟩

/-- Digits. -/
def AllDigits (cs : List Char) : Prop := ∀ c ∈ cs, ∃ d < 10, c = Nat.digitChar d

theorem digit?_digitChar {d : Nat} (h : d < 10) : digit? (Nat.digitChar d) = some d := by
  revert d
  decide

theorem digitChar_ne_mark {d : Nat} (h : d < 10) :
    Nat.digitChar d ≠ '.' ∧ Nat.digitChar d ≠ 'e' ∧ Nat.digitChar d ≠ 'E' ∧
      Nat.digitChar d ≠ '+' ∧ Nat.digitChar d ≠ '-' := by
  revert d
  decide

/-- Digits after digits. -/
theorem leads_digits {p : NumeralPhase} (hp : p = .whole ∨ p = .fraction ∨ p = .exponent)
    {cs : List Char} (h : AllDigits cs) : Leads p cs p := by
  induction cs with
  | nil => exact fun n => ⟨n, fun _ => rfl⟩
  | cons c cs ih =>
      obtain ⟨d, hd, rfl⟩ := h c List.mem_cons_self
      have hmark := digitChar_ne_mark hd
      have hfirst : Leads p [Nat.digitChar d] p := leads_singleton fun n => by
        rcases hp with rfl | rfl | rfl <;>
          simp [Numeral.extend?, digit?_digitChar hd, hmark]
      exact hfirst.append (ih fun c hc => h c (List.mem_cons_of_mem _ hc))

/-- The first digit after a point, an exponent's mark or its sign. -/
theorem leads_first_digit {p q : NumeralPhase}
    (hp : p = .point ∧ q = .fraction ∨ p = .sign ∧ q = .exponent)
    {cs : List Char} (h : AllDigits cs) (hne : cs ≠ []) : Leads p cs q := by
  obtain ⟨c, cs, rfl⟩ := List.exists_cons_of_ne_nil hne
  obtain ⟨d, hd, rfl⟩ := h c List.mem_cons_self
  have hrest : AllDigits cs := fun c hc => h c (List.mem_cons_of_mem _ hc)
  have hfirst : Leads p [Nat.digitChar d] q := leads_singleton fun n => by
    rcases hp with ⟨rfl, rfl⟩ | ⟨rfl, rfl⟩ <;> simp [Numeral.extend?, digit?_digitChar hd]
  rcases hp with ⟨rfl, rfl⟩ | ⟨rfl, rfl⟩
  · exact hfirst.append (leads_digits (.inr (.inl rfl)) hrest)
  · exact hfirst.append (leads_digits (.inr (.inr rfl)) hrest)

/-- The sign of a number, as it is written. -/
def signText (negative : Bool) : List Char := if negative then ['-'] else []

theorem starts_zero (negative : Bool) : Starts (signText negative ++ ['0']) .zero := by
  cases negative
  · exact ⟨_, fun _ => rfl⟩
  · exact ⟨_, fun _ => rfl⟩

theorem foldl_first_digit (negative : Bool) {d : Nat} (hd : d < 10) (h0 : d ≠ 0)
    (ts : List Token) :
    (signText negative ++ [Nat.digitChar d]).foldl Lexer.step ⟨.between, ts⟩ =
      ⟨.numeral .whole { negative := negative, whole := [d] }, ts⟩ := by
  have hcases : d = 1 ∨ d = 2 ∨ d = 3 ∨ d = 4 ∨ d = 5 ∨ d = 6 ∨ d = 7 ∨ d = 8 ∨ d = 9 := by omega
  cases negative <;> rcases hcases with rfl | rfl | rfl | rfl | rfl | rfl | rfl | rfl | rfl <;> rfl

/-! ## Whole numbers -/

/-- The number that digits write. -/
def valueOf (ds : List Nat) (v : Nat) : Nat := ds.foldl (fun v d => v * 10 + d) v

/-- The digits of a number as it is written: no zero stands in front, unless it is all. -/
theorem decimalDigits_spec (n : Nat) :
    ∃ d ds, decimalDigits n = (d :: ds).map Nat.digitChar ∧ (∀ x ∈ d :: ds, x < 10) ∧
      valueOf (d :: ds) 0 = n ∧ (d = 0 → n = 0 ∧ ds = []) := by
  induction n using Nat.strongRecOn with
  | _ n ih =>
      by_cases hn : n < 10
      · refine ⟨n, [], by simp [decimalDigits, Nat.toDigits_of_lt_base hn], by simpa using hn,
          by simp [valueOf], fun h => ⟨h, rfl⟩⟩
      · obtain ⟨d, ds, htext, hlt, hval, hzero⟩ := ih (n / 10) (by omega)
        have hpos : d ≠ 0 := fun h => by
          have := (hzero h).1
          omega
        refine ⟨d, ds ++ [n % 10], ?_, ?_, ?_, fun h => absurd h hpos⟩
        · have hlast : decimalDigits n = decimalDigits (n / 10) ++ [Nat.digitChar (n % 10)] :=
            Nat.toDigits_of_base_le (by decide) (by omega)
          rw [hlast, htext]
          simp
        · intro x hx
          rcases List.mem_cons.mp hx with rfl | hx
          · exact hlt x List.mem_cons_self
          · rcases List.mem_append.mp hx with hx | hx
            · exact hlt x (List.mem_cons_of_mem _ hx)
            · have := List.mem_singleton.mp hx
              omega
        · rw [← List.cons_append, valueOf, List.foldl_append]
          change valueOf (d :: ds) 0 * 10 + n % 10 = n
          rw [hval]
          omega

theorem allDigits_decimalDigits (n : Nat) : AllDigits (decimalDigits n) := by
  obtain ⟨d, ds, htext, hlt, -, -⟩ := decimalDigits_spec n
  intro c hc
  rw [htext] at hc
  obtain ⟨x, hx, rfl⟩ := List.mem_map.mp hc
  exact ⟨x, hlt x hx, rfl⟩

theorem foldl_whole_digits {ds : List Nat} (h : ∀ d ∈ ds, d < 10) (n : Numeral)
    (ts : List Token) :
    (ds.map Nat.digitChar).foldl Lexer.step ⟨.numeral .whole n, ts⟩ =
      ⟨.numeral .whole { n with whole := ds.reverse ++ n.whole }, ts⟩ := by
  induction ds generalizing n with
  | nil => rfl
  | cons d ds ih =>
      have hd : d < 10 := h d List.mem_cons_self
      have hstep : Lexer.step ⟨.numeral .whole n, ts⟩ (Nat.digitChar d) =
          ⟨.numeral .whole (n.pushWhole d), ts⟩ := by
        simp [Lexer.step, Numeral.extend?, digit?_digitChar hd, digitChar_ne_mark hd]
      rw [List.map_cons, List.foldl_cons, hstep, ih fun x hx => h x (List.mem_cons_of_mem _ hx)]
      simp [Numeral.pushWhole]

/-- The state after a whole number has been read. -/
theorem foldl_decimalDigits (negative : Bool) (n : Nat) :
    ∃ phase ds, phase.isFinal = true ∧ valueOf ds 0 = n ∧ ∀ ts,
      (signText negative ++ decimalDigits n).foldl Lexer.step ⟨.between, ts⟩ =
        ⟨.numeral phase { negative := negative, whole := ds.reverse }, ts⟩ := by
  obtain ⟨d, ds, htext, hlt, hval, hzero⟩ := decimalDigits_spec n
  by_cases hd : d = 0
  · obtain ⟨hn, rfl⟩ := hzero hd
    subst hd
    refine ⟨.zero, [0], rfl, hval, fun ts => ?_⟩
    rw [htext]
    cases negative <;> rfl
  · refine ⟨.whole, d :: ds, rfl, hval, fun ts => ?_⟩
    have hsplit : signText negative ++ (d :: ds).map Nat.digitChar =
        (signText negative ++ [Nat.digitChar d]) ++ ds.map Nat.digitChar := by simp
    rw [htext, hsplit, List.foldl_append,
      foldl_first_digit negative (hlt d List.mem_cons_self) hd,
      foldl_whole_digits fun x hx => hlt x (List.mem_cons_of_mem _ hx)]
    simp

theorem le_valueOf (ds : List Nat) (v : Nat) : v ≤ valueOf ds v := by
  induction ds generalizing v with
  | nil => exact Nat.le_refl v
  | cons d ds ih =>
      have := ih (v * 10 + d)
      change v ≤ valueOf ds (v * 10 + d)
      omega

/-- No digit is dropped as long as the number fits into a word. -/
theorem foldl_push {ds : List Nat} {v : Nat} (h : valueOf ds v < 0x1_0000_0000_0000_0000) :
    ds.foldl Numeral.Significand.push ⟨v, 0⟩ = ⟨valueOf ds v, 0⟩ := by
  induction ds generalizing v with
  | nil => rfl
  | cons d ds ih =>
      have hnext : v * 10 + d < 0x1_0000_0000_0000_0000 :=
        Nat.lt_of_le_of_lt (le_valueOf ds (v * 10 + d)) h
      have hpush : Numeral.Significand.push ⟨v, 0⟩ d = ⟨v * 10 + d, 0⟩ := by
        unfold Numeral.Significand.push
        rw [if_pos ⟨rfl, hnext⟩]
      rw [List.foldl_cons, hpush, ih h]
      rfl

theorem number?_of_valueOf {ds : List Nat} (i : Integer) (hv : valueOf ds 0 = i.val.natAbs) :
    ({ negative := decide (i.val < 0), whole := ds } : Numeral).number? = some (.integer i) := by
  have hlower := i.lower
  have hupper := i.upper
  have hlt : valueOf ds 0 < 0x1_0000_0000_0000_0000 := by omega
  have hpart : ({ negative := decide (i.val < 0), whole := ds } : Numeral).wholePart =
      ⟨i.val.natAbs, 0⟩ := by
    rw [← hv]
    exact foldl_push hlt
  have hint : ({ negative := decide (i.val < 0), whole := ds } : Numeral).integer? = some i := by
    unfold Numeral.integer?
    rw [hpart]
    by_cases hneg : i.val < 0
    · have habs : -(i.val.natAbs : Int) = i.val := by omega
      have hne : i.val.natAbs ≠ 0 := by omega
      simp only [hneg, decide_true, Option.isSome_none, Bool.false_eq_true, ne_eq,
        not_true_eq_false, or_self, if_false, if_true, hne, habs]
      exact dif_pos ⟨hlower, hupper⟩
    · have habs : (i.val.natAbs : Int) = i.val := by omega
      simp only [hneg, decide_false, Option.isSome_none, Bool.false_eq_true, ne_eq,
        not_true_eq_false, or_self, if_false, habs]
      exact dif_pos ⟨hlower, hupper⟩
  unfold Numeral.number?
  rw [hint]

/-- A whole number within 64 bits is read back. -/
theorem settles_writeInteger (i : Integer) (ts : List Token) :
    Lexer.Settles ((writeNumber (.integer i)).foldl Lexer.step ⟨.between, ts⟩)
      (.scalar (.number (.integer i)) :: ts) := by
  obtain ⟨phase, ds, hp, hval, hfold⟩ :=
    foldl_decimalDigits (decide (i.val < 0)) i.val.natAbs
  have htext : writeNumber (.integer i) =
      signText (decide (i.val < 0)) ++ decimalDigits i.val.natAbs := by
    unfold writeNumber signText
    by_cases h : i.val < 0 <;> simp [h]
  have htoken : ({ negative := decide (i.val < 0), whole := ds.reverse } : Numeral).token phase =
      .scalar (.number (.integer i)) := by
    have hnumber : Numeral.number? (Numeral.inOrder
        { negative := decide (i.val < 0), whole := ds.reverse }) = some (.integer i) := by
      simp only [Numeral.inOrder, List.reverse_reverse, Option.map_none]
      exact number?_of_valueOf i hval
    cases phase with
    | zero | whole | fraction | exponent => simp only [Numeral.token, hnumber]
    | minus | point | mark | sign | wrong => simp [NumeralPhase.isFinal] at hp
  rw [htext, hfold, ← htoken]
  exact settles_numeral hp _ ts

/-! ## Doubles -/

theorem settles_of_starts {cs : List Char} {phase : NumeralPhase} (h : Starts cs phase)
    (hp : phase.isFinal = true) :
    ∃ d, ∀ ts, Lexer.Settles (cs.foldl Lexer.step ⟨.between, ts⟩) (.scalar d :: ts) := by
  obtain ⟨n, hn⟩ := h
  obtain ⟨d, hd⟩ := token_of_isFinal hp n
  refine ⟨d, fun ts => ?_⟩
  rw [hn, ← hd]
  exact settles_numeral hp n ts

/-- What begins with a digit that is no zero. -/
theorem starts_digits (negative : Bool) {d : Nat} {cs : List Char} (hd : d < 10) (h0 : d ≠ 0)
    (h : AllDigits cs) : Starts (signText negative ++ Nat.digitChar d :: cs) .whole := by
  have hfirst : Starts (signText negative ++ [Nat.digitChar d]) .whole :=
    ⟨_, fun ts => foldl_first_digit negative hd h0 ts⟩
  have happ : signText negative ++ Nat.digitChar d :: cs =
      (signText negative ++ [Nat.digitChar d]) ++ cs := by simp
  rw [happ]
  exact hfirst.append (leads_digits (.inl rfl) h)

theorem allDigits_nil : AllDigits [] := fun _ hc => absurd hc List.not_mem_nil

theorem allDigits_append {cs ds : List Char} (h : AllDigits cs) (h' : AllDigits ds) :
    AllDigits (cs ++ ds) := fun c hc =>
  (List.mem_append.mp hc).elim (h c) (h' c)

theorem allDigits_zeros (n : Nat) : AllDigits (List.replicate n '0') := fun c hc =>
  ⟨0, by decide, List.eq_of_mem_replicate hc⟩

/-- A point and digits, after the digits before it. -/
theorem leads_point {p : NumeralPhase} (hp : p = .zero ∨ p = .whole) {cs : List Char}
    (h : AllDigits cs) (hne : cs ≠ []) : Leads p ('.' :: cs) .fraction := by
  have hpoint : Leads p ['.'] .point := leads_singleton fun n => by
    rcases hp with rfl | rfl <;> exact ⟨n, rfl⟩
  exact hpoint.append (leads_first_digit (.inl ⟨rfl, rfl⟩) h hne)

/-- An exponent with its sign. -/
theorem leads_exponent {p : NumeralPhase} (hp : p = .whole ∨ p = .fraction) {c : Char}
    (hc : c = '-' ∨ c = '+') {cs : List Char} (h : AllDigits cs) (hne : cs ≠ []) :
    Leads p ('e' :: c :: cs) .exponent := by
  have hmark : Leads p ['e'] .mark := leads_singleton fun n => by
    rcases hp with rfl | rfl <;> exact ⟨_, rfl⟩
  have hsign : Leads .mark [c] .sign := leads_singleton fun n => by
    rcases hc with rfl | rfl <;> exact ⟨_, rfl⟩
  exact (hmark.append hsign).append (leads_first_digit (.inr ⟨rfl, rfl⟩) h hne)

theorem decimalDigits_ne_nil (n : Nat) : decimalDigits n ≠ [] := by
  obtain ⟨d, ds, htext, -⟩ := decimalDigits_spec n
  rw [htext]
  simp

/-- Digits that begin with no zero, with a point and digits after them. -/
theorem starts_point (negative : Bool) {d : Nat} {cs ds : List Char} (hd : d < 10) (h0 : d ≠ 0)
    (hcs : AllDigits cs) (hds : AllDigits ds) (hne : ds ≠ []) :
    Starts (signText negative ++ Nat.digitChar d :: cs ++ '.' :: ds) .fraction :=
  (starts_digits negative hd h0 hcs).append (leads_point (.inr rfl) hds hne)

theorem starts_exponent {p : NumeralPhase} (hp : p = .whole ∨ p = .fraction) {cs : List Char}
    (h : Starts cs p) (e : Int) :
    Starts (cs ++ 'e' :: (if e < 0 then '-' else '+') :: decimalDigits e.natAbs) .exponent :=
  h.append (leads_exponent hp (by split <;> simp) (allDigits_decimalDigits _)
    (decimalDigits_ne_nil _))

/-- However a positive decimal is laid out, it is one numeral. -/
theorem starts_layOut (negative : Bool) (f : Layout) {d : Decimal} (hpos : d.digits ≠ 0) :
    ∃ phase, phase.isFinal = true ∧ Starts (signText negative ++ layOut f d) phase := by
  obtain ⟨x, xs, htext, hlt, -, hzero⟩ := decimalDigits_spec d.digits
  have hx : x ≠ 0 := fun h => hpos (hzero h).1
  have hx10 : x < 10 := hlt x List.mem_cons_self
  have hall : AllDigits (xs.map Nat.digitChar) := fun c hc => by
    obtain ⟨y, hy, rfl⟩ := List.mem_map.mp hc
    exact ⟨y, hlt y (List.mem_cons_of_mem _ hy), rfl⟩
  unfold layOut
  simp only [htext, List.map_cons, List.length_cons, List.length_map]
  split
  · -- scientific notation
    refine ⟨.exponent, rfl, ?_⟩
    generalize d.exponent + ↑(xs.length + 1) - 1 = e
    cases xs with
    | nil =>
        have hstart := starts_digits negative hx10 hx allDigits_nil
        simpa using starts_exponent (.inl rfl) hstart e
    | cons y ys =>
        have hpoint := starts_point negative hx10 hx allDigits_nil hall (by simp)
        simpa using starts_exponent (.inr rfl) hpoint e
  · split
    · -- zeros before the point
      have hzeros := allDigits_append hall (allDigits_zeros d.exponent.toNat)
      have hpoint := starts_point negative hx10 hx hzeros (allDigits_zeros 1) (by simp)
      exact ⟨.fraction, rfl, by simpa using hpoint⟩
    · split
      · -- the point among the digits
        generalize hk : (d.exponent + ↑(xs.length + 1) - 1).toNat = k
        have hlen : k < xs.length := by omega
        have hpoint := starts_point negative hx10 hx
          (fun c hc => hall c (List.mem_of_mem_take (i := k) hc))
          (fun c hc => hall c (List.mem_of_mem_drop (i := k) hc)) (by simpa using hlen)
        exact ⟨.fraction, rfl, by simpa using hpoint⟩
      · -- zeros after the point
        have hstart := (starts_zero negative).append (leads_point (.inl rfl)
          (allDigits_append (allDigits_zeros (-(d.exponent + ↑(xs.length + 1) - 1) - 1).toNat)
            (allDigits_decimalDigits d.digits))
          (by simp [decimalDigits_ne_nil]))
        rw [htext] at hstart
        exact ⟨.fraction, rfl, by simpa using hstart⟩

/-- A double is written as one scalar. -/
theorem settles_writeFloat (x : Float) :
    ∃ d, ∀ ts, Lexer.Settles ((writeFloat x).foldl Lexer.step ⟨.between, ts⟩)
      (.scalar d :: ts) := by
  unfold writeFloat
  split
  · simp only
    generalize hm : (if (Decimal.Binary.ofBits x.toBits).m = 0 then ['0', '.', '0']
      else layOut floatLayout (Decimal.shortest (Decimal.Binary.ofBits x.toBits)).normalize) = cs
    have hstarts (negative : Bool) :
        ∃ phase, phase.isFinal = true ∧ Starts (signText negative ++ cs) phase := by
      subst hm
      split
      · refine ⟨.fraction, rfl, ?_⟩
        have hpoint := (starts_zero negative).append
          (leads_point (.inl rfl) (allDigits_zeros 1) (by simp))
        simpa using hpoint
      · next hm =>
        exact starts_layOut negative _ (Decimal.digits_normalize_ne_zero
          (Decimal.digits_shortest_ne_zero hm))
    split
    · obtain ⟨phase, hp, h⟩ := hstarts false
      exact settles_of_starts h hp
    · obtain ⟨phase, hp, h⟩ := hstarts true
      exact settles_of_starts h hp
  · exact ⟨.null, fun ts => settles_word rfl ts⟩

/-- What a number is read back as: a whole number as itself, a double perhaps as a neighbour. -/
def Number.reread : Number → Document
  | .integer i => .number (.integer i)
  | .float x =>
    match tokens (writeFloat x) with
    | [.scalar d] => d
    | _ => .unrepresentable

/-- A number is written as one scalar. -/
theorem settles_writeNumber (n : Number) (ts : List Token) :
    Lexer.Settles ((writeNumber n).foldl Lexer.step ⟨.between, ts⟩)
      (.scalar n.reread :: ts) := by
  cases n with
  | integer i => exact settles_writeInteger i ts
  | float x =>
      obtain ⟨d, hd⟩ := settles_writeFloat x
      have htokens : tokens (writeFloat x) = [.scalar d] := (hd []).finish
      have hreread : (Number.float x).reread = d := by
        simp only [Number.reread, htokens]
      rw [hreread]
      exact hd ts

end DeviceBridge.Json
