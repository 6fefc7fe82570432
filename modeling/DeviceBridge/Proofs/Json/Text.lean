import DeviceBridge.Json.Reader
import DeviceBridge.Json.Writer

/-!
# DeviceBridge.Proofs.Json.Text

Strings, written and read: the lexer reads the written form of any string as one token with that
string in it (`foldl_writeString`), whatever escapes it needs.
-/

namespace DeviceBridge.Json

/-- The piece that a character of a string is read as: one that is written by its number is read as
a unit, every other as itself. -/
def Piece.ofChar (c : Char) : Piece :=
  if c.toNat < 0x20 ∧ c ≠ '\x08' ∧ c ≠ '\x0c' ∧ c ≠ '\n' ∧ c ≠ '\r' ∧ c ≠ '\t' then .unit c.toNat
  else .char c

theorem assemble_unit {n : Nat} (h : n < 0xd800) (pieces : List Piece) :
    Piece.assemble (.unit n :: pieces) = (Piece.assemble pieces).map (Char.ofNat n :: ·) := by
  rw [Piece.assemble.eq_def]
  simp only
  rw [if_pos (.inl h)]

theorem assemble_ofChar (cs : List Char) : Piece.assemble (cs.map Piece.ofChar) = some cs := by
  induction cs with
  | nil => rfl
  | cons c cs ih =>
      rw [List.map_cons, Piece.ofChar]
      split
      · next h =>
        rw [assemble_unit (by omega), ih, Char.ofNat_toNat]
        rfl
      · rw [Piece.assemble, ih]
        rfl

/-- Both digits of a small number are read back. -/
theorem hexDigit?_twoHexDigits (n : Nat) (h : n < 0x20) :
    hexDigit? (Nat.digitChar (n / 16)) = some (n / 16) ∧
      hexDigit? (Nat.digitChar (n % 16)) = some (n % 16) := by
  revert n
  decide

theorem foldl_writeChar (c : Char) (pieces : List Piece) (ts : List Token) :
    (writeChar c).foldl Lexer.step ⟨.text pieces, ts⟩ =
      ⟨.text (Piece.ofChar c :: pieces), ts⟩ := by
  unfold writeChar
  by_cases hq : c = '"' ∨ c = '\\'
  · rcases hq with rfl | rfl <;> rfl
  by_cases h08 : c = '\x08'
  · subst h08; rfl
  by_cases h0c : c = '\x0c'
  · subst h0c; rfl
  by_cases hn : c = '\n'
  · subst hn; rfl
  by_cases hr : c = '\r'
  · subst hr; rfl
  by_cases ht : c = '\t'
  · subst ht; rfl
  simp only [hq, h08, h0c, hn, hr, ht, if_false]
  by_cases hc : c.toNat < 0x20
  · have hofChar : Piece.ofChar c = .unit c.toNat := by simp [Piece.ofChar, *]
    obtain ⟨hhigh, hlow⟩ := hexDigit?_twoHexDigits c.toNat hc
    have hsum : c.toNat / 16 * 16 + c.toNat % 16 = c.toNat := by omega
    have hzero : hexDigit? '0' = some 0 := rfl
    simp [hc, twoHexDigits, Lexer.step, Lexer.escape, hzero, hhigh, hlow, hofChar, hsum]
  · have hofChar : Piece.ofChar c = .char c := by simp [Piece.ofChar, hc]
    rw [not_or] at hq
    simp [hc, Lexer.step, hq.1, hq.2, hofChar]

theorem foldl_writeChars (cs : List Char) (pieces : List Piece) (ts : List Token) :
    (cs.flatMap writeChar).foldl Lexer.step ⟨.text pieces, ts⟩ =
      ⟨.text ((cs.map Piece.ofChar).reverse ++ pieces), ts⟩ := by
  induction cs generalizing pieces with
  | nil => rfl
  | cons c cs ih =>
      rw [List.flatMap_cons, List.foldl_append, foldl_writeChar, ih]
      simp

/-- A written string is read as one token with that string in it. -/
theorem foldl_writeString (s : String) (ts : List Token) :
    (writeString s).foldl Lexer.step ⟨.between, ts⟩ = ⟨.between, .text (some s) :: ts⟩ := by
  have hopen : Lexer.step ⟨.between, ts⟩ '"' = ⟨.text [], ts⟩ := rfl
  unfold writeString
  rw [List.cons_append, List.foldl_cons, hopen, List.foldl_append, foldl_writeChars,
    List.append_nil]
  simp [Lexer.step, Lexer.emit, assemble_ofChar]

end DeviceBridge.Json
