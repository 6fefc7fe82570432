import DeviceBridge.Json.Document
import DeviceBridge.Json.Numeral

/-!
# DeviceBridge.Json.Token

Splitting a JSON text into tokens, one character at a time. `Lexer.step` is the whole automaton;
reading a text is a fold over its characters, so the tokens of a text are those of its beginning
followed by those of the rest, read on from where the beginning stopped.
-/

namespace DeviceBridge.Json

/-- The smallest meaningful piece of a JSON text. -/
inductive Token where
  | openArray
  | closeArray
  | openObject
  | closeObject
  | comma
  | colon
  /-- `null`, a truth value or a number. -/
  | scalar (d : Document)
  /-- A string, `none` when it holds half of a surrogate pair. -/
  | text (s : Option String)
  /-- Something that is no token; nothing after it is read. -/
  | invalid

/-- A piece of a string: a character, or a 16-bit unit written as an escape. -/
inductive Piece where
  | char (c : Char)
  | unit (n : Nat)

namespace Piece

/-- The text of a string's pieces: two units that form a surrogate pair are one character, and half
a pair denotes nothing. -/
def assemble : List Piece → Option (List Char)
  | [] => some []
  | char c :: r => (assemble r).map (c :: ·)
  | unit h :: r =>
    if h < 0xd800 ∨ 0xdfff < h then (assemble r).map (Char.ofNat h :: ·)
    else
      match r with
      | unit l :: r =>
        if h < 0xdc00 ∧ 0xdc00 ≤ l ∧ l ≤ 0xdfff then
          (assemble r).map (Char.ofNat (0x10000 + (h - 0xd800) * 0x400 + (l - 0xdc00)) :: ·)
        else none
      | _ => none

end Piece

/-- How far a numeral has been read. -/
inductive NumeralPhase where
  | minus
  | zero
  | whole
  | point
  | fraction
  | mark
  | sign
  | exponent
  /-- No numeral can begin like this. -/
  | wrong

/-- What the lexer is in the middle of. Everything gathered stands newest first. -/
inductive Mode where
  | between
  | text (pieces : List Piece)
  | escaped (pieces : List Piece)
  | hex (pieces : List Piece) (missing : Nat) (value : Nat)
  | word (letters : List Char)
  | numeral (phase : NumeralPhase) (n : Numeral)
  | stuck

/-- The state of the lexer: the token in the making and those made, newest first. -/
structure Lexer where
  mode : Mode := .between
  tokens : List Token := []

/-- The value of a decimal digit. -/
def digit? (c : Char) : Option Nat :=
  if '0' ≤ c ∧ c ≤ '9' then some (c.toNat - '0'.toNat) else none

/-- The value of a hexadecimal digit of either case. -/
def hexDigit? (c : Char) : Option Nat :=
  if '0' ≤ c ∧ c ≤ '9' then some (c.toNat - '0'.toNat)
  else if 'a' ≤ c ∧ c ≤ 'f' then some (c.toNat - 'a'.toNat + 10)
  else if 'A' ≤ c ∧ c ≤ 'F' then some (c.toNat - 'A'.toNat + 10)
  else none

namespace Numeral

/-- Appends a digit before the point. -/
def pushWhole (n : Numeral) (d : Nat) : Numeral := { n with whole := d :: n.whole }

/-- Appends a digit after the point. -/
def pushFraction (n : Numeral) (d : Nat) : Numeral :=
  { n with fraction := some (d :: n.fraction.getD []) }

/-- Appends a digit to the exponent. -/
def pushExponent (n : Numeral) (d : Nat) : Numeral :=
  let (negative, digits) := n.exponent.getD (false, [])
  { n with exponent := some (negative, d :: digits) }

/-- Reads one more character into a numeral, unless the numeral ends before it. -/
def extend? (phase : NumeralPhase) (n : Numeral) (c : Char) : Option (NumeralPhase × Numeral) :=
  let startExponent := (NumeralPhase.mark, { n with exponent := some (false, []) })
  match phase with
  | .minus =>
    match digit? c with
    | some 0 => some (.zero, n.pushWhole 0)
    | some d => some (.whole, n.pushWhole d)
    | none => some (.wrong, n)
  | .zero =>
    if c = '.' then some (.point, n)
    else if c = 'e' ∨ c = 'E' then some startExponent
    else (digit? c).map fun _ => (.wrong, n)
  | .whole =>
    if c = '.' then some (.point, n)
    else if c = 'e' ∨ c = 'E' then some startExponent
    else (digit? c).map fun d => (.whole, n.pushWhole d)
  | .point =>
    match digit? c with
    | some d => some (.fraction, n.pushFraction d)
    | none => some (.wrong, n)
  | .fraction =>
    if c = 'e' ∨ c = 'E' then some startExponent
    else (digit? c).map fun d => (.fraction, n.pushFraction d)
  | .mark =>
    if c = '+' then some (.sign, n)
    else if c = '-' then some (.sign, { n with exponent := some (true, []) })
    else
      match digit? c with
      | some d => some (.exponent, n.pushExponent d)
      | none => some (.wrong, n)
  | .sign =>
    match digit? c with
    | some d => some (.exponent, n.pushExponent d)
    | none => some (.wrong, n)
  | .exponent => (digit? c).map fun d => (.exponent, n.pushExponent d)
  | .wrong => none

/-- Puts the digits, gathered newest first, into writing order. -/
def inOrder (n : Numeral) : Numeral :=
  { n with
    whole := n.whole.reverse
    fraction := n.fraction.map List.reverse
    exponent := n.exponent.map fun (negative, digits) => (negative, digits.reverse) }

/-- The token of a numeral that ends in the given phase. -/
def token (phase : NumeralPhase) (n : Numeral) : Token :=
  match phase with
  | .zero | .whole | .fraction | .exponent =>
    match n.inOrder.number? with
    | some x => .scalar (.number x)
    | none => .scalar .unrepresentable
  | _ => .invalid

end Numeral

/-- The token of a word of letters. -/
def wordToken (letters : List Char) : Token :=
  if letters = ['n', 'u', 'l', 'l'] then .scalar .null
  else if letters = ['t', 'r', 'u', 'e'] then .scalar (.bool true)
  else if letters = ['f', 'a', 'l', 's', 'e'] then .scalar (.bool false)
  else .invalid

namespace Lexer

/-- Adds a token and goes on with what lies between tokens. -/
def emit (tokens : List Token) (t : Token) : Lexer := ⟨.between, t :: tokens⟩

/-- Gives up: what was read is no token. -/
def fail (tokens : List Token) : Lexer := ⟨.stuck, .invalid :: tokens⟩

/-- Reads the first character of a token, or a blank between tokens. -/
def start (tokens : List Token) (c : Char) : Lexer :=
  if c = ' ' ∨ c = '\t' ∨ c = '\n' ∨ c = '\r' then ⟨.between, tokens⟩
  else if c = '[' then emit tokens .openArray
  else if c = ']' then emit tokens .closeArray
  else if c = '\x7b' then emit tokens .openObject
  else if c = '\x7d' then emit tokens .closeObject
  else if c = ',' then emit tokens .comma
  else if c = ':' then emit tokens .colon
  else if c = '"' then ⟨.text [], tokens⟩
  else if c = '-' then ⟨.numeral .minus { negative := true }, tokens⟩
  else if 'a' ≤ c ∧ c ≤ 'z' then ⟨.word [c], tokens⟩
  else
    match digit? c with
    | some 0 => ⟨.numeral .zero { whole := [0] }, tokens⟩
    | some d => ⟨.numeral .whole { whole := [d] }, tokens⟩
    | none => fail tokens

/-- After a token that only the next character ends: goes on unless the token was none. -/
def resume (tokens : List Token) (t : Token) (c : Char) : Lexer :=
  match t with
  | .invalid => fail tokens
  | t => start (t :: tokens) c

/-- Reads the character after a backslash. -/
def escape (tokens : List Token) (pieces : List Piece) (c : Char) : Lexer :=
  let char (x : Char) : Lexer := ⟨.text (.char x :: pieces), tokens⟩
  if c = '"' ∨ c = '\\' ∨ c = '/' then char c
  else if c = 'b' then char '\x08'
  else if c = 'f' then char '\x0c'
  else if c = 'n' then char '\n'
  else if c = 'r' then char '\r'
  else if c = 't' then char '\t'
  else if c = 'u' then ⟨.hex pieces 4 0, tokens⟩
  else fail tokens

/-- Reads one character. -/
def step (l : Lexer) (c : Char) : Lexer :=
  match l.mode with
  | .between => start l.tokens c
  | .text pieces =>
    if c = '"' then
      emit l.tokens (.text ((Piece.assemble pieces.reverse).map String.ofList))
    else if c = '\\' then ⟨.escaped pieces, l.tokens⟩
    else if c.toNat < 0x20 then fail l.tokens
    else ⟨.text (.char c :: pieces), l.tokens⟩
  | .escaped pieces => escape l.tokens pieces c
  | .hex pieces missing value =>
    match hexDigit? c with
    | none => fail l.tokens
    | some d =>
      if missing ≤ 1 then ⟨.text (.unit (value * 16 + d) :: pieces), l.tokens⟩
      else ⟨.hex pieces (missing - 1) (value * 16 + d), l.tokens⟩
  | .word letters =>
    if 'a' ≤ c ∧ c ≤ 'z' then ⟨.word (c :: letters), l.tokens⟩
    else resume l.tokens (wordToken letters.reverse) c
  | .numeral phase n =>
    match n.extend? phase c with
    | some (phase, n) => ⟨.numeral phase n, l.tokens⟩
    | none => resume l.tokens (n.token phase) c
  | .stuck => l

/-- The tokens at the end of the text, in order. -/
def finish (l : Lexer) : List Token :=
  match l.mode with
  | .between | .stuck => l.tokens.reverse
  | .word letters => (wordToken letters.reverse :: l.tokens).reverse
  | .numeral phase n => (n.token phase :: l.tokens).reverse
  | .text _ | .escaped _ | .hex _ _ _ => (.invalid :: l.tokens).reverse

end Lexer

/-- The tokens of a text. -/
def tokens (cs : List Char) : List Token := (cs.foldl Lexer.step {}).finish

end DeviceBridge.Json
