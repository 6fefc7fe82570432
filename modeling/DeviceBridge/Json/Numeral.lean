import DeviceBridge.Json.Value

/-!
# DeviceBridge.Json.Numeral

The numerals of JSON and the numbers they denote. A whole numeral within 64 bits is exact, except
that minus zero is a double. Every other numeral is a double, computed from its leading digits: the
digits are gathered in a 64-bit word as long as they fit, the rest only moves the decimal point, and
one multiplication or division by a power of ten gives the result. Beyond the doubles there is no
number; too close to zero there is a zero.
-/

namespace DeviceBridge.Json

/-- A numeral as written: digits before the point, after it, and of the exponent. -/
structure Numeral where
  negative : Bool := false
  whole : List Nat := []
  fraction : Option (List Nat) := none
  /-- The exponent's digits, and whether it is negative. -/
  exponent : Option (Bool × List Nat) := none

namespace Numeral

/-- A word filled with leading digits, and by how many places the digits left out move the point. -/
structure Significand where
  word : Nat := 0
  /-- The digits that did not fit. -/
  dropped : Nat := 0

/-- Appends a digit while the word stays below `2^64`; from the first digit that does not fit, all
are dropped. -/
def Significand.push (s : Significand) (digit : Nat) : Significand :=
  let next := s.word * 10 + digit
  if s.dropped = 0 ∧ next < 0x1_0000_0000_0000_0000 then { s with word := next }
  else { s with dropped := s.dropped + 1 }

/-- The significand of the digits before the point. -/
def wholePart (n : Numeral) : Significand := n.whole.foldl .push {}

/-- The significand of all digits, with the power of ten that belongs to it: the digits left out
before the point raise it, those taken in after the point lower it. -/
def scaled (n : Numeral) : Nat × Int :=
  let whole := n.wholePart
  let digits := n.fraction.getD []
  if whole.dropped = 0 then
    let all := digits.foldl .push whole
    (all.word, -((digits.length - all.dropped : Nat) : Int))
  else
    let all := digits.foldl .push { whole with dropped := 0 }
    (all.word, (whole.dropped : Int) - ((digits.length - all.dropped : Nat) : Int))

/-- A power of ten up to `10^308`, rounded to a double. -/
def powerOfTen (e : Nat) : Float := Float.ofScientific 1 false e

/-- Divides by a power of ten, in steps of `10^308` until the rest is small or nothing is left. -/
def divideByPower (x : Float) (e : Nat) : Float :=
  if e ≤ 308 then x / powerOfTen e
  else if x == 0 then x
  else divideByPower (x / powerOfTen 308) (e - 308)
termination_by e

/-- A significand times a power of ten, unless that is beyond the doubles. -/
def scale? (significand : Nat) (e : Int) : Option Float :=
  let x := significand.toUInt64.toFloat
  if 0 ≤ e then
    if e ≤ 308 then
      let y := x * powerOfTen e.toNat
      if y.isInf then none else some y
    else if significand = 0 then some x
    else none
  else some (divideByPower x (-e).toNat)

/-- The digits of an exponent as a number, unless it exceeds a signed 32-bit word. -/
def exponent? (digits : List Nat) : Option Nat :=
  let e := digits.foldl (fun e d => e * 10 + d) 0
  if e < 0x8000_0000 then some e else none

/-- Keeps an exponent within the signed 32-bit words. -/
def saturate (e : Int) : Int := max (-0x8000_0000) (min 0x7fff_ffff e)

/-- The magnitude of a numeral as a double. -/
def magnitude? (n : Numeral) : Option Float :=
  let (significand, places) := n.scaled
  match n.exponent with
  | none => scale? significand places
  | some (negative, digits) =>
    match exponent? digits with
    | some e => scale? significand (saturate (if negative then places - e else places + e))
    | none => if significand = 0 ∨ negative then some 0 else none

/-- The exact whole number of a numeral without point and exponent, unless it is minus zero or out
of range. -/
def integer? (n : Numeral) : Option Integer :=
  if n.fraction.isSome ∨ n.exponent.isSome ∨ n.wholePart.dropped ≠ 0 then none
  else if n.negative then
    if n.wholePart.word = 0 then none else Integer.ofInt? (-(n.wholePart.word : Int))
  else Integer.ofInt? n.wholePart.word

/-- The number that a numeral denotes, `none` when it is beyond the doubles. -/
def number? (n : Numeral) : Option Number :=
  match n.integer? with
  | some i => some (.integer i)
  | none => n.magnitude?.map fun x => .float (if n.negative then -x else x)

end Numeral

end DeviceBridge.Json
