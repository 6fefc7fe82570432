import DeviceBridge.Decimal.Nearest
import DeviceBridge.Json.Document

/-!
# DeviceBridge.Toml.Scalar

The values of TOML that stand without quotes: truth values, whole numbers, doubles, dates and times.
A date or time denotes an object whose only member holds it in its normal form.
-/

namespace DeviceBridge.Toml

open Json (Document Integer)

/-! ## Digits -/

/-- The value of a digit in a radix. -/
def digitIn? (radix : Nat) (c : Char) : Option Nat :=
  let value? :=
    if '0' ≤ c ∧ c ≤ '9' then some (c.toNat - '0'.toNat)
    else if 'a' ≤ c ∧ c ≤ 'f' then some (c.toNat - 'a'.toNat + 10)
    else if 'A' ≤ c ∧ c ≤ 'F' then some (c.toNat - 'A'.toNat + 10)
    else none
  value?.filter (· < radix)

/-- Digits in a radix, of which neighbours may be set apart by an underscore. -/
def digits? (radix : Nat) : List Char → Option (List Nat)
  | [] => none
  | [c] => (digitIn? radix c).map ([·])
  | c :: '_' :: cs => do return (← digitIn? radix c) :: (← digits? radix cs)
  | c :: cs => do return (← digitIn? radix c) :: (← digits? radix cs)

/-- Decimal digits without a leading zero, unless there is just the zero. -/
def plainDigits? (cs : List Char) : Option (List Nat) :=
  match digits? 10 cs with
  | some (0 :: _ :: _) => none
  | ds? => ds?

/-- The sign in front of a text, whether it is a minus, and the rest. -/
def splitSign : List Char → Bool × List Char
  | '+' :: cs => (false, cs)
  | '-' :: cs => (true, cs)
  | cs => (false, cs)

/-! ## Numbers -/

/-- A whole number that fits into 64 bits with its sign. -/
def signedWord? (i : Int) : Option Document :=
  if i < 0x8000_0000_0000_0000 then (Integer.ofInt? i).map Document.integer else none

/-- The number that digits in a radix write. -/
def positionalValue (radix : Nat) (ds : List Nat) : Nat := ds.foldl (fun n d => n * radix + d) 0

/-- A whole number: in decimal with or without a sign, or without one in hexadecimal, octal or
binary. -/
def integer? : List Char → Option Document
  | '0' :: 'x' :: cs => (digits? 16 cs).bind fun ds => signedWord? (positionalValue 16 ds)
  | '0' :: 'o' :: cs => (digits? 8 cs).bind fun ds => signedWord? (positionalValue 8 ds)
  | '0' :: 'b' :: cs => (digits? 2 cs).bind fun ds => signedWord? (positionalValue 2 ds)
  | cs =>
    let (negative, cs) := splitSign cs
    (plainDigits? cs).bind fun ds =>
      let n : Int := positionalValue 10 ds
      signedWord? (if negative then -n else n)

/-- A double with its sign. What is too large is refused above zero and infinite below. -/
def signedFloat? (negative : Bool) (x : Float) : Option Document :=
  if negative then some (.number (.float (-x)))
  else if x.isInf then none
  else some (.number (.float x))

/-- A decimal with a point, an exponent or both. -/
def decimal? (cs : List Char) : Option Document := do
  let (negative, cs) := splitSign cs
  let mantissa := cs.takeWhile fun c => c ≠ 'e' ∧ c ≠ 'E'
  let exponent ←
    match cs.dropWhile fun c => c ≠ 'e' ∧ c ≠ 'E' with
    | [] => if '.' ∈ mantissa then some 0 else none
    | _ :: es =>
      let (below, es) := splitSign es
      (digits? 10 es).map fun ds =>
        let e : Int := Decimal.ofDigits ds
        if below then -e else e
  let whole ← plainDigits? (mantissa.takeWhile (· ≠ '.'))
  let fraction ←
    match mantissa.dropWhile (· ≠ '.') with
    | [] => some []
    | _ :: fs => digits? 10 fs
  signedFloat? negative (Decimal.nearest (whole ++ fraction) (exponent - fraction.length))

/-- Infinity, or what is no number. -/
def special? (cs : List Char) : Option Document :=
  let (negative, cs) := splitSign cs
  let signed (x : Float) : Document := .number (.float (if negative then -x else x))
  if cs = ['i', 'n', 'f'] then some (signed (1.0 / 0.0))
  else if cs = ['n', 'a', 'n'] then some (signed (0.0 / 0.0))
  else none

/-! ## Dates and times -/

/-- The only key of an object that stands for a date or time. -/
def datetimeKey : String := "$__toml_private_datetime"

/-- A number of exactly so many decimal digits. -/
def fixedNumber? (width : Nat) (cs : List Char) : Option Nat :=
  if cs.length = width ∧ cs.all Char.isDigit then
    some (positionalValue 10 (cs.map fun c => c.toNat - '0'.toNat))
  else none

/-- How many days a month has. -/
def daysIn (year month : Nat) : Nat :=
  if month = 2 then
    if year % 4 = 0 ∧ (year % 100 ≠ 0 ∨ year % 400 = 0) then 29 else 28
  else if month ∈ [4, 6, 9, 11] then 30
  else 31

/-- Whether a text is a date. -/
def isDate : List Char → Bool
  | [y₁, y₂, y₃, y₄, '-', m₁, m₂, '-', d₁, d₂] =>
    match fixedNumber? 4 [y₁, y₂, y₃, y₄], fixedNumber? 2 [m₁, m₂], fixedNumber? 2 [d₁, d₂] with
    | some y, some m, some d => 1 ≤ m ∧ m ≤ 12 ∧ 1 ≤ d ∧ d ≤ daysIn y m
    | _, _, _ => false
  | _ => false

/-- Whether a text is two digits of at most a number. -/
def isField (limit : Nat) (cs : List Char) : Bool :=
  match fixedNumber? 2 cs with
  | some n => n ≤ limit
  | none => false

/-- The digits of a fraction of a second in their normal form: not more than nine, and no zeros at
the end. -/
def normalFraction (cs : List Char) : List Char :=
  match ((cs.take 9).reverse.dropWhile (· = '0')).reverse with
  | [] => []
  | ds => '.' :: ds

/-- A time, and the text after it. -/
def time? : List Char → Option (List Char × List Char)
  | h₁ :: h₂ :: ':' :: m₁ :: m₂ :: ':' :: s₁ :: s₂ :: cs =>
    if isField 23 [h₁, h₂] ∧ isField 59 [m₁, m₂] ∧ isField 60 [s₁, s₂] then
      let time := [h₁, h₂, ':', m₁, m₂, ':', s₁, s₂]
      match cs with
      | '.' :: fs =>
        let digits := fs.takeWhile Char.isDigit
        if digits = [] then none
        else some (time ++ normalFraction digits, fs.dropWhile Char.isDigit)
      | _ => some (time, cs)
    else none
  | _ => none

/-- An offset from universal time in its normal form; at zero its sign is a plus. -/
def offset? : List Char → Option (List Char)
  | [] => some []
  | ['Z'] | ['z'] => some ['Z']
  | [sign, h₁, h₂, ':', m₁, m₂] =>
    if (sign = '+' ∨ sign = '-') ∧ isField 23 [h₁, h₂] ∧ isField 59 [m₁, m₂] then
      let zero := [h₁, h₂, m₁, m₂] = ['0', '0', '0', '0']
      some [if zero then '+' else sign, h₁, h₂, ':', m₁, m₂]
    else none
  | _ => none

/-- The normal form of a date, of a time, or of both, with or without an offset. -/
def normalDatetime? (cs : List Char) : Option (List Char) :=
  let date := cs.take 10
  if isDate date then
    match cs.drop 10 with
    | [] => some date
    | delimiter :: cs =>
      if delimiter = 'T' ∨ delimiter = 't' ∨ delimiter = ' ' then do
        let (time, cs) ← time? cs
        return date ++ 'T' :: time ++ (← offset? cs)
      else none
  else
    match time? cs with
    | some (time, []) => some time
    | _ => none

/-- A date or time as an object. -/
def datetime? (cs : List Char) : Option Document :=
  (normalDatetime? cs).map fun text =>
    .record [(datetimeKey, .string (String.ofList text))]

/-! ## All together -/

/-- The value that an unquoted text is. -/
def scalar? (cs : List Char) : Option Document :=
  if cs = ['t', 'r', 'u', 'e'] then some (.bool true)
  else if cs = ['f', 'a', 'l', 's', 'e'] then some (.bool false)
  else datetime? cs <|> integer? cs <|> decimal? cs <|> special? cs

end DeviceBridge.Toml
