/-!
# DeviceBridge.Decimal.Shortest

The shortest decimal that reads back as a given double. A finite double is `m * 2^q`, and the reals
that round to it form an interval around it, with its ends if `m` is even. Among the decimals
`d * 10^k` the first grid, from coarse to fine, that has a point in this interval gives the digits;
of two such points the nearer one counts, and of two equally near ones the even one.
-/

namespace DeviceBridge

/-- A decimal number `digits * 10^exponent`. -/
structure Decimal where
  digits : Nat
  exponent : Int
deriving DecidableEq

namespace Decimal

/-- A positive binary number `m * 2^q`. -/
structure Binary where
  m : Nat
  q : Int

/-- The magnitude of a finite double from its bits; a zero has `m = 0`. -/
def Binary.ofBits (bits : UInt64) : Binary :=
  let fraction := (bits &&& 0xfffffffffffff).toNat
  let exponent := ((bits >>> 52) &&& 0x7ff).toNat
  if exponent = 0 then ⟨fraction, -1074⟩
  else ⟨fraction + 0x10_0000_0000_0000, (exponent : Int) - 1075⟩

/-- A fraction `num / den` of natural numbers equal to `m * 2^q / 10^k`. -/
def ratio (m : Nat) (q k : Int) : Nat × Nat :=
  let (num, den) := if 0 ≤ q then (m <<< q.toNat, 1) else (m, 1 <<< (-q).toNat)
  if 0 ≤ k then (num, den * Nat.pow 10 k.toNat) else (num * Nat.pow 10 (-k).toNat, den)

/-- Whether `d * 10^k` rounds to the number: it lies between the midpoints to both neighbours, and
the midpoints themselves count when `m` is even. The lower neighbour is half as far away where the
binary exponent changes. -/
def roundsTo (b : Binary) (d : Nat) (k : Int) : Bool :=
  let narrow := b.m = 0x10_0000_0000_0000 ∧ b.q ≠ -1074
  let (lowNum, lowDen) := ratio (if narrow then 4 * b.m - 1 else 4 * b.m - 2) (b.q - 2) k
  let (highNum, highDen) := ratio (4 * b.m + 2) (b.q - 2) k
  if b.m % 2 = 0 then lowNum ≤ d * lowDen && d * highDen ≤ highNum
  else lowNum < d * lowDen && d * highDen < highNum

/-- The point of the grid `10^k` nearest to the number among those that round to it. -/
def onGrid? (b : Binary) (k : Int) : Option Nat :=
  let (num, den) := ratio b.m b.q k
  let below := num / den
  match roundsTo b below k, roundsTo b (below + 1) k with
  | false, false => none
  | true, false => some below
  | false, true => some (below + 1)
  | true, true =>
    let rest := 2 * (num % den)
    if rest < den ∨ (rest = den ∧ below % 2 = 0) then some below else some (below + 1)

/-- The first grid, from `10^k` downwards, with a point that rounds to the number. Where the search
is given up, the point below the number counts, but never zero. -/
def searchDown (b : Binary) : Nat → Int → Decimal
  | 0, k => ⟨max 1 ((ratio b.m b.q k).1 / (ratio b.m b.q k).2), k⟩
  | fuel + 1, k =>
    match onGrid? b k with
    | some d => ⟨d, k⟩
    | none => searchDown b fuel (k - 1)

/-- The exponent of a power of ten about as large as the number or larger: a number of that many
bits has at most this many digits. -/
def topExponent (b : Binary) : Int :=
  let bits := (b.m.log2 : Int) + b.q + 1
  bits * 30103 / 100000 + 1

/-- The shortest decimal that reads back as the number. Seventeen digits always suffice, so the
search has an end. -/
def shortest (b : Binary) : Decimal :=
  if b.m = 0 then ⟨0, 0⟩ else searchDown b 20 (topExponent b)

/-- Removes the zeros at the end of the digits. -/
def normalize (d : Decimal) : Decimal :=
  if h : d.digits ≠ 0 ∧ d.digits % 10 = 0 then
    normalize ⟨d.digits / 10, d.exponent + 1⟩
  else d
termination_by d.digits
decreasing_by exact Nat.div_lt_self (Nat.pos_of_ne_zero h.1) (by decide)

end Decimal

end DeviceBridge
