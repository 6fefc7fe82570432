/-!
# DeviceBridge.Decimal.Nearest

The double nearest to a decimal, with an even significand where two are equally near. Beyond all
doubles this is infinity.
-/

namespace DeviceBridge.Decimal

/-- The number that digits write, most significant first. -/
def ofDigits (digits : List Nat) : Nat := digits.foldl (fun n d => n * 10 + d) 0

/-- The double nearest to `digits * 10^exponent`. Exponents so large or so small that the digits
cannot matter are cut short. -/
def nearest (digits : List Nat) (exponent : Int) : Float :=
  let n := ofDigits digits
  let size : Int := (Nat.toDigits 10 n).length + exponent
  if n = 0 ∨ size < -400 then 0.0
  else if 400 < size then 1.0 / 0.0
  else if 0 ≤ exponent then Float.ofScientific n false exponent.toNat
  else Float.ofScientific n true (-exponent).toNat

end DeviceBridge.Decimal
