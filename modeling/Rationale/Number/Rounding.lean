import Rationale.Number.Basic

/-!
The number nearest to a fraction. The quotient is taken at the exponent that leaves 53 binary digits
(fewer only below the smallest normal number), and what is left decides the last digit: more than half
goes up, exactly half goes to the even neighbour. A carry out of the digits moves into the exponent by
itself, because magnitudes of neighbouring numbers are neighbours.
-/

namespace Rationale

/-- A decimal: `digits * 10 ^ exponent`. -/
structure Decimal where
  digits : Nat
  exponent : Int
deriving DecidableEq

namespace Number

/-- The quotient of two naturals, to the nearest one, half way to the even one. -/
def roundDiv (num den : Nat) : Nat :=
  let q := num / den
  let left := 2 * (num % den)
  if den < left || (left == den && q % 2 == 1) then q + 1 else q

/-- The binary exponent at which `num / den` has 53 digits before the point, but at least `-1074`. -/
def scale (num den : Nat) : Int :=
  let guess : Int := (num.log2 : Int) - den.log2 - 53
  let wide := if guess < 0 then num * Nat.pow 2 (-guess).toNat / den else num / (den * Nat.pow 2 guess.toNat)
  max (if wide < Nat.pow 2 53 then guess else guess + 1) (-1074)

/-- The number nearest to `num / den`; infinite when it would not be finite. -/
def ofRatio (negative : Bool) (num den : Nat) : Number :=
  if num = 0 then zero negative
  else
    let e := scale num den
    let q := if e < 0 then roundDiv (num * Nat.pow 2 (-e).toNat) den else roundDiv num (den * Nat.pow 2 e.toNat)
    ofMagnitude negative ((e + 1074).toNat * Nat.pow 2 52 + q)

/-- The number nearest to `sig * 2 ^ e`. -/
def ofScaled (negative : Bool) (sig : Nat) (e : Int) : Number :=
  if e < 0 then ofRatio negative sig (Nat.pow 2 (-e).toNat) else ofRatio negative (sig * Nat.pow 2 e.toNat) 1

def ofNat (n : Nat) : Number := ofRatio false n 1

def ofInt (i : Int) : Number := ofRatio (decide (i < 0)) i.natAbs 1

/-- The number nearest to a decimal. Exponents far outside the range are settled by the digit count. -/
def ofDecimal (negative : Bool) (d : Decimal) : Number :=
  let point := (Nat.toDigits 10 d.digits).length + d.exponent
  if d.digits = 0 || point < -330 then zero negative
  else if 310 < point then infinity negative
  else if d.exponent < 0 then ofRatio negative d.digits (Nat.pow 10 (-d.exponent).toNat)
  else ofRatio negative (d.digits * Nat.pow 10 d.exponent.toNat) 1

/-- The rounded product of two finite magnitudes, with the sign of the first. -/
def times (x y : Number) : Number :=
  ofScaled x.negative (x.significand * y.significand) (x.exponent + y.exponent)

/-- The rounded quotient of two finite magnitudes, with the sign of the first. -/
def quotient (x y : Number) : Number :=
  let e := x.exponent - y.exponent
  if e < 0 then ofRatio x.negative x.significand (y.significand * Nat.pow 2 (-e).toNat)
  else ofRatio x.negative (x.significand * Nat.pow 2 e.toNat) y.significand

end Number

end Rationale
