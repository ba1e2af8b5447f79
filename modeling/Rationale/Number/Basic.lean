/-!
Binary64 numbers, kept as a sign and the other 63 bits read as a natural number. A larger magnitude is
a larger absolute value, so the arithmetic comparisons (`lt`, `eq`) and the total order (`compareTotal`)
are comparisons of integers: `line` puts both zeros on one point, `rank` keeps all bit patterns apart.
-/

namespace Rationale

/-- A binary64 number: its sign bit and its remaining bits. -/
structure Number where
  negative : Bool
  magnitude : Nat
  magnitude_lt : magnitude < Nat.pow 2 63
deriving DecidableEq

namespace Number

/-- The magnitude of the infinities. Larger magnitudes are not numbers. -/
def limit : Nat := 0x7FF * Nat.pow 2 52

/-- The number with magnitude `m`, or an infinity when `m` is not finite. -/
def ofMagnitude (negative : Bool) (m : Nat) : Number :=
  if h : m < limit then ⟨negative, m, Nat.lt_trans h (by decide)⟩ else ⟨negative, limit, by decide⟩

def zero (negative : Bool) : Number := ofMagnitude negative 0

def infinity (negative : Bool) : Number := ofMagnitude negative limit

/-- The quiet "not a number" without payload. -/
def nan (negative : Bool) : Number := ⟨negative, limit + Nat.pow 2 51, by decide⟩

def isNaN (x : Number) : Bool := decide (limit < x.magnitude)

def isFinite (x : Number) : Bool := decide (x.magnitude < limit)

def negate (x : Number) : Number := { x with negative := !x.negative }

/-! ### Orders -/

/-- The place of a number on the line. The two zeros share one. -/
def line (x : Number) : Int := if x.negative then -x.magnitude else x.magnitude

/-- The place of a bit pattern in the total order, from the negative "not a number" to the positive one. -/
def rank (x : Number) : Int := if x.negative then -x.magnitude - 1 else x.magnitude

/-- Strictly less, and false as soon as one side is not a number. -/
def lt (x y : Number) : Bool := !x.isNaN && !y.isNaN && decide (x.line < y.line)

/-- Equal in value: zeros are equal, and what is not a number equals nothing. -/
def eq (x y : Number) : Bool := !x.isNaN && !y.isNaN && decide (x.line = y.line)

def le (x y : Number) : Bool := x.lt y || x.eq y

/-- The total order of bit patterns. -/
def compareTotal (x y : Number) : Ordering := compare x.rank y.rank

/-! ### Significand and exponent -/

/-- A finite magnitude is `significand * 2 ^ exponent`. -/
def significand (x : Number) : Nat :=
  if x.magnitude < Nat.pow 2 52 then x.magnitude else Nat.pow 2 52 + x.magnitude % Nat.pow 2 52

def exponent (x : Number) : Int :=
  if x.magnitude < Nat.pow 2 52 then -1074 else (x.magnitude / Nat.pow 2 52 : Nat) - 1075

end Number

end Rationale
