import Rationale.Number.Rounding

/-!
The shortest decimal that reads back as a number. The decimals that round to `significand * 2 ^ exponent`
fill the interval between the half way points to its neighbours; the ends belong to it when the
significand is even. Grids of powers of ten are tried from coarse to fine, and on each grid only the two
points around the number can lie nearest to it. The first grid with a point inside gives the digits; of
two such points the nearer wins, and `Tie` decides when both are equally near.
-/

namespace Rationale

/-- What a decimal half way between two grid points becomes. -/
inductive Tie
  | up
  | even
deriving DecidableEq

namespace Number

/-- The neighbourhood of a positive finite number, in units of a quarter of `2 ^ exponent`. -/
structure Neighbourhood where
  low : Nat
  value : Nat
  high : Nat
  /-- Whether the ends themselves read back. -/
  closed : Bool
  exponent : Int

/-- Below a power of two the neighbours are twice as close, except at the bottom of the range. -/
def neighbourhood (x : Number) : Neighbourhood :=
  let m := x.significand
  let narrow := m == Nat.pow 2 52 && x.exponent != -1074
  ⟨4 * m - (if narrow then 1 else 2), 4 * m, 4 * m + 2, m % 2 == 0, x.exponent - 2⟩

/-- The grid of multiples of `10 ^ k`, brought to whole units: point `c` lies at `c * step`, and a place
`w` of the neighbourhood at `w * unit`. -/
structure Grid where
  step : Nat
  unit : Nat

def Neighbourhood.grid (v : Neighbourhood) (k : Int) : Grid :=
  ⟨Nat.pow 10 k.toNat * Nat.pow 2 (-v.exponent).toNat, Nat.pow 2 v.exponent.toNat * Nat.pow 10 (-k).toNat⟩

/-- Whether grid point `c` reads back. -/
def Neighbourhood.holds (v : Neighbourhood) (g : Grid) (c : Nat) : Bool :=
  let place := c * g.step
  if v.closed then decide (v.low * g.unit ≤ place ∧ place ≤ v.high * g.unit)
  else decide (v.low * g.unit < place ∧ place < v.high * g.unit)

/-- The nearest point of the grid that reads back, if one of the two around the number does. -/
def Neighbourhood.point? (v : Neighbourhood) (tie : Tie) (g : Grid) : Option Nat :=
  let place := v.value * g.unit
  let c := place / g.step
  match v.holds g c, v.holds g (c + 1) with
  | true, true =>
    let below := place - c * g.step
    let above := (c + 1) * g.step - place
    if below < above then some c
    else if above < below then some (c + 1)
    else match tie with
      | .up => some (c + 1)
      | .even => some (if c % 2 == 0 then c else c + 1)
  | true, false => some c
  | false, true => some (c + 1)
  | false, false => none

/-- The first grid from `10 ^ k` downwards with a point that reads back. -/
def Neighbourhood.search (v : Neighbourhood) (tie : Tie) : Nat → Int → Decimal
  | 0, k => ⟨0, k⟩
  | grids + 1, k =>
    match v.point? tie (v.grid k) with
    | some c => ⟨c, k⟩
    | none => v.search tie grids (k - 1)

/-- The shortest digits of a positive finite number. The first grid is coarser than the number, and
seventeen digits always suffice. -/
def shortest (tie : Tie) (x : Number) : Decimal :=
  let top : Int := ((x.significand.log2 : Int) + x.exponent + 1) * 1233 / 4096 + 1
  x.neighbourhood.search tie 21 top

end Number

end Rationale
