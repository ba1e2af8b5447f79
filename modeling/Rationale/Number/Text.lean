import Rationale.Number.Shortest

/-!
Numbers as text. `Number.text` is the form used in claims, always positional; `Number.jsonText` is the
form used in JSON, positional only near the point; `Number.parse?` reads any decimal text and the names
of the infinities and of "not a number".
-/

namespace Rationale

/-! ### Writing -/

def zeros (n : Nat) : List Char := List.replicate n '0'

namespace Decimal

def chars (d : Decimal) : List Char := Nat.toDigits 10 d.digits

/-- How many digits stand before the point when the decimal is written out; may be negative. -/
def point (d : Decimal) : Int := d.chars.length + d.exponent

/-- The decimal written out, with `whole` after the digits of an integer. -/
def positional (d : Decimal) (whole : List Char) : List Char :=
  if 0 ≤ d.exponent then d.chars ++ zeros d.exponent.toNat ++ whole
  else if 0 < d.point then d.chars.take d.point.toNat ++ '.' :: d.chars.drop d.point.toNat
  else '0' :: '.' :: zeros (-d.point).toNat ++ d.chars

/-- The decimal with one digit before the point and a signed exponent. -/
def scientific (d : Decimal) : List Char :=
  let e := d.point - 1
  let mantissa := match d.chars with
    | [] => []
    | [c] => [c]
    | c :: rest => c :: '.' :: rest
  mantissa ++ 'e' :: (if e < 0 then '-' else '+') :: Nat.toDigits 10 e.natAbs

end Decimal

namespace Number

def signed (x : Number) (text : List Char) : String :=
  String.ofList (if x.negative then '-' :: text else text)

/-- The text of a number in a claim: the fewest digits that read back, a tie going up, never with an
exponent. What is not a number has no sign. -/
def text (x : Number) : String :=
  if x.isNaN then "NaN"
  else if !x.isFinite then x.signed ['i', 'n', 'f']
  else if x.magnitude = 0 then x.signed ['0']
  else x.signed ((x.shortest .up).positional [])

/-- The text of a number in JSON: the fewest digits that read back, a tie going to the even digit, with
at least one digit after the point, and an exponent from `1e+16` up and below `0.00001`. JSON has no text
for what is not finite. -/
def jsonText (x : Number) : String :=
  if !x.isFinite then "null"
  else if x.magnitude = 0 then x.signed ['0', '.', '0']
  else
    let d := x.shortest .even
    x.signed (if -5 < d.point && d.point ≤ 16 then d.positional ['.', '0'] else d.scientific)

/-! ### Reading -/

def digitValue (c : Char) : Nat := c.toNat - '0'.toNat

/-- The value of a run of decimal digits. -/
def readDigits (cs : List Char) : Nat := cs.foldl (fun n c => 10 * n + digitValue c) 0

/-- A sign in front, and what follows it. -/
def splitSign : List Char → Bool × List Char
  | '-' :: rest => (true, rest)
  | '+' :: rest => (false, rest)
  | rest => (false, rest)

/-- An exponent that ends the text: nothing, or a mark, a sign and at least one digit. -/
def readExponent? : List Char → Option Int
  | [] => some 0
  | mark :: rest =>
    let (down, ds) := splitSign rest
    if (mark == 'e' || mark == 'E') && !ds.isEmpty && ds.all Char.isDigit then
      some (if down then -(readDigits ds : Int) else readDigits ds)
    else none

/-- A decimal with at least one digit before or after the point. -/
def readDecimal? (cs : List Char) : Option Decimal :=
  let whole := cs.takeWhile Char.isDigit
  let afterWhole := cs.dropWhile Char.isDigit
  let fraction := match afterWhole with
    | '.' :: rest => rest.takeWhile Char.isDigit
    | _ => []
  let afterFraction := match afterWhole with
    | '.' :: rest => rest.dropWhile Char.isDigit
    | rest => rest
  if whole.isEmpty && fraction.isEmpty then none
  else do
    let e ← readExponent? afterFraction
    some ⟨readDigits (whole ++ fraction), e - fraction.length⟩

/-- The number nearest to a decimal text, or the named infinity or "not a number". -/
def parse? (s : String) : Option Number :=
  let (negative, cs) := splitSign s.toList
  let name := cs.map Char.toLower
  if name = "inf".toList || name = "infinity".toList then some (infinity negative)
  else if name = "nan".toList then some (nan negative)
  else (readDecimal? cs).map (ofDecimal negative)

end Number

end Rationale
