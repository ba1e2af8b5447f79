import Rationale.Json.Basic

/-!
The tokens of a JSON text. A text is cut at quotes, blanks and punctuation; what remains between them is
one word each, which must be a number or one of the three names. A number keeps at most the digits that
fit into 64 bits, moves the point for the others, and is then scaled by one power of ten at a time, so
its last binary digit can differ from the nearest one.
-/

namespace Rationale.Json

/-- A token. A text that no character string can hold (an unpaired surrogate) and a number beyond the
finite ones are tokens without a value. -/
inductive Token
  | openList
  | closeList
  | openRecord
  | closeRecord
  | comma
  | colon
  | null
  | bool (b : Bool)
  | number (value : Option Json)
  | text (value : Option String)

/-! ### Numbers -/

/-- As many digits after `sig` as fit into 64 bits, and how many do not. -/
def takeDigits (sig : Nat) : List Char → Nat × Nat
  | [] => (sig, 0)
  | c :: rest =>
    let next := 10 * sig + Number.digitValue c
    if next < UInt64.size then takeDigits next rest else (sig, rest.length + 1)

/-- `sig * 10 ^ e` by floating point steps. Powers up to `10 ^ 308` take one step; below them whole
powers of `10 ^ 308` are divided off first, of which three leave nothing. -/
def scaled? (sig : Nat) (e : Int) : Option Number :=
  let start := Number.ofNat sig
  let power (n : Nat) : Number := Number.ofNat (Nat.pow 10 n)
  if 0 ≤ e then
    if sig = 0 then some start
    else if 308 < e then none
    else
      let x := start.times (power e.toNat)
      if x.isFinite then some x else none
  else
    let blocks := (e.natAbs - 1) / 308
    let x := (List.range (min blocks 3)).foldl (fun y _ => y.quotient (power 308)) start
    some (x.quotient (power (e.natAbs - 308 * blocks)))

/-- The value of a number from its sign, its digits before and after the point, and its exponent. -/
def float? (negative : Bool) (whole fraction : List Char) (e : Int) : Option Json :=
  let (high, dropped) := takeDigits 0 whole
  let (sig, unread) := takeDigits high fraction
  let shift : Int := dropped - ((fraction.length - unread : Nat) : Int)
  (scaled? sig (shift + e)).map fun x => .float (if negative then x.negate else x)

/-- An integer that fits into 64 bits; larger ones and the negative zero are floating point numbers. -/
def integer? (negative : Bool) (whole : List Char) : Option Json :=
  let n := Number.readDigits whole
  if negative then
    if n ≠ 0 ∧ n ≤ UInt64.size / 2 then some (.integer (-n)) else float? true whole [] 0
  else if n < UInt64.size then some (.integer n) else float? false whole [] 0

/-- The digits of an integer part: at least one, and no leading zero. -/
def wholeDigits? (cs : List Char) : Option (List Char × List Char) :=
  let whole := cs.takeWhile Char.isDigit
  if whole.isEmpty || (whole.head? == some '0' && 1 < whole.length) then none
  else some (whole, cs.dropWhile Char.isDigit)

/-- The digits after a point, if there is one. -/
def fractionDigits? : List Char → Option (List Char × List Char)
  | '.' :: rest =>
    let fraction := rest.takeWhile Char.isDigit
    if fraction.isEmpty then none else some (fraction, rest.dropWhile Char.isDigit)
  | rest => some ([], rest)

/-- The token of a number, or nothing if the word is not one. -/
def numberToken? (word : List Char) : Option Token := do
  let (negative, cs) := match word with
    | '-' :: rest => (true, rest)
    | rest => (false, rest)
  let (whole, cs) ← wholeDigits? cs
  let (fraction, cs) ← fractionDigits? cs
  let e ← Number.readExponent? cs
  some (.number (if fraction.isEmpty && cs.isEmpty then integer? negative whole
    else float? negative whole fraction e))

/-- The token of a word between punctuation. -/
def wordToken? (word : List Char) : Option Token :=
  if word = "null".toList then some .null
  else if word = "true".toList then some (.bool true)
  else if word = "false".toList then some (.bool false)
  else numberToken? word

/-! ### Texts -/

def hexValue? (c : Char) : Option Nat :=
  if c.isDigit then some (Number.digitValue c)
  else if 'a' ≤ c ∧ c ≤ 'f' then some (c.toNat - 'a'.toNat + 10)
  else if 'A' ≤ c ∧ c ≤ 'F' then some (c.toNat - 'A'.toNat + 10)
  else none

def simpleEscape? (c : Char) : Option Nat :=
  if c = '"' || c = '\\' || c = '/' then some c.toNat
  else if c = 'b' then some 8
  else if c = 'f' then some 12
  else if c = 'n' then some 10
  else if c = 'r' then some 13
  else if c = 't' then some 9
  else none

/-- The code units of the inside of a text, or nothing if it has a control or an unknown escape. -/
def codes? : List Char → Option (List Nat)
  | [] => some []
  | '\\' :: 'u' :: a :: b :: c :: d :: rest => do
    let n := 4096 * (← hexValue? a) + 256 * (← hexValue? b) + 16 * (← hexValue? c) + (← hexValue? d)
    (codes? rest).map (n :: ·)
  | '\\' :: c :: rest => do
    let n ← simpleEscape? c
    (codes? rest).map (n :: ·)
  | '\\' :: [] => none
  | c :: rest => if c.toNat < 32 then none else (codes? rest).map (c.toNat :: ·)

def isHigh (n : Nat) : Bool := decide (0xD800 ≤ n ∧ n < 0xDC00)

def isLow (n : Nat) : Bool := decide (0xDC00 ≤ n ∧ n < 0xE000)

/-- The characters of code units: a high and a low surrogate make one, and neither stands alone. -/
def pairs? : List Nat → Option (List Char)
  | [] => some []
  | n :: rest =>
    if isLow n then none
    else if isHigh n then
      match rest with
      | low :: rest' =>
        if isLow low then
          (pairs? rest').map (Char.ofNat (0x10000 + 0x400 * (n - 0xD800) + (low - 0xDC00)) :: ·)
        else none
      | [] => none
    else (pairs? rest).map (Char.ofNat n :: ·)

def textToken? (inside : List Char) : Option Token :=
  (codes? inside).map fun codes => .text ((pairs? codes).map String.ofList)

/-! ### Texts and words in a row -/

/-- What the characters read so far leave open, given backwards. -/
inductive Open
  | word (read : List Char)
  | text (read : List Char) (escaped : Bool)

def isJsonBlank (c : Char) : Bool := c = ' ' || c = '\t' || c = '\n' || c = '\r'

def punctuation? (c : Char) : Option Token :=
  if c = '[' then some .openList
  else if c = ']' then some .closeList
  else if c = '\x7b' then some .openRecord
  else if c = '\x7d' then some .closeRecord
  else if c = ',' then some .comma
  else if c = ':' then some .colon
  else none

/-- The word read so far, if there is one, in front of the tokens after it. -/
def closeWord (read : List Char) (later : Option (List Token)) : Option (List Token) :=
  if read.isEmpty then later
  else do
    let token ← wordToken? read.reverse
    later.map (token :: ·)

/-- The tokens of a text, or nothing if some part of it is none. -/
def tokens? : Open → List Char → Option (List Token)
  | .word read, [] => closeWord read (some [])
  | .text _ _, [] => none
  | .word read, c :: rest =>
    if c = '"' then closeWord read (tokens? (.text [] false) rest)
    else if isJsonBlank c then closeWord read (tokens? (.word []) rest)
    else match punctuation? c with
      | some p => closeWord read ((tokens? (.word []) rest).map (p :: ·))
      | none => tokens? (.word (c :: read)) rest
  | .text read escaped, c :: rest =>
    if escaped then tokens? (.text (c :: read) false) rest
    else if c = '"' then do
      let token ← textToken? read.reverse
      (tokens? (.word []) rest).map (token :: ·)
    else tokens? (.text (c :: read) (c == '\\')) rest

end Rationale.Json
