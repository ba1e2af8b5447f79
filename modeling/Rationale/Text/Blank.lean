import Rationale.Text.CharClass

/-!
Blank characters and the words between them. Blank is the Unicode property `White_Space`, so the
no-break space and the ideographic space separate words and the zero width space does not.
-/

namespace Rationale.Text

def blanks : CharClass := ⟨#[
  (0x9, 0xD), (0x20, 0x20), (0x85, 0x85), (0xA0, 0xA0), (0x1680, 0x1680), (0x2000, 0x200A),
  (0x2028, 0x2029), (0x202F, 0x202F), (0x205F, 0x205F), (0x3000, 0x3000)]⟩

def isBlank (c : Char) : Bool := blanks.has c

/-- The text without the characters of `p` at its end. -/
def dropEnd (p : Char → Bool) (cs : List Char) : List Char := (cs.reverse.dropWhile p).reverse

/-- The text without blanks at either end. -/
def trim (cs : List Char) : List Char := dropEnd isBlank (cs.dropWhile isBlank)

/-- The text up to its first blank, and the words after it. -/
def firstWord : List Char → List Char × List (List Char)
  | [] => ([], [])
  | c :: rest =>
    let (word, later) := firstWord rest
    if isBlank c then ([], if word.isEmpty then later else word :: later) else (c :: word, later)

/-- The maximal runs of characters that are not blank, in order. -/
def words (cs : List Char) : List (List Char) :=
  let (word, later) := firstWord cs
  if word.isEmpty then later else word :: later

end Rationale.Text
