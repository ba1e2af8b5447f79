import Rationale.Text.CaseTable

/-!
Lower-casing of whole texts. Every character has its own lower-case form, two characters long for the
dotted capital I, except the capital sigma: at the end of a word it becomes the final sigma. A word ends
where the sigma follows a cased character and precedes none, looking through the characters that casing
ignores.
-/

namespace Rationale.Text

/-- The lower-case form of a character by itself. -/
def lowerChar (c : Char) : List Char :=
  if c.toNat < 0x80 then [c.toLower]
  else if c = '\u0130' then ['i', '\u0307']
  else match caseRuns.find? (·.covers c.toNat) with
    | some r => [Char.ofNat (c.toNat + r.shift).toNat]
    | none => [c]

/-- Whether the nearest character that casing does not ignore is cased. -/
def meetsCased (cs : List Char) : Bool :=
  match cs.find? (!caseIgnorable.has ·) with
  | some c => cased.has c
  | none => false

/-- The lower-case form of a text that follows `before`, which is given backwards. -/
def lowerAfter (before : List Char) : List Char → List Char
  | [] => []
  | c :: rest =>
    let form :=
      if c = 'Σ' then [if meetsCased before && !meetsCased rest then 'ς' else 'σ'] else lowerChar c
    form ++ lowerAfter (c :: before) rest

def lowerChars (cs : List Char) : List Char := lowerAfter [] cs

def lowercase (s : String) : String := String.ofList (lowerChars s.toList)

end Rationale.Text
