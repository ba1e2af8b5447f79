import Rationale.Text.EscapeTable

/-!
Quoted text, as error messages show it: between double quotes, with the quote and the backslash behind a
backslash, the common controls by letter, and the other characters that would not be seen by number.
-/

namespace Rationale.Text

/-- A character inside quotes. -/
def quotedChar (c : Char) : List Char :=
  if c = '"' || c = '\\' then ['\\', c]
  else if c = '\n' then ['\\', 'n']
  else if c = '\r' then ['\\', 'r']
  else if c = '\t' then ['\\', 't']
  else if c.toNat = 0 then ['\\', '0']
  else if shownByNumber.has c then
    ['\\', 'u', '\x7b'] ++ Nat.toDigits 16 c.toNat ++ ['\x7d']
  else [c]

def quoted (s : String) : String := String.ofList ('"' :: s.toList.flatMap quotedChar ++ ['"'])

end Rationale.Text
