import Rationale.Framework.Evaluate
import Rationale.Text.Blank

/-!
Free-text questions. A question is trimmed, loses its question marks, gets single spaces and lower-case
letters, and is then read as one of

* `why is S`, about the main adjective,
* `why is S N` or `why is S not N`,
* `why does S have N`,
* `why is S N than its P` or `why is S N than the P`, about the node a pointer points at,

where `S` is the label of the node, `it`, or `this` or `the` with the word for nodes. The adjective `N` is
the one with the longest name that the text ends with.
-/

namespace Rationale

/-- What a question asks about a node. -/
structure Question (N : Type) where
  adjective : String
  other : Option N

namespace Question

open Text

/-- The plain form of a question. -/
def plain (question : String) : List Char :=
  lowerChars ([' '].intercalate (words (dropEnd (· == '?') (trim question.toList))))

def lowerName (name : String) : List Char := lowerChars name.toList

/-- The parts of a text around the last occurrence of a separator. -/
def splitLast? (separator : List Char) : List Char → Option (List Char × List Char)
  | [] => none
  | c :: rest =>
    match splitLast? separator rest with
    | some (before, after) => some (c :: before, after)
    | none => (separator.isPrefixOf? (c :: rest)).map fun after => ([], after)

variable {N : Type} [Node N] (F : Framework N)

/-- Whether a text names the node that is asked about. -/
def isSubject (node : N) (text : List Char) : Bool :=
  let nodeWord := lowerName F.nodeWord
  [lowerName (Node.label node), "it".toList, "this ".toList ++ nodeWord,
    "the ".toList ++ nodeWord].contains text

/-- What stands before the name of an adjective and the space in front of it, if the text ends so. -/
def beforeName? (text : List Char) (a : Adjective N) : Option (List Char) := do
  let head ← (lowerName a.name).isSuffixOf? text
  [' '].isSuffixOf? head

/-- How much text the name of an adjective takes. -/
def nameSize (a : Adjective N) : Nat := (String.ofList (lowerName a.name)).utf8ByteSize

/-- The accepted public adjective with the longest name that ends the text, and what stands before it. Of
equally long names the last counts. -/
def splitAdjective? (accepts : Adjective N → Bool) (text : List Char) : Option (List Char × Adjective N) :=
  let candidates := F.adjectives.filterMap fun a =>
    if a.isPublic && accepts a then (beforeName? text a).map fun head => (head, a) else none
  candidates.foldl (fun best candidate =>
    match best with
    | none => some candidate
    | some b => if nameSize b.2 ≤ nameSize candidate.2 then some candidate else some b) none

/-- The question about an adjective alone, if the text before it names the node. -/
def about (node : N) (subject : List Char) (a : Adjective N) : Option (Question N) :=
  if isSubject F node subject then some ⟨a.name, none⟩ else none

/-- Reads what follows `why does`. -/
def parsePossession? (node : N) (text : List Char) : Option (Question N) := do
  let (head, a) ← splitAdjective? F (fun _ => true) text
  let subject ← " have".toList.isSuffixOf? head
  about F node subject a

/-- Reads the two sides of `than`. -/
def parseComparison? (node : N) (head target : List Char) : Option (Question N) := do
  let (subject, comparison) ← splitAdjective? F (·.isComparison) head
  if !isSubject F node subject then none
  else
    let name ← ("its ".toList.isPrefixOf? target).or ("the ".toList.isPrefixOf? target)
    let pointer ← F.adjectives.find? fun a => a.kind == .pointer && lowerName a.name == name
    match F.evaluate pointer.name node with
    | .ok (.node other) => some ⟨comparison.name, some other⟩
    | _ => none

/-- Reads what follows `why is`. -/
def parseState? (node : N) (text : List Char) : Option (Question N) :=
  if isSubject F node text then do
    let main ← F.adjective? (← F.main)
    some ⟨main.name, none⟩
  else
    match splitLast? " than ".toList text with
    | some (head, target) => parseComparison? F node head target
    | none => do
      let (head, a) ← splitAdjective? F (!·.isComparison) text
      about F node ((" not".toList.isSuffixOf? head).getD head) a

/-- The question about a node that a text asks, if it asks one. -/
def parse? (node : N) (question : String) : Option (Question N) :=
  let text := plain question
  match "why does ".toList.isPrefixOf? text with
  | some rest => parsePossession? F node rest
  | none => do parseState? F node (← "why is ".toList.isPrefixOf? text)

end Question

end Rationale
