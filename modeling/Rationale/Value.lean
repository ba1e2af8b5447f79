import Rationale.Number.Text

/-!
The boundary with the domain that is explained: its nodes, the values of their adjectives, and the
getters that deliver these values.
-/

namespace Rationale

/-- Things that adjectives speak about: `label` names them in claims, `same` is their identity. Different
nodes may have one label. -/
class Node (N : Type) where
  label : N → String
  same : N → N → Bool

/-- The value of an adjective on a node. -/
inductive Value (N : Type)
  | bool (b : Bool)
  | number (x : Number)
  | text (s : String)
  | node (n : N)
  | nodes (ns : List N)
  | nothing

/-- The kinds of values. -/
inductive ValueKind
  | boolean
  | number
  | text
  | node
  | nodes
  | nothing
deriving DecidableEq

def ValueKind.name : ValueKind → String
  | .boolean => "a boolean"
  | .number => "a number"
  | .text => "a text"
  | .node => "a node"
  | .nodes => "a list of nodes"
  | .nothing => "nothing"

/-- A value without nodes, as a condition expects it. -/
inductive Literal
  | bool (b : Bool)
  | number (x : Number)
  | text (s : String)
deriving DecidableEq

/-- Why a getter has no value for a node. -/
structure GetterError where
  message : String

/-- How the domain delivers the value of an adjective. -/
abbrev Getter (N : Type) := N → Except GetterError (Value N)

def boolText (b : Bool) : String := if b then "true" else "false"

def Literal.toText : Literal → String
  | .bool b => boolText b
  | .number x => x.text
  | .text s => s

namespace Value

variable {N : Type}

def asBool? : Value N → Option Bool
  | .bool b => some b
  | _ => none

def asNumber? : Value N → Option Number
  | .number x => some x
  | _ => none

def asNode? : Value N → Option N
  | .node n => some n
  | _ => none

def asNodes? : Value N → Option (List N)
  | .nodes ns => some ns
  | _ => none

def kind : Value N → ValueKind
  | .bool _ => .boolean
  | .number _ => .number
  | .text _ => .text
  | .node _ => .node
  | .nodes _ => .nodes
  | .nothing => .nothing

/-- The value as it stands in a claim. -/
def toText [Node N] : Value N → String
  | .bool b => boolText b
  | .number x => x.text
  | .text s => s
  | .node n => Node.label n
  | .nodes [] => "none"
  | .nodes ns => ", ".intercalate (ns.map Node.label)
  | .nothing => "?"

/-- Whether the value is the expected one. A node is expected by its label. -/
def isLiteral [Node N] : Value N → Literal → Bool
  | .bool b, .bool b' => b == b'
  | .number x, .number x' => x.eq x'
  | .text s, .text s' => s == s'
  | .node n, .text s => Node.label n == s
  | _, _ => false

end Value

end Rationale
