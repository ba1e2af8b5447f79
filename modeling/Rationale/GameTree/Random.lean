import Rationale.GameTree.Spec

/-!
Random trees from a seed. The generator is a linear congruence on 64 bits whose output is the upper half
of its state, scrambled and rotated by the topmost bits; the same output function spreads the seed over
the first state. Evaluations are drawn leaf by leaf, from left to right.
-/

namespace Rationale

/-- The state of the generator: where it is, and the odd step it takes. -/
structure Generator where
  state : UInt64
  increment : UInt64

namespace Generator

def multiplier : UInt64 := 6364136223846793005

/-- The output for a state. -/
def output (s : UInt64) : UInt32 :=
  let word : UInt32 := (((s >>> 18) ^^^ s) >>> 27).toUInt32
  let turn : UInt32 := (s >>> 59).toUInt32
  (word >>> turn) ||| (word <<< ((32 - turn) % 32))

/-- The state after the next step of the sequence that spreads a seed. -/
def spread (s : UInt64) : UInt64 := s * multiplier + 11634580027462260723

/-- Two outputs as one word, the earlier one below. -/
def joined (low high : UInt64) : UInt64 :=
  (output low).toUInt64 ||| ((output high).toUInt64 <<< 32)

/-- The generator for a seed. -/
def ofSeed (seed : UInt64) : Generator :=
  let s0 := spread seed
  let s1 := spread s0
  let s2 := spread s1
  let s3 := spread s2
  let increment := joined s2 s3 ||| 1
  ⟨(joined s0 s1 + increment) * multiplier + increment, increment⟩

/-- The next 32 bits. -/
def next (g : Generator) : UInt32 × Generator :=
  (output g.state, { g with state := g.state * multiplier + g.increment })

/-- A number below `bound`, uniform but for a bias of one in `2 ^ 64`: a product that could have carried
takes a second draw into account. -/
def below (bound : UInt64) (g : Generator) : UInt64 × Generator :=
  let (word, g) := g.next
  let product := word.toUInt64 * bound
  let high := product >>> 32
  let low := product &&& 0xFFFFFFFF
  if 0x100000000 - bound < low then
    let (word, g) := g.next
    let carry := (word.toUInt64 * bound) >>> 32
    (if 0x100000000 ≤ low + carry then high + 1 else high, g)
  else (high, g)

/-- An integer from `-10` to `10`. -/
def evaluation (g : Generator) : Int × Generator :=
  let (n, g) := g.below 21
  ((n.toNat : Int) - 10, g)

end Generator

namespace TreeSpec

/-- The label of the child with the given number. Labels spell the path from the root. -/
def childLabel (label : String) (number : Nat) : String :=
  (if label = "root" then "n" else label) ++ toString number

/-- The last `count` of the `branching` children of `label`, each grown by `build`. -/
def growAll (build : String → Generator → TreeSpec × Generator) (label : String) (branching : Nat) :
    Nat → Generator → List TreeSpec × Generator
  | 0, g => ([], g)
  | count + 1, g =>
    let (child, g) := build (childLabel label (branching - count)) g
    let (rest, g) := growAll build label branching count g
    (child :: rest, g)

/-- A leaf with the next evaluation. -/
def growLeaf (label : String) (g : Generator) : TreeSpec × Generator :=
  let (x, g) := g.evaluation
  (leaf label (Number.ofInt x), g)

/-- A complete tree of the given depth. Without branching it is a leaf. -/
def grow (branching : Nat) : Nat → String → Generator → TreeSpec × Generator
  | 0, label, g => growLeaf label g
  | depth + 1, label, g =>
    if branching = 0 then growLeaf label g
    else
      let (children, g) := growAll (grow branching depth) label branching branching g
      (internal label children, g)

/-- The complete tree of a seed: every inner node has `branching` children, and every leaf lies at
`depth`. -/
def random (seed : UInt64) (depth branching : Nat) : TreeSpec :=
  (grow branching depth "root" (Generator.ofSeed seed)).1

end TreeSpec

end Rationale
