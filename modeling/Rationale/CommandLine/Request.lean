import Rationale.CommandLine.Arguments
import Rationale.Settings
import Rationale.Text.Natural

/-!
The four requests of the command line: to explain an adjective of a node, to answer a question about a
node, to describe the frameworks, and to generate a tree.
-/

namespace Rationale.CommandLine

structure ExplainRequest where
  tree : String := ""
  node : String := ""
  /-- The main adjective of the framework if there is none. -/
  adjective : Option String := none
  /-- The label of the node to compare with. -/
  compareTo : Option String := none
  settings : Option String := none
  /-- What the options set, over the settings in the file. -/
  overrides : SettingsPatch := {}
  output : Option String := none

structure AskRequest where
  tree : String := ""
  node : String := ""
  question : String := ""
  output : Option String := none

structure DescribeRequest where
  /-- All frameworks if there is none. -/
  framework : Option String := none
  output : Option String := none

structure GenerateRequest where
  seed : Option Nat := none
  depth : Nat := 3
  branching : Nat := 2
  output : Option String := none

inductive Request
  | explain (request : ExplainRequest)
  | ask (request : AskRequest)
  | describe (request : DescribeRequest)
  | generateTree (request : GenerateRequest)

/-! ### Values of options -/

/-- The path of a file, which is not empty. -/
def path? (s : String) : Option String := if s.isEmpty then none else some s

/-- A depth is an integer from `0` to `2 ^ 32 - 1`, and `-0` is one. -/
def depth? (s : String) : Option Nat :=
  match s.toList with
  | '-' :: zeros => if !zeros.isEmpty && zeros.all (· = '0') then some 0 else none
  | _ => Text.natural? UInt32.size s

def count? (s : String) : Option Nat := Text.natural? UInt64.size s

/-! ### Commands -/

def explainArguments : Grammar ExplainRequest where
  options := [
    ("tree", .value fun s r => (path? s).map fun s => { r with tree := s }),
    ("node", .value fun s r => some { r with node := s }),
    ("adjective", .value fun s r => some { r with adjective := some s }),
    ("compare-to", .value fun s r => some { r with compareTo := some s }),
    ("framework", .value fun s r => some { r with overrides.framework := some s }),
    ("depth", .value fun s r => (depth? s).map fun n => { r with overrides.explanationDepth := some n }),
    ("print-mode", .value fun s r => (PrintMode.parse? s).map fun m =>
      { r with overrides.printMode := some m }),
    ("verbosity", .value fun s r => (Verbosity.parse s).toOption.map fun v =>
      { r with overrides.verbosity := some v }),
    ("implicit-assumptions", .flag fun r => { r with overrides.printImplicitAssumptions := some true }),
    ("print-depth", .flag fun r => { r with overrides.printDepth := some true }),
    ("settings", .value fun s r => (path? s).map fun s => { r with settings := some s }),
    ("output", .value fun s r => (path? s).map fun s => { r with output := some s })]
  required := ["tree", "node"]

def askArguments : Grammar AskRequest where
  options := [
    ("tree", .value fun s r => (path? s).map fun s => { r with tree := s }),
    ("node", .value fun s r => some { r with node := s }),
    ("output", .value fun s r => (path? s).map fun s => { r with output := some s })]
  required := ["tree", "node"]
  operands := [fun s r => { r with question := s }]

def describeArguments : Grammar DescribeRequest where
  options := [
    ("framework", .value fun s r => some { r with framework := some s }),
    ("output", .value fun s r => (path? s).map fun s => { r with output := some s })]

def generateArguments : Grammar GenerateRequest where
  options := [
    ("seed", .value fun s r => (count? s).map fun n => { r with seed := some n }),
    ("depth", .value fun s r => (count? s).map fun n => { r with depth := n }),
    ("branching", .value fun s r => (count? s).map fun n => { r with branching := n }),
    ("output", .value fun s r => (path? s).map fun s => { r with output := some s })]

def commands : List String := ["explain", "ask", "describe", "generate-tree", "help"]

/-- What the arguments of the program ask for. -/
def Request.parse : List String → Except Stop Request
  | "explain" :: arguments => .explain <$> explainArguments.read {} arguments
  | "ask" :: arguments => .ask <$> askArguments.read {} arguments
  | "describe" :: arguments => .describe <$> describeArguments.read {} arguments
  | "generate-tree" :: arguments => .generateTree <$> generateArguments.read {} arguments
  | ["help"] => .error .help
  | ["help", command] => .error (if commands.contains command then .help else .misuse)
  | argument :: _ => .error <|
    match Form.of argument with
    | .long "help" none => .help
    | .long "version" none => .version
    | .short ('h' :: _) => .help
    | .short ('V' :: _) => .version
    | _ => .misuse
  | [] => .error .misuse

/-- The files that are read for a request. -/
def Request.inputs : Request → List String
  | .explain r => r.tree :: r.settings.toList
  | .ask r => [r.tree]
  | .describe _ => []
  | .generateTree _ => []

end Rationale.CommandLine
