import Rationale.CommandLine.Files
import Rationale.CommandLine.Request
import Rationale.Framework.Listing
import Rationale.GameTree.Frameworks
import Rationale.GameTree.Random

/-!
The outcome of a command: what it writes, and how it ends. A command computes its text first and then opens
the file the text goes to; only a description of frameworks opens it before it knows that the frameworks
exist.
-/

namespace Rationale.CommandLine

/-- A failure, with the failures that led to it. -/
structure Failure where
  message : String
  causes : List String := []

structure Outcome where
  exit : Nat
  stdout : String
  stderr : String
  /-- The file that was written, and all that it holds now. -/
  written : Option (String × String) := none

/-- The folder a command leaves behind. -/
def Folder.after (F : Folder) (o : Outcome) : Folder :=
  match o.written with
  | none => F
  | some (path, text) => F.write path text

/-! ### Reports -/

/-- A text with its lines after the first indented. -/
def hang (margin : String) (text : String) : String :=
  String.ofList (text.toList.flatMap fun c => if c = '\n' then '\n' :: margin.toList else [c])

/-- Several causes are numbered. -/
def causeLines : List String → List String
  | [] => []
  | [cause] => ["    " ++ hang "    " cause]
  | causes => causes.mapIdx fun i cause =>
    String.ofList (List.replicate (5 - (toString i).length) ' ') ++ toString i ++ ": "
      ++ hang "       " cause

def Failure.report (f : Failure) : String :=
  let causes := if f.causes.isEmpty then [] else "" :: "Caused by:" :: causeLines f.causes
  String.join ((("Error: " ++ f.message) :: causes).map (· ++ "\n"))

/-- Ends a command that has nothing to write. -/
def Outcome.failed (f : Failure) : Outcome := ⟨1, "", f.report, none⟩

/-- The failure of an explanation. -/
def Failure.ofExplain (e : ExplainError) : Failure :=
  match e with
  | .settings cause => ⟨e.message, [cause.inSettings, cause.message]⟩
  | _ => ⟨e.message, []⟩

/-! ### Files -/

/-- The whole text of an input file, read as its kind of value. -/
def Surroundings.load {α : Type} (S : Surroundings) (kind path : String) (parse? : String → Option α) :
    Except Failure α :=
  match S.read path with
  | .error e => .error ⟨"Failed to open " ++ kind ++ " file: " ++ path, [e.message]⟩
  | .ok text =>
    match text.bind parse? with
    | some value => .ok value
    | none => .error ⟨"Failed to parse " ++ kind ++ " JSON file: " ++ path, []⟩

def parseSpec? (text : String) : Option TreeSpec := do
  TreeSpec.ofDocument? Json.maxNesting (← Json.Document.parse? text)

def Surroundings.tree (S : Surroundings) (path : String) : Except Failure GameTree := do
  let spec ← S.load "tree" path parseSpec?
  (GameTree.ofSpec spec).mapError fun e => ⟨"Invalid tree in " ++ path, [e.message]⟩

/-- Writes a text to the output, and ends well unless `failure` says otherwise. -/
def Surroundings.deliver (S : Surroundings) (output : Option String) (text : String)
    (failure : Option Failure := none) : Outcome :=
  let exit := if failure.isSome then 1 else 0
  let report := (failure.map Failure.report).getD ""
  match output with
  | none => ⟨exit, text, report, none⟩
  | some path =>
    match S.create path with
    | .error e => .failed ⟨"Failed to create output file: " ++ path, [e.message]⟩
    | .ok .file => ⟨exit, "", report, some (path, text)⟩
    | .ok .standardOutput => ⟨exit, text, report, none⟩
    | .ok .errorOutput => ⟨exit, "", text ++ report, none⟩
    | .ok .elsewhere => ⟨exit, "", report, none⟩

/-- Writes a computed text, with an end of line after it. -/
def Surroundings.finish (S : Surroundings) (output : Option String) : Except Failure String → Outcome
  | .ok text => S.deliver output (text ++ "\n")
  | .error f => .failed f

/-! ### Commands -/

def findNode (t : GameTree) (label : String) : Except Failure (TreeNode t) :=
  match t.find? label with
  | some n => .ok n
  | none => .error ⟨"Node not found in tree: " ++ label, []⟩

/-- The explainer that commands use. -/
def minimax (t : GameTree) : Except Failure (Explainer (TreeNode t)) :=
  Minimax.explainer.mapError .ofExplain

/-- The adjective that is explained unless another one is asked for. -/
def mainAdjective {N : Type} (E : Explainer N) (overrides : SettingsPatch) : Except Failure String := do
  let (F, settings) ← (E.resolve overrides).mapError .ofExplain
  match F.main with
  | some adjective => return adjective
  | none =>
    let key := settings.framework.getD ""
    throw ⟨"Framework " ++ key ++ " has no main adjective; pass --adjective", []⟩

/-- What is explained of a tree once it has been read. -/
def ExplainRequest.textOn (r : ExplainRequest) (S : Surroundings) (t : GameTree) : Except Failure String := do
  let n ← findNode t r.node
  let other ← r.compareTo.mapM (findNode t)
  let mut E ← minimax t
  if let some path := r.settings then
    let settings ← S.load "settings" path (Json.parse? Json.maxNesting)
    E ← (E.configureJson settings).mapError .ofExplain
  let adjective ← match r.adjective with
    | some adjective => pure adjective
    | none => mainAdjective E r.overrides
  let argument ← (E.explain n adjective other r.overrides).mapError .ofExplain
  return argument.render

def ExplainRequest.text (r : ExplainRequest) (S : Surroundings) : Except Failure String := do
  r.textOn S (← S.tree r.tree)

/-- What is answered about a tree once it has been read. -/
def AskRequest.textOn (r : AskRequest) (t : GameTree) : Except Failure String := do
  let n ← findNode t r.node
  match (← minimax t).answer? n r.question with
  | some argument => return argument.render
  | none => throw ⟨"Question not understood: " ++ r.question, []⟩

def AskRequest.text (r : AskRequest) (S : Surroundings) : Except Failure String := do
  r.textOn (← S.tree r.tree)

/-- The descriptions of frameworks, up to one that is not there. -/
def descriptions {N : Type} (E : Explainer N) : List String → String × Option Failure
  | [] => ("", none)
  | key :: rest =>
    match E.framework? key with
    | none => ("", some ⟨"Unknown framework: " ++ key, []⟩)
    | some F =>
      let (text, failure) := descriptions E rest
      ("# " ++ key ++ "\n" ++ F.listing ++ "\n" ++ text, failure)

/-- A tree without nodes. Frameworks are described without looking at one. -/
def noTree : GameTree := ⟨#[]⟩

def DescribeRequest.run (r : DescribeRequest) (S : Surroundings) : Outcome :=
  match minimax noTree with
  | .error f => .failed f
  | .ok E =>
    let keys := match r.framework with
      | some key => [key]
      | none => E.keys
    let (text, failure) := descriptions E keys
    S.deliver r.output text failure

/-- The description that is generated. -/
def GenerateRequest.spec (r : GenerateRequest) (S : Surroundings) : TreeSpec :=
  .random (UInt64.ofNat (r.seed.getD S.seed)) r.depth r.branching

/-- Tells on the error output what is generated, how it is scored, and, if it could be written, its size. -/
def GenerateRequest.run (r : GenerateRequest) (S : Surroundings) : Outcome :=
  if r.branching = 0 then .failed ⟨"Branching factor must be positive", []⟩
  else
    let seed := r.seed.getD S.seed
    let lead := "Generating tree (seed: " ++ toString seed ++ ", depth: " ++ toString r.depth
      ++ ", branching: " ++ toString r.branching ++ ")...\n"
    let spec := r.spec S
    match GameTree.ofSpec spec with
    | .error e => ⟨1, "", lead ++ Failure.report ⟨e.message, []⟩, none⟩
    | .ok t =>
      let score := (t.root?.map TreeNode.score).getD (Number.zero false)
      let outcome := S.deliver r.output (spec.toJson.pretty "" ++ "\n")
      let closing := if outcome.exit = 0 then "Generated " ++ toString t.size ++ " nodes\n" else ""
      { outcome with stderr := lead ++ "Root score: " ++ score.text ++ "\n" ++ outcome.stderr ++ closing }

def Request.run (S : Surroundings) : Request → Outcome
  | .explain r => S.finish r.output (r.text S)
  | .ask r => S.finish r.output (r.text S)
  | .describe r => r.run S
  | .generateTree r => r.run S

/-! ### The program -/

def usage : String :=
  "Commands:\n"
    ++ "  explain --tree FILE --node LABEL [--adjective NAME] [--compare-to LABEL] [--framework KEY]\n"
    ++ "          [--depth N] [--print-mode MODE] [--verbosity LEVEL] [--implicit-assumptions]\n"
    ++ "          [--print-depth] [--settings FILE] [--output FILE]\n"
    ++ "  ask --tree FILE --node LABEL [--output FILE] QUESTION\n"
    ++ "  describe [--framework KEY] [--output FILE]\n"
    ++ "  generate-tree [--seed N] [--depth N] [--branching N] [--output FILE]\n"

def Stop.outcome : Stop → Outcome
  | .help => ⟨0, usage, "", none⟩
  | .version => ⟨0, "argex-cli 0.1.0\n", "", none⟩
  | .misuse => ⟨2, "", usage, none⟩

/-- Runs the program with the given arguments. -/
def run (S : Surroundings) (arguments : List String) : Outcome :=
  match Request.parse arguments with
  | .ok request => request.run S
  | .error stop => stop.outcome

end Rationale.CommandLine
