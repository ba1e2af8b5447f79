import Rationale.Choice
import Rationale.Json.Decode
import Rationale.Proof.Render
import Rationale.Text.Lowercase

/-!
Settings of an explanation. `Settings` has a value for everything; a `SettingsPatch` has values for some
fields only, and patches lie over one another: the topmost value of a field counts.
-/

namespace Rationale

/-- How assumptions are shown. -/
inductive Verbosity
  | verbose
  /-- Only that there are some. -/
  | minimal
  | no
  /-- Verbose in the explanation of the asked adjective itself, and not below it. -/
  | ifAsked
deriving DecidableEq

namespace Verbosity

def name : Verbosity → String
  | .verbose => "verbose"
  | .minimal => "minimal"
  | .no => "no"
  | .ifAsked => "if_asked"

def named : List (String × Verbosity) :=
  [Verbosity.verbose, .minimal, .no, .ifAsked].map fun v => (v.name, v)

def parse (s : String) : Except ChoiceError Verbosity := choose "assumptions verbosity" named s

end Verbosity

namespace PrintMode

def named : List (String × PrintMode) := [PrintMode.verbal, .logic].map fun m => (m.name, m)

/-- The mode with the given name, in any mixture of cases. -/
def parse? (s : String) : Option PrintMode :=
  (named.find? (·.1 == Text.lowercase s)).map (·.2)

/-- What is said of a text that names no mode. -/
def unknownMessage : String := "Invalid \x60PrintMode\x60 string representation"

end PrintMode

structure Settings where
  /-- The deepest level that is expanded. -/
  explanationDepth : Nat := 8
  printImplicitAssumptions : Bool := false
  verbosity : Verbosity := .ifAsked
  printMode : PrintMode := .logic
  /-- The framework to explain with; the first registered one if there is none. -/
  framework : Option String := none
  printDepth : Bool := false

structure SettingsPatch where
  explanationDepth : Option Nat := none
  printImplicitAssumptions : Option Bool := none
  verbosity : Option Verbosity := none
  printMode : Option PrintMode := none
  framework : Option String := none
  printDepth : Option Bool := none
deriving DecidableEq

/-! ### Layers -/

/-- The settings with every field that the patch sets. -/
def Settings.apply (s : Settings) (p : SettingsPatch) : Settings where
  explanationDepth := p.explanationDepth.getD s.explanationDepth
  printImplicitAssumptions := p.printImplicitAssumptions.getD s.printImplicitAssumptions
  verbosity := p.verbosity.getD s.verbosity
  printMode := p.printMode.getD s.printMode
  framework := p.framework.or s.framework
  printDepth := p.printDepth.getD s.printDepth

/-- Both patches, the fields of `top` over those of `base`. -/
def SettingsPatch.merge (base top : SettingsPatch) : SettingsPatch where
  explanationDepth := top.explanationDepth.or base.explanationDepth
  printImplicitAssumptions := top.printImplicitAssumptions.or base.printImplicitAssumptions
  verbosity := top.verbosity.or base.verbosity
  printMode := top.printMode.or base.printMode
  framework := top.framework.or base.framework
  printDepth := top.printDepth.or base.printDepth

def SettingsPatch.isEmpty (p : SettingsPatch) : Bool := p == {}

def Settings.renderOptions (s : Settings) : RenderOptions := ⟨s.printMode, s.printDepth⟩

/-! ### JSON -/

namespace Settings

/-- The fields in the order in which they are written. -/
def fieldNames : List String :=
  ["explanation_depth", "print_implicit_assumptions", "assumptions_verbosity", "print_mode",
    "with_framework", "print_depth"]

def toJson (s : Settings) : Json :=
  .record [
    ("explanation_depth", .integer s.explanationDepth),
    ("print_implicit_assumptions", .bool s.printImplicitAssumptions),
    ("assumptions_verbosity", .text s.verbosity.name),
    ("print_mode", .text s.printMode.name),
    ("with_framework", match s.framework with
      | some key => .text key
      | none => .null),
    ("print_depth", .bool s.printDepth)]

/-- Sets the named field to what is written for it. -/
def setField (name : String) (value : Json) (s : Settings) : Except DecodeError Settings :=
  match name with
  | "explanation_depth" => do return { s with explanationDepth := ← value.asNatural32 }
  | "print_implicit_assumptions" => do return { s with printImplicitAssumptions := ← value.asBool }
  | "assumptions_verbosity" => do return { s with verbosity := ← value.asCase Verbosity.named }
  | "print_mode" => do return { s with printMode := ← value.asCase PrintMode.named }
  | "with_framework" => do return { s with framework := ← value.orNull Json.asText }
  | "print_depth" => do return { s with printDepth := ← value.asBool }
  | _ => .error (.unknownField name fieldNames)

def ofJson (j : Json) : Except DecodeError Settings := j.asRecord "Settings" fieldNames setField {}

end Settings

namespace SettingsPatch

/-- Only the fields that are set are written. -/
def toJson (p : SettingsPatch) : Json :=
  .record (List.flatten [
    (p.explanationDepth.map fun n => ("explanation_depth", Json.integer n)).toList,
    (p.printImplicitAssumptions.map fun b => ("print_implicit_assumptions", Json.bool b)).toList,
    (p.verbosity.map fun v => ("assumptions_verbosity", Json.text v.name)).toList,
    (p.printMode.map fun m => ("print_mode", Json.text m.name)).toList,
    (p.framework.map fun key => ("with_framework", Json.text key)).toList,
    (p.printDepth.map fun b => ("print_depth", Json.bool b)).toList])

/-- Sets the named field to what is written for it; `null` leaves it open. -/
def setField (name : String) (value : Json) (p : SettingsPatch) : Except DecodeError SettingsPatch :=
  match name with
  | "explanation_depth" => do return { p with explanationDepth := ← value.orNull Json.asNatural32 }
  | "print_implicit_assumptions" => do
    return { p with printImplicitAssumptions := ← value.orNull Json.asBool }
  | "assumptions_verbosity" => do
    return { p with verbosity := ← value.orNull (Json.asCase Verbosity.named) }
  | "print_mode" => do return { p with printMode := ← value.orNull (Json.asCase PrintMode.named) }
  | "with_framework" => do return { p with framework := ← value.orNull Json.asText }
  | "print_depth" => do return { p with printDepth := ← value.orNull Json.asBool }
  | _ => .error (.unknownField name Settings.fieldNames)

def ofJson (j : Json) : Except DecodeError SettingsPatch :=
  j.asRecord "SettingsPatch" Settings.fieldNames setField {}

end SettingsPatch

/-- A settings value that cannot be read. -/
def DecodeError.inSettings (e : DecodeError) : String := "invalid settings: " ++ e.message

end Rationale
