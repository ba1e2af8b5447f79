/-!
Arguments of a command. An option is written `--name`, one that takes a value `--name VALUE` or
`--name=VALUE`, and each may be given once; `--` ends the options. A value that looks like an option has to
be given with `=`. All other arguments are operands, and none of them may be left out.

Arguments are read from left to right up to the first that is refused or asks for help.
-/

namespace Rationale.CommandLine

/-- Why there is nothing to run. -/
inductive Stop
  | help
  | version
  | misuse
deriving DecidableEq

/-- What an option does to the result. A value may be refused. -/
inductive Effect (σ : Type)
  | flag (set : σ → σ)
  | value (set : String → σ → Option σ)

/-- The arguments a command takes, to be read into a result. -/
structure Grammar (σ : Type) where
  options : List (String × Effect σ)
  required : List String := []
  operands : List (String → σ → σ) := []

/-- The form of an argument. -/
inductive Form
  | operand
  | endOfOptions
  | short (letters : List Char)
  | long (name : String) (value : Option String)

def Form.of (argument : String) : Form :=
  match argument.toList with
  | ['-'] => .operand
  | ['-', '-'] => .endOfOptions
  | '-' :: '-' :: cs =>
    let name := String.ofList (cs.takeWhile (· ≠ '='))
    match cs.dropWhile (· ≠ '=') with
    | _ :: value => .long name (some (String.ofList value))
    | [] => .long name none
  | '-' :: letters => .short letters
  | _ => .operand

def Form.isOperand : Form → Bool
  | .operand => true
  | _ => false

/-- What has been read: the result, the options it comes from, and the operands still to come. -/
structure Reading (σ : Type) where
  result : σ
  seen : List String
  operands : List (String → σ → σ)

namespace Reading

variable {σ : Type} (r : Reading σ)

def operand (text : String) : Except Stop (Reading σ) :=
  match r.operands with
  | set :: rest => .ok { r with result := set text r.result, operands := rest }
  | [] => .error .misuse

/-- The reading after an option, with the result the option leads to. -/
def option (name : String) (result : Option σ) : Except Stop (Reading σ) :=
  match result with
  | some result =>
    if r.seen.contains name then .error .misuse else .ok { r with result, seen := name :: r.seen }
  | none => .error .misuse

end Reading

namespace Grammar

variable {σ : Type} (G : Grammar σ)

/-- Reads arguments from left to right. -/
def scan (r : Reading σ) : List String → Except Stop (Reading σ)
  | [] => .ok r
  | argument :: rest =>
    match Form.of argument with
    | .operand => do scan (← r.operand argument) rest
    | .endOfOptions => rest.foldlM Reading.operand r
    | .short letters => .error (if letters.head? = some 'h' then .help else .misuse)
    | .long name value =>
      match G.options.lookup name, value with
      | some (.flag set), none => do scan (← r.option name (some (set r.result))) rest
      | some (.value set), some value => do scan (← r.option name (set value r.result)) rest
      | some (.value set), none =>
        match rest with
        | value :: rest =>
          if (Form.of value).isOperand then do scan (← r.option name (set value r.result)) rest
          else .error .misuse
        | [] => .error .misuse
      | _, _ => .error (if name = "help" ∧ value = none then .help else .misuse)

/-- The result of all arguments of a command, starting from `result`. -/
def read (result : σ) (arguments : List String) : Except Stop σ := do
  let r ← G.scan ⟨result, [], G.operands⟩ arguments
  if r.operands.isEmpty && G.required.all r.seen.contains then return r.result else throw .misuse

end Grammar

end Rationale.CommandLine
