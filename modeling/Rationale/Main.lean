import Rationale.CommandLine.Outcome

/-!
The program: runs a request of the command line on the files it names.
-/

namespace Rationale.CommandLine

/-- The error as commands word it. The number of an error can be given negated. -/
def fileError (e : IO.Error) : FileError :=
  match e with
  | .noFileOrDirectory _ _ _ => .notFound
  | .inappropriateType _ code _ => if code = 21 ∨ code = 0 - 21 then .isDirectory else .notDirectory
  | .invalidArgument _ code _ =>
    if code = 36 ∨ code = 0 - 36 then .nameTooLong else .other (toString e)
  | e => .other (toString e)

/-- The text of a file. What is not a file, or not a text, can be opened all the same. -/
def readText (path : String) : IO (Except FileError (Option String)) := do
  try
    return .ok (String.fromUTF8? (← IO.FS.readBinFile path))
  catch e =>
    match fileError e with
    | .isDirectory => return .ok none
    | e => return .error e

/-- Runs a request on the real files. It is run again if its output cannot be written, to say so. -/
def perform (request : Request) : IO Outcome := do
  let texts ← request.inputs.mapM fun path => return (path, ← readText path)
  let seed ← IO.rand 0 (UInt64.size - 1)
  let outcome (created : Except FileError Sink) : Outcome :=
    request.run ⟨fun path => (texts.lookup path).getD (.error .notFound), fun _ => created, seed⟩
  let hoped := outcome (.ok .file)
  match hoped.written with
  | none => return hoped
  | some (path, text) =>
    try
      IO.FS.writeFile path text
      return hoped
    catch e => return outcome (.error (fileError e))

end Rationale.CommandLine

open Rationale.CommandLine in
/-- Runs the program and prints what it says. -/
def main (arguments : List String) : IO UInt32 := do
  let outcome ← match Request.parse arguments with
    | .ok request => perform request
    | .error stop => pure stop.outcome
  IO.print outcome.stdout
  IO.eprint outcome.stderr
  return UInt32.ofNat outcome.exit
