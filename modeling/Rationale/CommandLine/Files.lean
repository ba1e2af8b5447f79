/-!
The files around a command. `Surroundings` is all that a command finds out about them, and a `Folder` is a
folder of files, without folders in it, that a command can be run in. Of what lies outside, a folder knows
the usual folders and devices of a system, so every path either fails with a stated cause or leads to a
`Place`.
-/

namespace Rationale.CommandLine

/-- Why a file cannot be opened. -/
inductive FileError
  | notFound
  | notDirectory
  | isDirectory
  | nameTooLong
  | other (message : String)

def FileError.message : FileError → String
  | .notFound => "No such file or directory (os error 2)"
  | .notDirectory => "Not a directory (os error 20)"
  | .isDirectory => "Is a directory (os error 21)"
  | .nameTooLong => "File name too long (os error 36)"
  | .other message => message

/-- Where a text goes that is written to an opened file. -/
inductive Sink
  /-- The file keeps it. -/
  | file
  | standardOutput
  | errorOutput
  /-- It is not seen again. -/
  | elsewhere

/-- What a command finds around it. -/
structure Surroundings where
  /-- The text of a file, if it can be opened; what holds no text can still be opened. -/
  read : String → Except FileError (Option String)
  /-- Where a text for a file goes, if it can be opened for writing. It is empty then. -/
  create : String → Except FileError Sink
  /-- The seed of a random tree when none is given. -/
  seed : Nat

/-- A folder of named texts. -/
structure Folder where
  files : List (String × String)

/-! ### Paths -/

/-- The parts of a path between its slashes. -/
def splitPath : List Char → List (List Char)
  | [] => [[]]
  | c :: cs =>
    if c = '/' then [] :: splitPath cs
    else
      match splitPath cs with
      | part :: parts => (c :: part) :: parts
      | [] => [[c]]

/-- Whether a part of a path stays where it is. -/
def isIdle (part : List Char) : Bool := part.isEmpty || part = ['.']

/-- A path has from 1 to 4095 bytes. -/
def checkLength (path : String) : Except FileError Unit :=
  if path.isEmpty then .error .notFound
  else if path.utf8ByteSize < 4096 then .ok ()
  else .error .nameTooLong

/-- A path to the folder that the last name of a path is in. -/
def folderOf (path : String) : String :=
  let lead := (path.toList.reverse.dropWhile (· = '/')).dropWhile (· ≠ '/')
  String.ofList (lead.reverse ++ ['.'])

/-! ### Places -/

/-- The folders that a path goes through. -/
inductive Site
  /-- The folder where paths start that do not start with a slash. -/
  | here
  /-- A folder around it. -/
  | around
  | root
  /-- A folder in the root. -/
  | system (name : String)

def Site.parent : Site → Site
  | .here | .around => .around
  | .root | .system _ => .root

/-- What a path leads to. -/
inductive Place
  | folder (site : Site)
  /-- A name in the folder, with the text of the file that has it. -/
  | entry (name : String) (text : Option String)
  /-- A device, which holds no text. -/
  | device (sink : Sink)
  /-- A name outside the folder that nothing known has. -/
  | unknown

/-- Why a path that goes on there leads nowhere. -/
def Place.barrier : Place → FileError
  | .entry _ none | .unknown => .notFound
  | _ => .notDirectory

/-- The folders that the root of a system has. -/
def systemFolders : List String :=
  ["bin", "boot", "dev", "etc", "home", "lib", "media", "mnt", "opt", "proc", "root", "run", "sbin", "srv",
    "sys", "tmp", "usr", "var"]

def devices : List (String × Sink) :=
  [("null", .elsewhere), ("zero", .elsewhere), ("stdin", .elsewhere), ("stdout", .standardOutput),
    ("stderr", .errorOutput)]

namespace Folder

variable (F : Folder)

def file? (name : String) : Option String := F.files.lookup name

/-- What has a name in one of the folders that a path goes through. -/
def find : Site → String → Place
  | .here, name => .entry name (F.file? name)
  | .around, _ => .unknown
  | .root, name => if systemFolders.contains name then .folder (.system name) else .unknown
  | .system folder, name => if folder = "dev" then (devices.lookup name).elim .unknown .device else .unknown

/-- What the parts of a path lead to, one after the other. A name has at most 255 bytes. -/
def walk : Site → List (List Char) → Except FileError Place
  | site, [] => .ok (.folder site)
  | site, part :: rest =>
    if isIdle part then walk site rest
    else if part = ['.', '.'] then walk site.parent rest
    else if 255 < (String.ofList part).utf8ByteSize then .error .nameTooLong
    else
      match F.find site (String.ofList part) with
      | .folder inner => walk inner rest
      | place => if rest.isEmpty then .ok place else .error place.barrier

/-- What a path leads to. -/
def locate (path : String) : Except FileError Place := do
  checkLength path
  F.walk (if path.toList.head? = some '/' then .root else .here) (splitPath path.toList)

/-! ### Access -/

def read (path : String) : Except FileError (Option String) := do
  match ← F.locate path with
  | .folder _ | .device _ => return none
  | .entry _ (some text) => return some text
  | .entry _ none | .unknown => throw .notFound

/-- A path that ends with a slash is that of a folder, whether or not there is one. -/
def create (path : String) : Except FileError Sink := do
  checkLength path
  if path.toList.getLast? = some '/' then
    let _ ← F.locate (folderOf path)
    throw .isDirectory
  else
    match ← F.locate path with
    | .folder _ => throw .isDirectory
    | .entry _ _ => return .file
    | .device sink => return sink
    | .unknown => return .elsewhere

/-- The folder after a text was written to a file of it. -/
def write (path text : String) : Folder :=
  match F.locate path with
  | .ok (.entry name _) => ⟨(name, text) :: F.files.filter (·.1 != name)⟩
  | _ => F

/-- The folder as the surroundings of a command. -/
def surroundings (seed : Nat) : Surroundings := ⟨F.read, F.create, seed⟩

end Folder

end Rationale.CommandLine
