/-
The arguments of the command line. They are read from left to right; the value of an
option is held back, and tested when the next option, the next path or the end comes.
-/
import LineCensus.Path
import LineCensus.Present.Render
import LineCensus.Totals

namespace LineCensus.Command

/-- Options without a value. -/
inductive Switch where
  | byFile
  | hidden
  | follow
  | showLanguages
  | debug
deriving DecidableEq

/-- Options with a value. -/
inductive Setting where
  | format
  | sort
  | includeLanguages
  | excludeExtensions
  | matchFile
  | notMatchFile
  | matchDirectory
  | notMatchDirectory
  | definitions
  | jobs
deriving DecidableEq

/-- What an argument with hyphens in front can name. -/
inductive Flag where
  | switch (s : Switch)
  | setting (s : Setting)
  | help
  | version
deriving DecidableEq

namespace Flag

/-- The flag of a long name. -/
def ofLong? (name : String) : Option Flag :=
  match name with
  | "by-file" => some (.switch .byFile)
  | "hidden" => some (.switch .hidden)
  | "follow" => some (.switch .follow)
  | "show-lang" => some (.switch .showLanguages)
  | "debug" => some (.switch .debug)
  | "format" => some (.setting .format)
  | "sort" => some (.setting .sort)
  | "include-lang" => some (.setting .includeLanguages)
  | "exclude-ext" => some (.setting .excludeExtensions)
  | "match" => some (.setting .matchFile)
  | "not-match" => some (.setting .notMatchFile)
  | "match-dir" => some (.setting .matchDirectory)
  | "not-match-dir" => some (.setting .notMatchDirectory)
  | "definitions" => some (.setting .definitions)
  | "jobs" => some (.setting .jobs)
  | "help" => some .help
  | "version" => some .version
  | _ => none

/-- The flag of a single letter. -/
def ofShort? (letter : Char) : Option Flag :=
  match letter with
  | 'j' => some (.setting .jobs)
  | 'h' => some .help
  | 'V' => some .version
  | _ => none

end Flag

/-- Why no run follows from the arguments. -/
inductive Stop where
  | help
  | version
  | unknownArgument
  /-- A value is missing, empty where it must not be, or none of those there are. -/
  | invalidValue
  /-- A value cannot be read. -/
  | unreadableValue
  /-- An option is given twice that can be given once. -/
  | conflict
  /-- An option without a value is given one. -/
  | tooManyValues
deriving DecidableEq

/-- The arguments, as far as they are given. -/
structure Arguments where
  paths : List Path := []
  switches : List Switch := []
  format : Option OutputFormat := none
  sort : Option SortKey := none
  includeLanguages : List String := []
  excludeExtensions : List String := []
  matchFile : Option String := none
  notMatchFile : Option String := none
  matchDirectory : Option String := none
  notMatchDirectory : Option String := none
  definitions : Option Path := none
  jobs : Option Nat := none
deriving Inhabited

namespace Arguments

/-- A number of jobs: decimal digits that make a number below 2^64, with a plus sign
or zeros in front if need be. -/
def jobs? (text : String) : Option Nat :=
  let digits := match text.toList with
    | '+' :: rest => rest
    | cs => cs
  let value := digits.foldl (fun n c => n * 10 + (c.toNat - 48)) 0
  if !digits.isEmpty && digits.all Char.isDigit && value < wordSize then some value else none

/-- A path; it must not be empty. -/
def path (text : String) : Except Stop Path :=
  if text.isEmpty then .error .invalidValue else .ok (.ofString text)

/-- The pieces of a list; empty ones count. -/
def pieces (text : String) : List String := (text.toList.splitOn ',').map String.ofList

/-- Put a value where none is yet. -/
def once (given : Option α) (value : Except Stop β) : Except Stop (Option β) :=
  if given.isSome then .error .conflict else value.map some

/-- A value that is read by `read`, or else the reason `stop`. -/
def reading (read : String → Option α) (stop : Stop) (text : String) : Except Stop α :=
  match read text with
  | some value => .ok value
  | none => .error stop

/-- The arguments with the value of an option. -/
def set (a : Arguments) (s : Setting) (text : String) : Except Stop Arguments := do
  match s with
  | .format => return { a with format := ← once a.format (reading OutputFormat.ofName? .invalidValue text) }
  | .sort => return { a with sort := ← once a.sort (reading SortKey.parse? .unreadableValue text) }
  | .includeLanguages => return { a with includeLanguages := a.includeLanguages ++ pieces text }
  | .excludeExtensions => return { a with excludeExtensions := a.excludeExtensions ++ pieces text }
  | .matchFile => return { a with matchFile := ← once a.matchFile (.ok text) }
  | .notMatchFile => return { a with notMatchFile := ← once a.notMatchFile (.ok text) }
  | .matchDirectory => return { a with matchDirectory := ← once a.matchDirectory (.ok text) }
  | .notMatchDirectory => return { a with notMatchDirectory := ← once a.notMatchDirectory (.ok text) }
  | .definitions => return { a with definitions := ← once a.definitions (path text) }
  | .jobs => return { a with jobs := ← once a.jobs (reading jobs? .unreadableValue text) }

/-- The arguments with one more switch. -/
def switchOn (a : Arguments) (s : Switch) : Except Stop Arguments :=
  if a.switches.contains s then .error .conflict else .ok { a with switches := s :: a.switches }

def has (a : Arguments) (s : Switch) : Bool := a.switches.contains s

end Arguments

/-- What has been read but not tested yet. -/
inductive Held where
  | nothing
  /-- An option that waits for its value. -/
  | waiting (s : Setting)
  | value (s : Setting) (text : String)
  /-- Paths, the last one first. -/
  | paths (texts : List String)

/-- The arguments being read. -/
structure ArgumentReading where
  given : Arguments := {}
  held : Held := .nothing
  /-- Whether two hyphens have come, after which all arguments are paths. -/
  pathsOnly : Bool := false

namespace ArgumentReading

/-- Test what is held. -/
def settle (r : ArgumentReading) : Except Stop ArgumentReading :=
  match r.held with
  | .nothing => .ok r
  | .waiting _ => .error .invalidValue
  | .value s text => (r.given.set s text).map fun given => { r with given, held := .nothing }
  | .paths texts => (texts.reverse.mapM Arguments.path).map fun ps =>
      { r with given := { r.given with paths := r.given.paths ++ ps }, held := .nothing }

/-- A path comes. -/
def addPath (r : ArgumentReading) (text : String) : Except Stop ArgumentReading :=
  match r.held with
  | .paths texts => .ok { r with held := .paths (text :: texts) }
  | _ => r.settle.map fun r => { r with held := .paths [text] }

/-- A switch comes. -/
def addSwitch (r : ArgumentReading) (s : Switch) : Except Stop ArgumentReading := do
  let r ← r.settle
  return { r with given := ← r.given.switchOn s }

/-- An option comes, with its value or before it. -/
def addSetting (r : ArgumentReading) (s : Setting) (value : Option String) : Except Stop ArgumentReading := do
  let r ← r.settle
  match value with
  | none => return { r with held := .waiting s }
  | some text => return { r with given := ← r.given.set s text }

/-- An argument comes that starts with two hyphens. -/
def addLong (r : ArgumentReading) (name : String) (value : Option String) : Except Stop ArgumentReading :=
  match Flag.ofLong? name, value with
  | none, _ => .error .unknownArgument
  | some (.setting s), value => r.addSetting s value
  | some _, some _ => .error .tooManyValues
  | some (.switch s), none => r.addSwitch s
  | some .help, none => r.settle.bind fun _ => .error .help
  | some .version, none => r.settle.bind fun _ => .error .version

/-- An argument comes that starts with one hyphen: flags of one letter, of which one
with a value ends the argument. An equals sign may stand before the value. -/
def addShort (r : ArgumentReading) : List Char → Except Stop ArgumentReading
  | [] => .ok r
  | letter :: rest =>
    match Flag.ofShort? letter with
    | none => .error .unknownArgument
    | some .help => r.settle.bind fun _ => .error .help
    | some .version => r.settle.bind fun _ => .error .version
    | some (.switch s) => (r.addSwitch s).bind (addShort · rest)
    | some (.setting s) =>
      match rest with
      | [] => r.addSetting s none
      | '=' :: value => r.addSetting s (some (String.ofList value))
      | value => r.addSetting s (some (String.ofList value))

/-- A name, and the value after an equals sign. -/
def splitValue (cs : List Char) : String × Option String :=
  match cs.dropWhile (· != '=') with
  | [] => (String.ofList cs, none)
  | _ :: value => (String.ofList (cs.takeWhile (· != '=')), some (String.ofList value))

/-- An argument comes. -/
def step (r : ArgumentReading) (argument : String) : Except Stop ArgumentReading :=
  if r.pathsOnly then r.addPath argument
  else
    match argument.toList with
    | ['-', '-'] => .ok { r with pathsOnly := true }
    | '-' :: '-' :: cs => let (name, value) := splitValue cs; r.addLong name value
    | '-' :: c :: cs => r.addShort (c :: cs)
    | _ =>
      match r.held with
      | .waiting s => .ok { r with held := .value s argument }
      | _ => r.addPath argument

end ArgumentReading

/-- Read the arguments. -/
def Arguments.parse (arguments : List String) : Except Stop Arguments := do
  let r ← arguments.foldlM ArgumentReading.step {}
  return (← r.settle).given

end LineCensus.Command
