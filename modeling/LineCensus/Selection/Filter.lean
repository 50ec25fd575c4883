/-
The filters of a plan, made ready.
-/
import LineCensus.Failure
import LineCensus.Language.Registry
import LineCensus.Selection.Engine
import LineCensus.Selection.Plan
import LineCensus.Text.Ascii

namespace LineCensus

/-- The filters of a plan. A pattern that is not given lets everything pass. -/
structure Filter where
  /-- Ids in small letters; all languages pass if there are none. -/
  languages : List String := []
  /-- Extensions in small letters, without dots in front. -/
  excludedExtensions : List String := []
  matchFile : Option (String → Bool) := none
  notMatchFile : Option (String → Bool) := none
  matchDirectory : Option (String → Bool) := none
  notMatchDirectory : Option (String → Bool) := none

namespace Filter

/-- The pattern that a text writes, if one is given. -/
def compile (g : Engine) (text : Option String) : Except Failure (Option (String → Bool)) :=
  match text with
  | none => .ok none
  | some text =>
    match g.compile text with
    | .ok matchesText => .ok (some matchesText)
    | .error reason => .error (.invalidPattern text reason (some reason))

/-- The filters of a plan; they fail at the first pattern that is none. -/
def ofPlan (g : Engine) (p : Plan) : Except Failure Filter := do
  return {
    languages := p.includeLanguages.map Text.lower
    excludedExtensions := p.excludeExtensions.map Language.Definition.extensionKey
    matchFile := ← compile g p.matchFile
    notMatchFile := ← compile g p.notMatchFile
    matchDirectory := ← compile g p.matchDirectory
    notMatchDirectory := ← compile g p.notMatchDirectory }

/-- Whether a directory of this name is entered. Patterns are about texts, so a name
that is none is not tested. -/
def enters (f : Filter) (name : List UInt8) : Bool :=
  match Path.text? name with
  | some name => !f.notMatchDirectory.any (· name)
  | none => true

def acceptsLanguage (f : Filter) (d : Language.Definition) : Bool :=
  f.languages.isEmpty || f.languages.contains (Text.lower d.id)

/-- Whether a file's extension and name pass. A name that is no text counts as empty. -/
def acceptsFile (f : Filter) (p : Path) : Bool :=
  let name := p.fileNameText?.getD ""
  !(p.extensionText?.any fun e => f.excludedExtensions.contains (Text.lower e))
    && f.matchFile.all (· name) && !f.notMatchFile.any (· name)

/-- The names of the directories between a root and a file below it. -/
def directoryNames (root p : Path) : List String :=
  ((root.partsBelow? p).getD p.parts).dropLast.filterMap fun
    | .name n => Path.text? n
    | _ => none

/-- Whether one of the directories between the root and the file passes. -/
def acceptsParents (f : Filter) (root p : Path) : Bool :=
  f.matchDirectory.all fun pattern => (directoryNames root p).any pattern

end Filter

end LineCensus
