/-
Definitions of languages from the file tree.
-/
import LineCensus.Files.Tree
import LineCensus.Language.DefinitionFile

namespace LineCensus

/-- The text of a file. -/
def FileTree.readText (t : FileTree) (p : Path) : Except Failure String :=
  match t.read p with
  | .error fault => .error (.fileRead p fault.text)
  | .ok bytes =>
    match Path.text? bytes with
    | some text => .ok text
    | none => .error (.fileRead p "stream did not contain valid UTF-8")

/-- The definitions of the file at a path, checked. -/
def Language.load (t : FileTree) (p : Path) : Except Failure (List Language.Definition) := do
  Language.definitionsOf p (← t.readText p)

end LineCensus
