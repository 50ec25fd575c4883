/-
The list of known languages with the files they claim.
-/
import LineCensus.Language.Registry
import LineCensus.Text.Pad

namespace LineCensus.Present

/-- A language: its label, its id, and its extensions and file names. -/
def languageLine (d : Language.Definition) : String :=
  Text.padRight 27 d.label ++ Text.padRight 16 d.id
    ++ ", ".intercalate (d.extensions.map ("." ++ ·) ++ d.fileNames) ++ "\n"

/-- All languages by label, letter case aside; equal labels in table order. -/
def languageList (r : Language.Registry) : String :=
  let ordered := r.definitions.mergeSort fun a b =>
    compare (Text.lower a.label) (Text.lower b.label) != .gt
  String.join (ordered.map languageLine)

end LineCensus.Present
