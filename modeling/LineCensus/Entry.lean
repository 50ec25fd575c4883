/-
A file chosen for measuring.
-/
import LineCensus.Path

namespace LineCensus

/-- A file and the id of the language it is taken to be in. -/
structure Entry where
  path : Path
  languageId : String
deriving DecidableEq, Inhabited

/-- The name a file has in reports: its path as it was found. -/
def Entry.name (e : Entry) : String := e.path.display

end LineCensus
