/-
What to look for and where. The patterns are texts here; they are compiled when
the plan is carried out.
-/
import LineCensus.Path

namespace LineCensus

/-- A plan for choosing files. -/
structure Plan where
  roots : List Path := []
  followLinks : Bool := false
  includeHidden : Bool := false
  /-- The ids of the languages to keep; all of them if there are none. -/
  includeLanguages : List String := []
  excludeExtensions : List String := []
  /-- Patterns for the names of files. -/
  matchFile : Option String := none
  notMatchFile : Option String := none
  /-- Patterns for the names of directories: one of those between the root and
  the file must match the first, and those that match the second are not entered. -/
  matchDirectory : Option String := none
  notMatchDirectory : Option String := none
deriving DecidableEq, Inhabited

end LineCensus
