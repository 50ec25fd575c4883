/-
The two things that the choice of files leaves to others: to tell which texts a
pattern matches, and to find what lies below a directory. The choice is made with
any engine for them; the standard one is the engine that runs.
-/
import LineCensus.Pattern.Compile
import LineCensus.Walk.Basic

namespace LineCensus

/-- An engine for patterns and walks. -/
structure Engine where
  /-- The texts that a pattern matches, or why it is none. -/
  compile : String → Except String (String → Bool)
  /-- What is found below a root that is a directory. -/
  walk : FileTree → WalkOptions → Path → List Found

namespace Engine

/-- The engine that runs. -/
def standard : Engine where
  compile text :=
    match Pattern.compile? text with
    | some p => .ok p.matchesText
    | none => .error "not a pattern"
  walk := Walk.run

end Engine

end LineCensus
