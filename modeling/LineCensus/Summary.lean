/-
The result for one file.
-/
import LineCensus.Tally

namespace LineCensus

/-- The counters of one file. A file that could not be read has no complexity;
one that was read has a complexity even if that is not a number. -/
structure Summary where
  name : String
  language : String
  code : Count := 0
  comments : Count := 0
  blanks : Count := 0
  complexity : Option Binary64 := none
deriving DecidableEq, Inhabited

namespace Summary

/-- The result of a finished scan. -/
def ofTally (name language : String) (t : Tally) : Summary :=
  ⟨name, language, t.code, t.comments, t.blanks, some t.complexity⟩

/-- The result for a file that could not be read. -/
def unreadable (name language : String) : Summary := { name, language }

/-- The complexity if it is a number. -/
def finiteComplexity (s : Summary) : Option Binary64 := s.complexity.filter Binary64.isFinite

/-- All lines, added as machine words. -/
def total (s : Summary) : Nat := (s.code.value + s.comments.value + s.blanks.value) % wordSize

/-- More code first, then by name. -/
def compare (a b : Summary) : Ordering := (Count.compare b.code a.code).then (Ord.compare a.name b.name)

end Summary

end LineCensus
