/-
Summaries in the order of reports: more code first, then by name. A new summary
goes behind all that do not come after it; the place is found by bisection, which
relies on the order of what is there.
-/
import LineCensus.Bisection
import LineCensus.Summary

namespace LineCensus

namespace Summary

/-- Whether one summary may stand before another. -/
def notAfter (a b : Summary) : Bool := a.compare b != .gt

end Summary

/-- Summaries kept in order. -/
structure Collection where
  summaries : Array Summary := #[]
deriving Inhabited

namespace Collection

/-- Add a summary at its place. -/
def insert (c : Collection) (s : Summary) : Collection :=
  let place := partitionPoint c.summaries (·.notAfter s) 0 c.summaries.size
  ⟨c.summaries.take place ++ #[s] ++ c.summaries.drop place⟩

/-- Summaries put in order; what the order does not tell apart stays as it came. -/
def ofList (ss : List Summary) : Collection := ⟨(ss.mergeSort Summary.notAfter).toArray⟩

def toList (c : Collection) : List Summary := c.summaries.toList

/-- Add several summaries. -/
def extend (c : Collection) (ss : List Summary) : Collection := ofList (c.toList ++ ss)

def size (c : Collection) : Nat := c.summaries.size

def isEmpty (c : Collection) : Bool := c.summaries.isEmpty

end Collection

end LineCensus
