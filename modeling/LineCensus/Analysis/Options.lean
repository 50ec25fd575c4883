/-
How an analysis is to be done.
-/
namespace LineCensus

/-- The options of an analysis. -/
structure AnalysisOptions where
  /-- Whether every line is to be traced. -/
  debugTrace : Bool := false
deriving DecidableEq, Inhabited

end LineCensus
