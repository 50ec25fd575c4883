/-
The tokens of a YAML text. Blocks are told by indentation alone; their tokens
stand where a block begins and ends.
-/
namespace LineCensus.Yaml

/-- How a scalar is written, as far as its meaning depends on it. -/
inductive ScalarForm where
  | plain
  | literal
  | other
deriving DecidableEq, Inhabited

/-- A token. -/
inductive Token where
  | version (major minor : Nat)
  | tagHandle (handle start : String)
  | documentStart
  | documentEnd
  | textEnd
  | blockSequence
  | blockMapping
  | blockEnd
  | flowSequence
  | flowSequenceEnd
  | flowMapping
  | flowMappingEnd
  | blockEntry
  | flowEntry
  | key
  | value
  | alias (name : String)
  | anchor (name : String)
  | tag (handle suffix : String)
  | scalar (form : ScalarForm) (text : String)
deriving DecidableEq, Inhabited

end LineCensus.Yaml
