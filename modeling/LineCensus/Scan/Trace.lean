/-
One record for each line of a traced scan. A record is read off the scan after
its line, so tracing cannot change what it observes.
-/
import LineCensus.Log
import LineCensus.Scan.Scanner

namespace LineCensus

/-- What is told about a line. -/
structure LineTrace where
  kind : LineKind
  code : Count
  comments : Count
  blanks : Count
  inBlock : Bool
  parity : Bool
  text : List Char
deriving DecidableEq

namespace LineTrace

/-- The record of a line of that kind after which the scan stands at `s`. -/
def ofScan (s : Scanner) (kind : LineKind) (raw : List Char) : LineTrace :=
  { kind := kind
    code := s.tally.code
    comments := s.tally.comments
    blanks := s.tally.blanks
    inBlock := s.state.isInBlock
    parity := s.state.parity
    text := raw }

/-- The record in words. -/
def render (t : LineTrace) : String :=
  s!"[{t.kind.mark},cd:{t.code},cm:{t.comments},bk:{t.blanks},iscm:{t.inBlock},iscms:{t.parity}] "
    ++ String.ofList t.text

/-- The record as a message. -/
def toLog (t : LineTrace) : LogRecord := ⟨.debug, LogRecord.traceTarget, t.render⟩

end LineTrace

end LineCensus
