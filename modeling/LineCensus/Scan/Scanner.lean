/-
The line classifier. It knows a language only through its grammar and looks at
one line at a time; between lines it keeps whether a block comment is open, and
whether the first non-blank line is still to come.

`judge` decides a line from the trimmed text and that state alone, in this
order: a blank line; an interpreter line in front of everything else; a line
comment, outside blocks only; a block that opens here, or closes and opens again;
a line within a block; and code, which is what remains.
-/
import LineCensus.Grammar
import LineCensus.Scan.Line
import LineCensus.Scan.Occurrence
import LineCensus.Scan.State
import LineCensus.Tally

namespace LineCensus

/-- What one block delimiter makes of a line: nothing, a comment, or code that
closes a block and opens the next one. -/
inductive PairHit where
  | miss
  | comment
  | code
deriving DecidableEq

/-- Whether the line leaves a block of this delimiter open. Lines and tokens are
compared as bytes. -/
def BlockDelimiter.isLeftOpen (d : BlockDelimiter) (line : List Char) : Bool :=
  Scan.leavesOpen (Text.encode d.opener.toList) (Text.encode d.closer.toList) (Text.encode line)

/-- How often the opening token occurs in the line. -/
def BlockDelimiter.openers (d : BlockDelimiter) (line : List Char) : Nat :=
  Scan.occurrences (Text.encode d.opener.toList) (Text.encode line)

/-- A line that starts with the opener or ends with the closer is a comment. So
is one that leaves the opener unclosed, unless it ends with the opener or starts
with the closer. A delimiter without an opener hits no line. -/
def BlockDelimiter.hit (d : BlockDelimiter) (line : List Char) : PairHit :=
  let opener := d.opener.toList
  let closer := d.closer.toList
  if opener.isEmpty then .miss
  else if opener.isPrefixOf line || closer.isSuffixOf line then .comment
  else if d.isLeftOpen line then
    if !d.isSymmetric && (opener.isSuffixOf line || closer.isPrefixOf line) then .code else .comment
  else .miss

namespace Grammar

/-- Whether the line starts with a token for line comments. -/
def startsLineComment (g : Grammar) (line : List Char) : Bool :=
  g.lineComments.any fun token => token.toList.isPrefixOf line

/-- The first of the delimiters that hits the line, with its place counted from `i`. -/
def firstHit (line : List Char) : Nat → List BlockDelimiter → Option (Nat × PairHit)
  | _, [] => none
  | i, d :: ds =>
    match d.hit line with
    | .miss => firstHit line (i + 1) ds
    | hit => some (i, hit)

/-- The hit on a line and the state it leads to. In a block only the pair that
opened it is looked at. -/
def probe (g : Grammar) (s : ScanState) (line : List Char) : PairHit × ScanState :=
  match s with
  | .inBlock i _ => ((g.blockComments[i]?.map (·.hit line)).getD .miss, s)
  | .outside =>
    match firstHit line 0 g.blockComments with
    | some (i, hit) => (hit, s.enter i)
    | none => (.miss, s)

/-- The state after a comment line in a block: a symmetric token is counted, any
other closing token ends the block wherever it stands. -/
def afterComment (g : Grammar) (s : ScanState) (line : List Char) : ScanState :=
  match s with
  | .outside => .outside
  | .inBlock i _ =>
    match g.blockComments[i]? with
    | none => .outside
    | some d =>
      if d.isSymmetric then s.afterSymmetric (d.openers line)
      else if Scan.occursIn d.closer.toList line then .outside
      else s

end Grammar

/-- The decision about a line: its kind, the state after it, and whether its
indentation counts. -/
structure Verdict where
  kind : LineKind
  state : ScanState
  indented : Bool
deriving DecidableEq

/-- The mark of an interpreter line. -/
def interpreterMark : List Char := ['#', '!']

/-- Decide a trimmed line; `pending` says that no line but blank ones came before. -/
def judge (g : Grammar) (s : ScanState) (pending : Bool) (line : List Char) : Verdict :=
  if line.isEmpty then ⟨.blank, s, false⟩
  else if pending && interpreterMark.isPrefixOf line then ⟨.code, s, false⟩
  else if !s.isInBlock && g.startsLineComment line then ⟨.comment, s, false⟩
  else
    match g.probe s line with
    | (.code, s') => ⟨.code, s', false⟩
    | (_, s') =>
      if s'.isInBlock then ⟨.comment, g.afterComment s' line, false⟩ else ⟨.code, s', true⟩

/-- A scan in progress. -/
structure Scanner where
  state : ScanState := .outside
  /-- No line has been read yet. -/
  atStart : Bool := true
  /-- Only blank lines have been read yet. -/
  interpreterPending : Bool := true
  tally : Tally := {}
deriving DecidableEq, Inhabited

namespace Scanner

/-- The decision about the next line of a scan. -/
def verdict (g : Grammar) (s : Scanner) (raw : List Char) : Verdict :=
  judge g s.state s.interpreterPending (Line.ofRaw s.atStart raw).trimmed

/-- The scan after one more line, given without its line end. -/
def feed (g : Grammar) (s : Scanner) (raw : List Char) : Scanner :=
  let line := Line.ofRaw s.atStart raw
  let v := judge g s.state s.interpreterPending line.trimmed
  let tally := s.tally.record v.kind
  { state := v.state
    atStart := false
    interpreterPending := s.interpreterPending && v.kind == .blank
    tally := if v.indented then tally.addIndent line.indentMeasure else tally }

/-- The kind the next line has. -/
def classify (g : Grammar) (s : Scanner) (raw : List Char) : LineKind := (s.verdict g raw).kind

/-- The scan after several lines. -/
def feedAll (g : Grammar) (s : Scanner) (lines : List (List Char)) : Scanner := lines.foldl (feed g) s

end Scanner

end LineCensus
