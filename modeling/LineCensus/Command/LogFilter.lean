/-
Which messages are shown. A filter is written as directives between commas: a level,
a target, or both with an equals sign; a slash introduces a pattern that messages
must match.
-/
import LineCensus.Log
import LineCensus.Pattern.Compile
import LineCensus.Text.Ascii
import LineCensus.Text.Blank

namespace LineCensus.Command

/-- The gravest messages pass up to a rank: none at 0, all at 5. -/
structure Directive where
  /-- The beginning of the targets it is about; of all of them if there is none. -/
  target : Option String
  rank : Nat
deriving DecidableEq

/-- A filter of messages. -/
structure LogFilter where
  directives : List Directive := []
  pattern : Option Pattern := none
  /-- What could not be understood. -/
  complaints : List String := []

namespace LogFilter

/-- The rank of a level's name, in any letter case. -/
def rank? (name : String) : Option Nat :=
  ["off", "error", "warn", "info", "debug", "trace"].idxOf? (Text.lower name)

def trimmed (cs : List Char) : String := String.ofList (Text.trim cs)

/-- Add a directive, in place of one for the same target. -/
def put (f : LogFilter) (d : Directive) : LogFilter :=
  if f.directives.any (·.target == d.target) then
    { f with directives := f.directives.map fun e => if e.target == d.target then d else e }
  else { f with directives := f.directives ++ [d] }

def complain (f : LogFilter) (text : String) : LogFilter :=
  { f with complaints := f.complaints ++ [s!"warning: {text}, ignoring it"] }

/-- Read a directive. A name alone that is no level is a target, and lets all levels pass. -/
def readDirective (f : LogFilter) (text : List Char) : LogFilter :=
  let text := Text.trim text
  if text.isEmpty then f
  else
    match text.splitOn '=' with
    | [single] =>
      match rank? (String.ofList single) with
      | some rank => f.put ⟨none, rank⟩
      | none => f.put ⟨some (String.ofList single), 5⟩
    | [target, level] =>
      let level := trimmed level
      match rank? level with
      | some rank => f.put ⟨some (String.ofList target), rank⟩
      | none =>
        if level.isEmpty then f.put ⟨some (String.ofList target), 5⟩
        else f.complain s!"invalid logging spec '{level}'"
    | _ => f.complain s!"invalid logging spec '{String.ofList text}'"

/-- Read a filter. Without directives only errors pass. -/
def parse (text : String) : LogFilter :=
  let read (directives : List Char) : LogFilter := (directives.splitOn ',').foldl readDirective {}
  let f : LogFilter := match text.toList.splitOn '/' with
    | [directives] => read directives
    | [directives, pattern] =>
      let f := read directives
      match Pattern.compile? (String.ofList pattern) with
      | some p => { f with pattern := some p }
      | none => f.complain "invalid regex filter"
    | _ => ({} : LogFilter).complain s!"invalid logging spec '{text}' (too many '/'s)"
  if f.directives.isEmpty then { f with directives := [⟨none, 1⟩] } else f

/-- How specific a directive is: the length of its target in bytes. -/
def weight (d : Directive) : Nat := (d.target.map String.utf8ByteSize).getD 0

/-- The rank up to which messages of a target pass: that of the most specific directive
about it, of equally specific ones the last. -/
def rankFor (f : LogFilter) (target : String) : Nat :=
  let about := f.directives.filter fun d => d.target.all fun t => t.toList.isPrefixOf target.toList
  let best := about.foldl (fun (best : Option Directive) d =>
    match best with
    | some b => if weight b ≤ weight d then some d else some b
    | none => some d) none
  (best.map (·.rank)).getD 0

/-- Whether a message is shown. -/
def shows (f : LogFilter) (r : LogRecord) : Bool :=
  r.level.rank ≤ f.rankFor r.target && f.pattern.all (·.matchesText r.text)

/-- The filter that holds when none is given: warnings, and line traces on request. -/
def standard (debug : Bool) : String :=
  if debug then s!"warn,{LogRecord.traceTarget}=debug" else "warn"

end LogFilter

end LineCensus.Command
