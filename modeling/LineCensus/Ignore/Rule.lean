/-
Ignore files: lists of globs for the paths below a directory that are not to be
looked at, with exceptions.
-/
import LineCensus.Glob.Reader
import LineCensus.Text.Blank

namespace LineCensus.Ignore

/-- What rules say about a path. -/
inductive Verdict where
  | ignored
  /-- Named by an exception. -/
  | kept
deriving DecidableEq

/-- A line of an ignore file. -/
structure Rule where
  glob : Glob
  verdict : Verdict := .ignored
  directoriesOnly : Bool := false

namespace Rule

/-- A line without blanks at its end; a space after a backslash stays. -/
def trimLine (line : List Char) : List Char :=
  if [' ', '\\'].isPrefixOf line.reverse then line else Text.trimEnd line

/-- The marks in front of a line: whether it is an exception, whether its glob
starts at the directory, and the glob. A backslash takes a mark's meaning away. -/
def marks (line : List Char) : Bool × Bool × List Char :=
  match line with
  | '\\' :: '!' :: rest => (false, false, '!' :: rest)
  | '\\' :: '#' :: rest => (false, false, '#' :: rest)
  | '!' :: '/' :: rest => (true, true, rest)
  | '!' :: rest => (true, false, rest)
  | '/' :: rest => (false, true, rest)
  | line => (false, false, line)

/-- A glob without the slash at its end, which asks for a directory. -/
def directoryMark (glob : List Char) : Bool × List Char :=
  match glob.reverse with
  | '/' :: '\\' :: rest => (true, rest.reverse)
  | '/' :: rest => (true, rest.reverse)
  | _ => (false, glob)

/-- The glob for whole paths below the directory: one without a slash may match
anywhere, and double stars at the end ask for something in the directory. -/
def wholeGlob (anchored : Bool) (glob : List Char) : List Char :=
  let deep := "**/".toList
  let glob := if anchored || glob.contains '/' || glob = ['*', '*'] then glob else deep ++ glob
  if "**/".toList.isPrefixOf glob.reverse then glob ++ ['/', '*'] else glob

/-- The rule a line states, if it states one. -/
def ofLine? (line : List Char) : Option Rule :=
  if line.head? == some '#' then none
  else
    let line := trimLine line
    if line.isEmpty then none
    else
      let (exception, anchored, glob) := marks line
      let (directoriesOnly, glob) := directoryMark glob
      (Glob.ofText? (wholeGlob anchored glob)).map fun glob =>
        { glob, verdict := if exception then .kept else .ignored, directoriesOnly }

end Rule

/-- The lines of a file; a carriage return before a line's end does not count. -/
def linesOf (bytes : List UInt8) : List (List UInt8) :=
  let pieces := bytes.splitOn 10
  let complete := pieces.dropLast.map fun l => if l.getLast? == some 13 then l.dropLast else l
  complete ++ (pieces.getLast?.filter (!·.isEmpty)).toList

/-- The lines up to the first that is not UTF-8. -/
def readableLines (bytes : List UInt8) : List (List Char) :=
  ((linesOf bytes).map Text.decode?).takeWhile Option.isSome |>.filterMap id

/-- The rules of an ignore file. -/
def rulesOf (bytes : List UInt8) : List Rule :=
  match readableLines bytes with
  | [] => []
  | first :: lines => ((first.dropWhile (· == Text.byteOrderMark)) :: lines).filterMap Rule.ofLine?

/-- What the last rule that matches says about a path, given relative to the rules'
directory. -/
def verdict? (rules : List Rule) (path : List UInt8) (isDirectory : Bool) : Option Verdict :=
  (rules.reverse.find? fun r => (!r.directoriesOnly || isDirectory) && r.glob.matchesPath path).map (·.verdict)

end LineCensus.Ignore
