/-
Reading scalars: plain ones, quoted ones and blocks of lines.

In plain and quoted scalars the line structure is folded: one line end becomes a
space, of several the first is dropped, and white space around line ends goes.
White space is therefore kept aside until it is known what follows it.
-/
import LineCensus.Json.Reader
import LineCensus.Yaml.Spot

namespace LineCensus.Yaml

/-- A scalar being read: its text, and the white space after it. All lists have
the last character first. -/
structure Folding where
  text : List Char := []
  blanks : List Char := []
  /-- A line end has been read since the last word. -/
  lineEnded : Bool := false
  firstEnd : Option Char := none
  moreEnds : List Char := []

namespace Folding

/-- A blank counts only if no line has ended before it. -/
def blank (f : Folding) (c : Char) : Folding :=
  if f.lineEnded then f else { f with blanks := c :: f.blanks }

/-- Blanks before a line end do not count. -/
def lineEnd (f : Folding) (c : Char) : Folding :=
  if f.lineEnded then { f with moreEnds := c :: f.moreEnds }
  else { f with blanks := [], firstEnd := some c, lineEnded := true }

/-- A line end that is passed over, together with the white space after it. -/
def skipLineEnd (f : Folding) : Folding := { f with lineEnded := true }

/-- The text with the white space after it. -/
def join (f : Folding) : Folding :=
  let text :=
    if f.lineEnded then
      match f.firstEnd with
      | some '\n' => if f.moreEnds.isEmpty then ' ' :: f.text else f.moreEnds ++ f.text
      | some c => f.moreEnds ++ c :: f.text
      | none => f.moreEnds ++ f.text
    else f.blanks ++ f.text
  { text := text }

/-- One more character of a word. -/
def push (f : Folding) (c : Char) : Folding :=
  let f := f.join
  { f with text := c :: f.text }

/-- The text without the white space after it. -/
def result (f : Folding) : String := String.ofList f.text.reverse

end Folding

/-- Read white space that is not the last thing in a scalar. -/
def Folding.gap (f : Folding) (s : Spot) : Folding :=
  if s.isEnd then f.lineEnd s.char else f.blank s.char

def isFlowMark (c : Char) : Bool := c == ',' || c == '[' || c == ']' || c == '\x7b' || c == '\x7d'

/-- Read a plain scalar. It ends before `: `, before ` #`, before a line that is
not indented by `indent`, at the edge of a document, and within brackets before
their marks. `inWord` says that no white space came before. -/
def readPlain (inFlow : Bool) (indent : Int) :
    Bool → Folding → List Spot → Option (Folding × List Spot)
  | _, f, [] => some (f, [])
  | inWord, f, s :: rest =>
    if s.isBlank || s.isEnd then
      if f.lineEnded && s.column < indent && s.isTab then none
      else readPlain inFlow indent false (f.gap s) rest
    else if !inWord && ((!inFlow && s.column < indent) || atDocumentEdge (s :: rest) || s.char == '#') then
      some (f, s :: rest)
    else if s.char == ':' && inFlow && rest.head?.any (fun t => isFlowMark t.char || t.char == '?') then none
    else if (s.char == ':' && atGap rest) || (inFlow && isFlowMark s.char) then some (f, s :: rest)
    else readPlain inFlow indent true (f.push s.char) rest

/-- The character that a letter after a backslash stands for. -/
def escape? (c : Char) : Option Char :=
  match c with
  | '0' => some (Char.ofNat 0)
  | 'a' => some (Char.ofNat 7)
  | 'b' => some (Char.ofNat 8)
  | 't' | '\t' => some '\t'
  | 'n' => some '\n'
  | 'v' => some (Char.ofNat 11)
  | 'f' => some (Char.ofNat 12)
  | 'r' => some '\r'
  | 'e' => some (Char.ofNat 27)
  | ' ' | '"' | '/' | '\\' => some c
  | 'N' => some (Char.ofNat 0x85)
  | '_' => some (Char.ofNat 0xA0)
  | 'L' => some (Char.ofNat 0x2028)
  | 'P' => some (Char.ofNat 0x2029)
  | _ => none

/-- How many hexadecimal digits a letter after a backslash asks for. -/
def escapeWidth? (c : Char) : Option Nat :=
  match c with
  | 'x' => some 2
  | 'u' => some 4
  | 'U' => some 8
  | _ => none

/-- The character with a number of so many digits. -/
def numbered? (width : Nat) (here : List Spot) : Option Char := do
  let digits ← (here.take width).mapM fun s => Json.hexValue? s.char
  let n := digits.foldl (fun n d => n * 16 + d) 0
  if digits.length == width && n.isValidChar then return Char.ofNat n else none

/-- Read a scalar between single or double quotes; the first has been read. -/
def readQuoted (single : Bool) : Nat → Folding → List Spot → Option (String × List Spot)
  | 0, _, _ => none
  | _ + 1, _, [] => none
  | fuel + 1, f, s :: rest =>
    if s.isBlank || s.isEnd then readQuoted single fuel (f.gap s) rest
    else if atDocumentEdge (s :: rest) then none
    else if single && s.char == '\'' then
      match rest with
      | t :: rest' =>
        if t.char == '\'' then readQuoted single fuel (f.push '\'') rest' else some (f.join.result, rest)
      | [] => some (f.join.result, [])
    else if !single && s.char == '"' then some (f.join.result, rest)
    else if !single && s.char == '\\' then
      match rest with
      | [] => none
      | t :: rest =>
        if t.isEnd then readQuoted single fuel f.join.skipLineEnd rest
        else
          match escapeWidth? t.char with
          | some width => do
            let c ← numbered? width rest
            readQuoted single fuel (f.push c) (rest.drop width)
          | none => do
            let c ← escape? t.char
            readQuoted single fuel (f.push c) rest
    else readQuoted single fuel (f.push s.char) rest

/-- What happens to the line ends at the end of a block: they go but for one, all
go, or all stay. -/
inductive Chomping where
  | clip
  | strip
  | keep
deriving DecidableEq

/-- The signs behind the mark of a block: a number of columns and a chomping, in
either order. -/
def readBlockSigns (here : List Spot) : Option (Nat × Chomping × List Spot) :=
  let chomping (here : List Spot) : Chomping × List Spot := match here with
    | s :: rest => if s.char == '+' then (.keep, rest) else if s.char == '-' then (.strip, rest) else (.clip, here)
    | [] => (.clip, [])
  let width (here : List Spot) : Option (Nat × List Spot) := match here with
    | s :: rest =>
      if s.char == '0' then none
      else if s.char.isDigit then some (s.char.toNat - 48, rest)
      else some (0, here)
    | [] => some (0, [])
  match chomping here with
  | (.clip, _) => do
    let (n, here) ← width here
    if n == 0 then return (0, .clip, here)
    let (chomping, here) := chomping here
    return (n, chomping, here)
  | (chomping, here) => do
    let (n, here) ← width here
    return (n, chomping, here)

/-- The line ends before the next line of a block that is not empty, last one
first; spaces are passed over up to the column `indent`, or all of them when it
is 0. The greatest column reached is found as well. -/
def readEmptyLines (indent : Nat) : Nat → Nat → List Char → List Spot → Option (Nat × List Char × List Spot)
  | 0, _, _, _ => none
  | fuel + 1, deepest, ends, here =>
    match here with
    | [] => some (deepest, ends, [])
    | s :: rest =>
      let within := indent == 0 || s.column < indent
      if s.isSpace && within then readEmptyLines indent fuel (max deepest (s.column + 1)) ends rest
      else if s.isTab && within then none
      else if s.isEnd then readEmptyLines indent fuel (max deepest s.column) (s.char :: ends) rest
      else some (max deepest s.column, ends, here)

/-- A block being read: its text, the end of the last line, and the ends of empty
lines after it; last character first. -/
structure BlockText where
  text : List Char := []
  lineEnd : Option Char := none
  emptyEnds : List Char := []
  /-- The last line started with white space. -/
  wasIndented : Bool := false

/-- Add a line. Unless the block is literal, a line end between two lines that
start without white space becomes a space, or goes if empty lines follow it. -/
def BlockText.line (b : BlockText) (literal : Bool) (chars : List Char) : BlockText :=
  let indented := chars.head?.any fun c => c == ' ' || c == '\t'
  let joined :=
    if !literal && b.lineEnd == some '\n' && !b.wasIndented && !indented then
      if b.emptyEnds.isEmpty then ' ' :: b.text else b.emptyEnds ++ b.text
    else b.emptyEnds ++ b.lineEnd.toList ++ b.text
  { text := chars.reverse ++ joined, wasIndented := indented }

/-- The text with the line ends that stay. -/
def BlockText.finish (b : BlockText) (chomping : Chomping) : String :=
  let ends := match chomping with
    | .strip => []
    | .clip => b.lineEnd.toList
    | .keep => b.emptyEnds ++ b.lineEnd.toList
  String.ofList (ends ++ b.text).reverse

/-- The lines of a block that stand at the column `indent`. -/
def readBlockLines (literal : Bool) (indent : Nat) : Nat → BlockText → List Spot → Option (BlockText × List Spot)
  | 0, _, _ => none
  | fuel + 1, b, here =>
    match here with
    | [] => some (b, [])
    | s :: _ =>
      if s.column != indent then some (b, here)
      else do
        let (chars, here) := restOfLine here
        let b := b.line literal chars
        let (lineEnd, here) := match here with
          | e :: rest => (some e.char, rest)
          | [] => (none, [])
        let (_, ends, here) ← readEmptyLines indent (here.length + 1) 0 [] here
        readBlockLines literal indent fuel { b with lineEnd := lineEnd, emptyEnds := ends } here

/-- Read a block of lines; its mark has been read. `outer` is the column of the
block around it. -/
def readBlock (literal : Bool) (outer : Int) (here : List Spot) : Option (String × List Spot) := do
  let (width, chomping, here) ← readBlockSigns here
  let here := here.dropWhile (·.isBlank)
  let here := match here with
    | s :: _ => if s.char == '#' then (restOfLine here).2 else here
    | [] => here
  guard (atLineEnd here)
  let here := here.drop 1
  let given := if width == 0 then 0 else outer.toNat + width
  let (deepest, ends, here) ← readEmptyLines given (here.length + 1) 0 [] here
  let indent := if given == 0 then max (max deepest (outer + 1).toNat) 1 else given
  let (b, here) ← readBlockLines literal indent (here.length + 1) { emptyEnds := ends } here
  return (b.finish chomping, here)

end LineCensus.Yaml
