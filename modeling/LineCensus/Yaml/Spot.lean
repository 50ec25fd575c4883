/-
YAML text as a list of placed characters. Each character knows its line and
column, so that reading is plain recursion on a list.

The three ways of ending a line that stand for a line feed are made one before
anything is placed; the two Unicode separators end lines too, but keep their
character.
-/
import LineCensus.Yaml.Writer

namespace LineCensus.Yaml

/-- A character and its place. -/
structure Spot where
  char : Char
  line : Nat
  column : Nat
  index : Nat

/-- The characters that a text may hold at all. -/
def isAllowed (c : Char) : Bool :=
  let n := c.val
  n == 9 || n == 10 || n == 13 || (0x20 ≤ n && n ≤ 0x7E) || n == 0x85 || (0xA0 ≤ n && n ≤ 0xFFFD)
    || 0x10000 ≤ n

/-- Whether a character ends a line, once line ends are unified. -/
def isLineEnd (c : Char) : Bool := c == '\n' || c.val == 0x2028 || c.val == 0x2029

/-- A carriage return, with a line feed behind it or alone, and a next-line
character become a line feed. The characters come last one first. -/
def unifyLineEnds (read : List Char) : List Char → List Char
  | [] => read
  | '\r' :: '\n' :: rest => unifyLineEnds ('\n' :: read) rest
  | c :: rest => unifyLineEnds ((if c == '\r' || c.val == 0x85 then '\n' else c) :: read) rest

/-- The place of the next character, and the characters placed, the last one first. -/
structure Placing where
  line : Nat := 0
  column : Nat := 0
  index : Nat := 0
  placed : List Spot := []

/-- Place one more character. -/
def Placing.push (p : Placing) (c : Char) : Placing :=
  let placed := ⟨c, p.line, p.column, p.index⟩ :: p.placed
  if isLineEnd c then ⟨p.line + 1, 0, p.index + 1, placed⟩
  else ⟨p.line, p.column + 1, p.index + 1, placed⟩

/-- The placed characters of a text, if all of them are allowed. -/
def spots? (s : String) : Option (List Spot) :=
  let cs := s.toList
  if cs.all isAllowed then
    some ((unifyLineEnds [] cs).reverse.foldl Placing.push {}).placed.reverse
  else none

namespace Spot

def isSpace (s : Spot) : Bool := s.char == ' '
def isTab (s : Spot) : Bool := s.char == '\t'
def isBlank (s : Spot) : Bool := s.isSpace || s.isTab
def isEnd (s : Spot) : Bool := isLineEnd s.char

end Spot

/-- Whether the text ends here, or goes on with white space. -/
def atGap : List Spot → Bool
  | [] => true
  | s :: _ => s.isBlank || s.isEnd

/-- Whether the line ends here. -/
def atLineEnd : List Spot → Bool
  | [] => true
  | s :: _ => s.isEnd

/-- Whether three of the same mark stand at the beginning of a line, with white
space behind them. -/
def atDocumentMark (mark : Char) : List Spot → Bool
  | a :: b :: c :: rest =>
    a.column == 0 && a.char == mark && b.char == mark && c.char == mark && atGap rest
  | _ => false

/-- Whether a document starts or ends here. -/
def atDocumentEdge (here : List Spot) : Bool := atDocumentMark '-' here || atDocumentMark '.' here

/-- The characters from here to the end of the line, and the rest. -/
def restOfLine (here : List Spot) : List Char × List Spot :=
  ((here.takeWhile (!·.isEnd)).map (·.char), here.dropWhile (!·.isEnd))

end LineCensus.Yaml
