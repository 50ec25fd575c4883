/-
A physical line made ready for classification: tabs become spaces, and a byte
order mark goes from the first line of a text.
-/
import LineCensus.Text.Blank
import LineCensus.Text.Utf8

namespace LineCensus

/-- A line with its tabs expanded. -/
structure Line where
  expanded : List Char

namespace Line

/-- The line without a byte order mark in front. -/
def dropMark : List Char → List Char
  | c :: cs => if c = Text.byteOrderMark then cs else c :: cs
  | [] => []

/-- Each tab stands for four spaces, wherever it is. -/
def expandTabs (cs : List Char) : List Char :=
  cs.flatMap fun c => if c = '\t' then [' ', ' ', ' ', ' '] else [c]

/-- The line made ready; `first` says that it is the first one of its text. -/
def ofRaw (first : Bool) (raw : List Char) : Line :=
  ⟨expandTabs (if first then dropMark raw else raw)⟩

/-- What is left without white space around it. -/
def trimmed (l : Line) : List Char := Text.trim l.expanded

/-- The line's bytes less a quarter of the bytes between its white space. -/
def indentMeasure (l : Line) : Int :=
  (Text.byteLength l.expanded : Int) - (Text.byteLength l.trimmed / 4 : Nat)

end Line

end LineCensus
