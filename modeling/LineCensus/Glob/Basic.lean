/-
Globs: patterns for paths in which stars and question marks stand for parts of
names, and double stars for any number of directories. A glob is matched byte by
byte against a whole path.
-/
import LineCensus.Path
import LineCensus.Regular.Expression

namespace LineCensus

/-- A regular expression over the bytes of a path. -/
abbrev PathExpression := Regular.Expression UInt8

namespace Glob

/-- A part of a glob. -/
inductive Token where
  | literal (c : Char)
  /-- One byte of a name. -/
  | any
  /-- Any bytes of a name. -/
  | star
  /-- Double stars at the beginning, at the end, and in the middle. -/
  | deepStart
  | deepEnd
  | deepMiddle
  /-- One of the characters in these ranges, or one that is in none of them. -/
  | oneOf (negated : Bool) (ranges : List (Char × Char))
  /-- One of several globs; nothing at all if they are all empty. -/
  | choice (alternatives : List PathExpression)

/-- A byte within a name. -/
def nameByte : PathExpression := .one (· != Path.slash)

def slash : PathExpression := .one (· == Path.slash)

/-- Any bytes. -/
def anything : PathExpression := .star (.one fun _ => true)

/-- Whether a byte belongs to a range of characters. Ranges are ranges of bytes: of
characters with several bytes, the last one of the lower and the first one of the
higher character bound the range, and the others are members. -/
def inRange (range : Char × Char) (b : UInt8) : Bool :=
  let low := String.utf8EncodeChar range.1
  let high := String.utf8EncodeChar range.2
  if range.1 = range.2 then low.contains b
  else low.dropLast.contains b || high.tail.contains b
    || (low.getLast?.any (· ≤ b) && high.head?.any (b ≤ ·))

namespace Token

/-- What a part of a glob matches. -/
def expression : Token → PathExpression
  | .literal c => .sequence ((String.utf8EncodeChar c).map fun b => .one (· == b))
  | .any => nameByte
  | .star => .star nameByte
  | .deepStart => .either (.optional slash) (.both anything slash)
  | .deepEnd => .both slash anything
  | .deepMiddle => .either slash (.both slash (.both anything slash))
  | .oneOf negated ranges => .one fun b => ranges.any (inRange · b) != negated
  | .choice [] => .empty
  | .choice (e :: es) => es.foldl .either e

/-- Whether a part stands for nothing. -/
def isEmpty : Token → Bool
  | .choice [] => true
  | _ => false

end Token

/-- What a sequence of parts matches. Double stars alone match every path. -/
def expressionOf (tokens : List Token) : PathExpression :=
  match tokens with
  | [.deepStart] => anything
  | tokens => .sequence (tokens.map (·.expression))

end Glob

/-- A glob. -/
structure Glob where
  expression : PathExpression

namespace Glob

def ofTokens (tokens : List Token) : Glob := ⟨expressionOf tokens⟩

/-- Whether a glob matches a path. -/
def matchesPath (g : Glob) (path : List UInt8) : Bool := g.expression.covers path

end Glob

end LineCensus
