/-
Conditions that patterns put on the place between two characters.
-/
import LineCensus.Pattern.CharSet

namespace LineCensus.Pattern

/-- A condition on the place between two characters. -/
inductive Look where
  | textStart
  | textEnd
  /-- After a line feed or at the start. -/
  | lineStart
  /-- Before a line feed or at the end. -/
  | lineEnd
  /-- The same for lines that end in a carriage return, a line feed, or both. -/
  | eitherLineStart
  | eitherLineEnd
  /-- Where the sides differ in that one of them is a word character. -/
  | wordEdge (unicode : Bool)
  | noWordEdge (unicode : Bool)
  | wordStart (unicode : Bool)
  | wordEnd (unicode : Bool)
  /-- Where no word character stands before, or after. -/
  | wordStartHalf (unicode : Bool)
  | wordEndHalf (unicode : Bool)
deriving DecidableEq

/-- Whether a condition holds between the character before and the one after. -/
def Look.holds (look : Look) (before after : Option Char) : Bool :=
  let word (unicode : Bool) (c : Option Char) := c.any (CharSet.wordCharacters unicode).has
  match look with
  | .textStart => before.isNone
  | .textEnd => after.isNone
  | .lineStart => before.isNone || before == some '\n'
  | .lineEnd => after.isNone || after == some '\n'
  | .eitherLineStart => before.isNone || before == some '\n' || (before == some '\r' && after != some '\n')
  | .eitherLineEnd => after.isNone || after == some '\r' || (after == some '\n' && before != some '\r')
  | .wordEdge u => word u before != word u after
  | .noWordEdge u => word u before == word u after
  | .wordStart u => !word u before && word u after
  | .wordEnd u => word u before && !word u after
  | .wordStartHalf u => !word u before
  | .wordEndHalf u => !word u after

end LineCensus.Pattern
