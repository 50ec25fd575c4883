/-
What a physical line can be. Every line is exactly one of the three.
-/
namespace LineCensus

/-- The three kinds of line. -/
inductive LineKind where
  | blank
  | comment
  | code
deriving DecidableEq, Inhabited

namespace LineKind

/-- The four-letter mark of a kind in traces. -/
def mark : LineKind → String
  | .blank => "BLNK"
  | .comment => "COMM"
  | .code => "CODE"

/-- The name of a kind in data. -/
def name : LineKind → String
  | .blank => "blank"
  | .comment => "comment"
  | .code => "code"

def ofName? (s : String) : Option LineKind := [blank, comment, code].find? (·.name == s)

end LineKind

end LineCensus
