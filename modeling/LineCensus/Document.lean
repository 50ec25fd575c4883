/-
The data of a report as a tree of records, lists and plain values. The formats
that write whole trees, JSON and YAML, both start from it.
-/
import LineCensus.Decimal.Layout
import LineCensus.Json.Basic

namespace LineCensus

/-- A tree of data. -/
inductive Document where
  | missing
  | count (n : Nat)
  | quotient (q : Binary64)
  | text (s : String)
  | list (items : List Document)
  | record (fields : List (String × Document))
deriving Inhabited

namespace Document

/-- Positional from 0.0001 up to 16 digits before the point; `.0` is kept and a
positive exponent has a sign. -/
def jsonQuotient : Decimal.Layout := ⟨some (-4, 16), true, "+", "null", "null", .even⟩

mutual

/-- The tree as a JSON value. A quotient that is not a finite number is null. -/
def toJson : Document → Json
  | .missing => .null
  | .count n => .nat n
  | .quotient q => if q.isFinite then .number (jsonQuotient.text q) else .null
  | .text s => .text s
  | .list items => .array (itemsToJson items)
  | .record fields => .object (fieldsToJson fields)

def itemsToJson : List Document → List Json
  | [] => []
  | d :: ds => d.toJson :: itemsToJson ds

def fieldsToJson : List (String × Document) → List (Option String × Json)
  | [] => []
  | (k, d) :: ds => (some k, d.toJson) :: fieldsToJson ds

end

end Document

end LineCensus
