/-
JSON values as they stand in a text: members in their order, repeated names
kept, numbers as spelled. What a reader of a typed value makes of them is its own
affair.
-/
namespace LineCensus

/-- A JSON value. A string's content is absent when the text spells half a
surrogate pair, which is well-formed JSON but no string of characters; the same
goes for the names of members. -/
inductive Json where
  | null
  | bool (b : Bool)
  | number (spelling : String)
  | string (content : Option String)
  | array (items : List Json)
  | object (members : List (Option String × Json))
deriving Inhabited

namespace Json

/-- A string value. -/
def text (s : String) : Json := .string (some s)

/-- A whole number. -/
def nat (n : Nat) : Json := .number (toString n)

/-- An object with these members. -/
def record (members : List (String × Json)) : Json := .object (members.map fun (k, v) => (some k, v))

/-- A list of strings. -/
def texts (ss : List String) : Json := .array (ss.map text)

/-- A value that may be missing. -/
def optional (f : α → Json) : Option α → Json
  | none => .null
  | some a => f a

end Json

end LineCensus
