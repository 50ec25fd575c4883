/-
JSON values as text: on one line without spaces, or with one member to a line
and two spaces for each level.
-/
import LineCensus.Json.Basic
import LineCensus.Text.Pad

namespace LineCensus.Json

/-- A hexadecimal digit. -/
def hexDigit (n : Nat) : Char := Char.ofNat (if n < 10 then 48 + n else 87 + n)

/-- A character as it stands between quotes. Only the quote, the backslash and
the characters below U+0020 are escaped. -/
def escapeChar (c : Char) : List Char :=
  match c with
  | '"' => ['\\', '"']
  | '\\' => ['\\', '\\']
  | '\n' => ['\\', 'n']
  | '\r' => ['\\', 'r']
  | '\t' => ['\\', 't']
  | c =>
    if c.val = 8 then ['\\', 'b']
    else if c.val = 12 then ['\\', 'f']
    else if c.val < 0x20 then
      ['\\', 'u', '0', '0', hexDigit (c.val.toNat / 16), hexDigit (c.val.toNat % 16)]
    else [c]

/-- A string between quotes. -/
def quote (s : String) : String := "\"" ++ String.ofList (s.toList.flatMap escapeChar) ++ "\""

/-- A name or content; one that is no text is written as the empty string. -/
def quote? (s : Option String) : String := quote (s.getD "")

mutual

/-- The value on one line. -/
def compact : Json → String
  | .null => "null"
  | .bool b => toString b
  | .number spelling => spelling
  | .string s => quote? s
  | .array items => "[" ++ ",".intercalate (compactItems items) ++ "]"
  | .object members => "\x7b" ++ ",".intercalate (compactMembers members) ++ "\x7d"

/-- The items of an array, each on one line. -/
def compactItems : List Json → List String
  | [] => []
  | v :: vs => v.compact :: compactItems vs

/-- The members of an object, each on one line. -/
def compactMembers : List (Option String × Json) → List String
  | [] => []
  | (k, v) :: ms => (quote? k ++ ":" ++ v.compact) :: compactMembers ms

end

/-- Pieces between brackets, each on its own line, two spaces further in than the brackets. -/
def bracketed (level : Nat) (opening closing : String) (pieces : List String) : String :=
  if pieces.isEmpty then opening ++ closing
  else
    let margin := "\n" ++ Text.fill (2 * level) ' '
    opening ++ margin ++ "  " ++ ("," ++ margin ++ "  ").intercalate pieces ++ margin ++ closing

mutual

/-- The value over several lines; `level` is the depth it stands at. -/
def prettyAt (level : Nat) : Json → String
  | .array items => bracketed level "[" "]" (prettyItems (level + 1) items)
  | .object members => bracketed level "\x7b" "\x7d" (prettyMembers (level + 1) members)
  | v => v.compact

/-- The items of an array over several lines. -/
def prettyItems (level : Nat) : List Json → List String
  | [] => []
  | v :: vs => v.prettyAt level :: prettyItems level vs

/-- The members of an object over several lines. -/
def prettyMembers (level : Nat) : List (Option String × Json) → List String
  | [] => []
  | (k, v) :: ms => (quote? k ++ ": " ++ v.prettyAt level) :: prettyMembers level ms

end

/-- The value over several lines. -/
def pretty (v : Json) : String := v.prettyAt 0

end LineCensus.Json
