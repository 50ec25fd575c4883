/-
The text of a pattern while it is read, with the flags in force. White space and
comments are passed over where the flags say so.
-/
import LineCensus.Text.Blank

namespace LineCensus.Pattern

/-- What flags change in the meaning of a pattern. -/
structure Flags where
  ignoreCase : Bool := false
  multiLine : Bool := false
  dotMatchesAll : Bool := false
  swapGreed : Bool := false
  unicode : Bool := true
  eitherLineEnd : Bool := false
  ignoreSpace : Bool := false

namespace Flags

/-- The letters of the flags. -/
def letters : List Char := ['i', 'm', 's', 'U', 'u', 'R', 'x']

/-- Set or clear the flag of a letter. -/
def put (f : Flags) (letter : Char) (on : Bool) : Flags :=
  match letter with
  | 'i' => { f with ignoreCase := on }
  | 'm' => { f with multiLine := on }
  | 's' => { f with dotMatchesAll := on }
  | 'U' => { f with swapGreed := on }
  | 'u' => { f with unicode := on }
  | 'R' => { f with eitherLineEnd := on }
  | 'x' => { f with ignoreSpace := on }
  | _ => f

/-- Set the flags of the letters before a minus sign and clear those after it. -/
def apply (f : Flags) (letters : List Char) : Flags :=
  let f := (letters.takeWhile (· != '-')).foldl (put · · true) f
  ((letters.dropWhile (· != '-')).drop 1).foldl (put · · false) f

end Flags

/-- The rest of a pattern, the flags in force, and the names of groups so far. -/
structure Cursor where
  rest : List Char
  flags : Flags := {}
  names : List String := []

/-- A reader of a part of a pattern. -/
abbrev Read := StateT Cursor Option

namespace Read

/-- The text without white space and comments in front. A comment goes from a
number sign to the end of its line. -/
def skipBlank (inComment : Bool) : List Char → List Char
  | [] => []
  | c :: cs =>
    if inComment then skipBlank (c != '\n') cs
    else if Text.isBlank c then skipBlank false cs
    else if c == '#' then skipBlank true cs
    else c :: cs

def rest : Read (List Char) := return (← get).rest

def flags : Read Flags := return (← get).flags

/-- The next character. -/
def peek? : Read (Option Char) := return (← rest).head?

def setRest (cs : List Char) : Read Unit := modify ({ · with rest := cs })

/-- Pass over one character. -/
def bump : Read Unit := do setRest (← rest).tail

/-- Pass over what the flags say does not count. -/
def skipSpace : Read Unit := do
  if (← flags).ignoreSpace then setRest (skipBlank false (← rest))

/-- Pass over one character and what does not count after it. -/
def bumpSpace : Read Unit := do
  bump
  skipSpace

/-- The next character; the pattern must not end here. -/
def current : Read Char := do
  match ← peek? with
  | some c => return c
  | none => failure

/-- Pass over a character that must come next. -/
def expect (c : Char) : Read Unit := do
  unless (← peek?) == some c do failure
  bump

/-- Pass over a text if it comes next. -/
def accept (text : List Char) : Read Bool := do
  let cs ← rest
  if text.isPrefixOf cs then
    setRest (cs.drop text.length)
    return true
  return false

/-- The first character of a comment or any other that is not white space; a
number sign in front begins a comment. -/
def afterBlank (inComment : Bool) : List Char → Option Char
  | [] => none
  | c :: cs =>
    if Text.isBlank c then afterBlank inComment cs
    else if c == '#' && !inComment then afterBlank true cs
    else some c

/-- The character after the next one, when blanks between the two may not count. -/
def peekSecondSpaced? : Read (Option Char) := do
  let cs := (← rest).tail
  if (← flags).ignoreSpace then return (afterBlank false cs).or cs.head?
  return cs.head?

/-- The characters that fulfil a condition. Blanks that do not count are passed
over after each of them. -/
def takeWhile (holds : Char → Bool) : Read (List Char) := do
  loop (← rest).length
where
  loop : Nat → Read (List Char)
    | 0 => return []
    | fuel + 1 => do
      match ← peek? with
      | some c =>
        if holds c then
          bumpSpace
          return c :: (← loop fuel)
        return []
      | none => return []

end Read

end LineCensus.Pattern
