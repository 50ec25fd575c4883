/-
From the text of a pattern to its expression. A pattern is refused if it breaks a
rule of the notation, is nested too deep or takes too much room.
-/
import LineCensus.Pattern.Bracket
import LineCensus.Pattern.Draft

namespace LineCensus.Pattern

namespace Read

/-- A character that stands for itself. -/
def literal (c : Char) : Read Draft := return .ofSet (← withCase (.single c))

/-- A dot: any character but those that end a line, or any character at all. -/
def anyCharacter : Read Draft := do
  let f ← flags
  unless f.unicode do failure
  return .ofSet (if f.dotMatchesAll then .any else if f.eitherLineEnd then .anyInEitherLine else .anyInLine)

/-- The condition of a caret or dollar sign. -/
def anchor (atText atLine atEitherLine : Look) : Read Draft := do
  let f ← flags
  return .ofLook (if !f.multiLine then atText else if f.eitherLineEnd then atEitherLine else atLine)

/-- A part that neither groups nor repeats. -/
def primitive : Read Draft := do
  match ← current with
  | '\\' =>
    match ← escape with
    | .literal c => literal c
    | .set s => return .ofSet s
    | .look condition => return .ofLook condition
  | '.' =>
    bump
    anyCharacter
  | '^' =>
    bump
    anchor .textStart .lineStart .eitherLineStart
  | '$' =>
    bump
    anchor .textEnd .lineEnd .eitherLineEnd
  | c =>
    bump
    literal c

/-- A number in decimal digits with blanks around it, below 2^32. -/
def decimal : Read Nat := do
  setRest (Text.trimStart (← rest))
  let digits ← takeWhile Char.isDigit
  setRest (Text.trimStart (← rest))
  skipSpace
  let value := digits.foldl (fun n c => n * 10 + (c.toNat - 48)) 0
  if digits.isEmpty || 0x100000000 ≤ value then failure
  return value

/-- Numbers of repetitions in braces: the least and the greatest. -/
def counts : Read (Nat × Option Nat) := do
  expect '{'
  skipSpace
  let least ← decimal
  let most ← if (← current) == ',' then
      bumpSpace
      if (← current) == '}' then pure none else some <$> decimal
    else pure (some least)
  expect '}'
  skipSpace
  if most.any (· < least) then failure
  return (least, most)

/-- How often the part before is repeated. A question mark after it makes no
difference to whether a text matches. -/
def repetition : Read (Nat × Option Nat) := do
  let bounds ← match ← current with
    | '{' => counts
    | c =>
      bump
      pure (if c == '?' then (0, some 1) else if c == '*' then (0, none) else (1, none))
  let _ ← accept ['?']
  return bounds

/-- The letters of flags up to a colon or parenthesis, and which of the two it is.
No letter stands twice, and something follows a minus sign. -/
def flagLetters (seen : List Char) : List Char → Option (List Char × Char × List Char)
  | [] => none
  | c :: rest =>
    if c == ':' || c == ')' then
      if seen.head? == some '-' then none else some (seen.reverse, c, rest)
    else if (c == '-' || Flags.letters.contains c) && !seen.contains c then flagLetters (c :: seen) rest
    else none

/-- The name of a group, up to an angle bracket. -/
def groupName : Read Unit := do
  let cs ← rest
  let name := cs.takeWhile (· != '>')
  let isInner := fun (c : Char) =>
    c == '_' || c == '.' || c == '[' || c == ']' || Unicode.isAlphabetic c || Unicode.isNumeric c
  let text := String.ofList name
  match name with
  | [] => failure
  | c :: inner =>
    unless (c == '_' || Unicode.isAlphabetic c) && inner.all isInner do failure
    if (← get).names.contains text then failure
    setRest (cs.drop name.length)
    expect '>'
    modify fun cursor => { cursor with names := text :: cursor.names }

/-- What the beginning of a group says. -/
inductive GroupStart where
  /-- The group only sets flags; it is over. -/
  | flagsOnly (flags : Flags)
  /-- A group follows, with these flags. -/
  | body (flags : Flags)

/-- The beginning of a group. Conditions that look at more text are refused. -/
def groupStart : Read GroupStart := do
  expect '('
  skipSpace
  let f ← flags
  for looking in ["?=", "?!", "?<=", "?<!"] do
    if looking.toList.isPrefixOf (← rest) then failure
  if (← accept "?P<".toList) || (← accept "?<".toList) then
    groupName
    return .body f
  if ← accept ['?'] then
    match flagLetters [] (← rest) with
    | none => failure
    | some (letters, stop, after) =>
      setRest after
      if stop == ':' then return .body (f.apply letters)
      if letters.isEmpty then failure
      return .flagsOnly (f.apply letters)
  return .body f

mutual

/-- A group. Flags set inside it hold to its end. -/
def group : Nat → Read Draft
  | 0 => failure
  | fuel + 1 => do
    match ← groupStart with
    | .flagsOnly flags =>
      modify ({ · with flags })
      return { expression := .empty, setsFlags := true }
    | .body flags =>
      let outer ← Read.flags
      modify ({ · with flags })
      let body ← alternatives fuel [] []
      modify ({ · with flags := outer })
      expect ')'
      return { body with depth := body.depth + 1, setsFlags := false }

/-- Alternatives up to a closing parenthesis or the end. -/
def alternatives : Nat → List Draft → List Draft → Read Draft
  | 0, _, _ => failure
  | fuel + 1, branches, parts => do
    skipSpace
    match ← peek? with
    | none | some ')' => return .ofBranches (.ofParts parts :: branches)
    | some '|' =>
      bump
      alternatives fuel (.ofParts parts :: branches) []
    | some '(' => alternatives fuel branches ((← group fuel) :: parts)
    | some '[' =>
      let s ← bracket fuel
      alternatives fuel branches ({ Draft.ofSet s.set with depth := s.depth } :: parts)
    | some c =>
      if c == '?' || c == '*' || c == '+' || c == '{' then
        match parts with
        | [] => failure
        | part :: parts =>
          if part.setsFlags then failure
          let (least, most) ← repetition
          alternatives fuel branches (part.repeated least most :: parts)
      else
        alternatives fuel branches ((← primitive) :: parts)

end

end Read

/-- How deep a pattern may be nested. -/
def depthLimit : Nat := 250

/-- How many states a pattern may take. -/
def weightLimit : Nat := 327680

end LineCensus.Pattern

namespace LineCensus

/-- A pattern: a text is matched if some part of it is. -/
structure Pattern where
  expression : Pattern.Expression

namespace Pattern

/-- The pattern a text writes, if the text is a pattern. -/
def compile? (text : String) : Option Pattern :=
  let cs := text.toList
  match (Read.alternatives (2 * cs.length + 2) [] []).run { rest := cs } with
  | some (draft, { rest := [], .. }) =>
    if draft.depth ≤ depthLimit && draft.weight ≤ weightLimit then some ⟨draft.expression⟩
    else none
  | _ => none

/-- Whether a text matches. -/
def matchesText (p : Pattern) (text : String) : Bool := p.expression.occursIn text.toList

end Pattern

end LineCensus
