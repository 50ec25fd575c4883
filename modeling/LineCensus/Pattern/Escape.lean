/-
What a backslash introduces in a pattern: characters, sets of characters,
conditions.
-/
import LineCensus.Json.Reader
import LineCensus.Pattern.Cursor
import LineCensus.Pattern.Look

namespace LineCensus.Pattern

/-- A part of a pattern that is not composed. -/
inductive Atom where
  | literal (c : Char)
  | set (s : CharSet)
  | look (condition : Look)

namespace Read

/-- Characters with a meaning of their own outside or inside brackets. -/
def metaCharacters : List Char := "\\.+*?()|[]{}^$#&-~".toList

/-- Characters that stand for themselves after a backslash: those with a meaning of
their own, and all other ASCII ones but letters, digits and angle brackets. -/
def isEscapable (c : Char) : Bool :=
  metaCharacters.contains c || (c.val < 0x80 && !c.isAlphanum && c != '<' && c != '>')

/-- The character with a number written in hexadecimal digits. -/
def scalar (digits : List Char) : Read Char := do
  let value := digits.foldl (fun n c => n * 16 + (Json.hexValue? c).getD 0) 0
  if h : value.isValidChar then return Char.ofNatAux value h else failure

/-- A fixed number of hexadecimal digits. -/
def hexDigits : Nat → Read (List Char)
  | 0 => return []
  | n + 1 => do
    let c ← current
    unless (Json.hexValue? c).isSome do failure
    bumpSpace
    return c :: (← hexDigits n)

/-- The number of a character, in braces or with as many digits as its letter asks
for. Two digits stand for a byte when the pattern is not about characters, and then
they must be ASCII. -/
def hexCharacter (letter : Char) : Read Char := do
  bumpSpace
  if (← current) == '{' then
    bumpSpace
    let digits ← takeWhile fun c => (Json.hexValue? c).isSome
    unless (← current) == '}' && !digits.isEmpty do failure
    bumpSpace
    scalar digits
  else
    let c ← scalar (← hexDigits (match letter with | 'x' => 2 | 'u' => 4 | _ => 8))
    if letter == 'x' && !(← flags).unicode && 0x80 ≤ c.val then failure
    return c

/-- A set or, as its letter may say, its complement, which only patterns about
characters have. -/
def signed (negated : Bool) (s : CharSet) : Read CharSet := do
  if !negated then return s
  unless (← flags).unicode do failure
  return s.compl

/-- A set with the case variants that count. -/
def withCase (s : CharSet) : Read CharSet := do
  let f ← flags
  if !f.ignoreCase then return s
  return if f.unicode then s.closeCase else s.closeAsciiCase

/-- Cut a text at the first place where another stands. -/
def cutAt? (mark : List Char) : List Char → Option (List Char × List Char)
  | [] => none
  | c :: cs =>
    if mark.isPrefixOf (c :: cs) then some ([], (c :: cs).drop mark.length)
    else (cutAt? mark cs).map fun (a, b) => (c :: a, b)

/-- The set a property stands for: named alone or with its value. -/
def propertySet (name : List Char) : Option CharSet :=
  match (cutAt? ['!', '='] name).or ((cutAt? [':'] name).or (cutAt? ['='] name)) with
  | some (name, value) => CharSet.valued? (String.ofList name) (String.ofList value)
  | none => CharSet.named? (String.ofList name)

/-- A property: one letter, or a name in braces. -/
def property (negated : Bool) : Read CharSet := do
  bumpSpace
  let c ← current
  let name ← if c == '{' then
      bumpSpace
      let name ← takeWhile (· != '}')
      expect '}'
      pure name
    else if c == '\\' then failure
    else
      bumpSpace
      pure [c]
  unless (← flags).unicode do failure
  match propertySet name with
  | some s => signed negated (← withCase s)
  | none => failure

/-- The condition that braces after `\b` name, if they name one: else they count
repetitions. -/
def namedEdge? : Read (Option Look) := do
  let isNameCharacter := fun (c : Char) => c.isAlpha || c == '-'
  let start ← get
  bumpSpace
  if !isNameCharacter (← current) then
    set start
    return none
  let name ← takeWhile isNameCharacter
  expect '}'
  let unicode := (← flags).unicode
  match String.ofList name with
  | "start" => return some (.wordStart unicode)
  | "end" => return some (.wordEnd unicode)
  | "start-half" => return some (.wordStartHalf unicode)
  | "end-half" => return some (.wordEndHalf unicode)
  | _ => failure

/-- What comes from a backslash on. -/
def escape : Read Atom := do
  expect '\\'
  let c ← current
  let unicode := (← flags).unicode
  match c with
  | 'x' | 'u' | 'U' => return .literal (← hexCharacter c)
  | 'p' | 'P' => return .set (← property (c == 'P'))
  | _ =>
    bump
    match c with
    | 'd' | 'D' => return .set (← signed (c == 'D') (.digits unicode))
    | 's' | 'S' => return .set (← signed (c == 'S') (.spaces unicode))
    | 'w' | 'W' => return .set (← signed (c == 'W') (.wordCharacters unicode))
    | 'a' => return .literal '\x07'
    | 'f' => return .literal '\x0C'
    | 't' => return .literal '\t'
    | 'n' => return .literal '\n'
    | 'r' => return .literal '\r'
    | 'v' => return .literal '\x0B'
    | 'A' => return .look .textStart
    | 'z' => return .look .textEnd
    | 'B' => return .look (.noWordEdge unicode)
    | '<' => return .look (.wordStart unicode)
    | '>' => return .look (.wordEnd unicode)
    | 'b' =>
      if (← peek?) == some '{' then return .look ((← namedEdge?).getD (.wordEdge unicode))
      return .look (.wordEdge unicode)
    | c => if isEscapable c then return .literal c else failure

end Read

end LineCensus.Pattern
