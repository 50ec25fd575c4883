/-
Reading JSON text. The grammar is the strict one: no comments, no commas too
many, no zeros in front of a number, no control characters in strings, and
nothing but white space after the value.

Nesting is unbounded here; a bound belongs to the reader of a typed value. The
recursion is bounded by the length of the text, since every value takes at least
one character.
-/
import LineCensus.Json.Basic

namespace LineCensus.Json

/-- The white space between tokens. -/
def isSpace (c : Char) : Bool := c == ' ' || c == '\n' || c == '\t' || c == '\r'

def skipSpace (cs : List Char) : List Char := cs.dropWhile isSpace

/-- The value of a hexadecimal digit. -/
def hexValue? (c : Char) : Option Nat :=
  if c.isDigit then some (c.toNat - 48)
  else if 'a' ≤ c && c ≤ 'f' then some (c.toNat - 87)
  else if 'A' ≤ c && c ≤ 'F' then some (c.toNat - 55)
  else none

/-- The number that four hexadecimal digits write. -/
def hexQuad? (a b c d : Char) : Option Nat := do
  let a ← hexValue? a
  let b ← hexValue? b
  let c ← hexValue? c
  let d ← hexValue? d
  return ((a * 16 + b) * 16 + c) * 16 + d

/-- The character that a letter stands for after a backslash. -/
def escaped? (letter : Char) : Option Char :=
  match letter with
  | '"' | '\\' | '/' => some letter
  | 'b' => some (Char.ofNat 8)
  | 'f' => some (Char.ofNat 12)
  | 'n' => some '\n'
  | 'r' => some '\r'
  | 't' => some '\t'
  | _ => none

/-- A unit of a string's spelling: a character, or a UTF-16 unit given by number. -/
inductive Piece where
  | char (c : Char)
  | unit (n : Nat)

/-- The pieces up to the closing quote, the last one first, and what follows it. -/
def readPieces (read : List Piece) : List Char → Option (List Piece × List Char)
  | [] => none
  | '"' :: rest => some (read, rest)
  | '\\' :: 'u' :: a :: b :: c :: d :: rest =>
    match hexQuad? a b c d with
    | some n => readPieces (.unit n :: read) rest
    | none => none
  | '\\' :: letter :: rest =>
    match escaped? letter with
    | some c => readPieces (.char c :: read) rest
    | none => none
  | c :: rest => if c == '\\' || c.val < 0x20 then none else readPieces (.char c :: read) rest

def isHighHalf (n : Nat) : Bool := 0xD800 ≤ n && n < 0xDC00
def isLowHalf (n : Nat) : Bool := 0xDC00 ≤ n && n < 0xE000

/-- The characters of the pieces, the last one first; none if half a pair stands alone. -/
def joinPieces (read : List Char) : List Piece → Option (List Char)
  | [] => some read
  | .char c :: ps => joinPieces (c :: read) ps
  | .unit a :: .unit b :: ps =>
    if isHighHalf a then
      if isLowHalf b then
        joinPieces (Char.ofNat (0x10000 + (a - 0xD800) * 1024 + (b - 0xDC00)) :: read) ps
      else none
    else if isLowHalf a then none
    else joinPieces (Char.ofNat a :: read) (.unit b :: ps)
  | .unit a :: ps =>
    if isHighHalf a || isLowHalf a then none else joinPieces (Char.ofNat a :: read) ps

/-- The content of a string, and what follows it; the opening quote has been read. -/
def readString (cs : List Char) : Option (Option String × List Char) := do
  let (pieces, rest) ← readPieces [] cs
  return ((joinPieces [] pieces.reverse).map fun read => String.ofList read.reverse, rest)

/-- One or more digits. -/
def digits? (cs : List Char) : Option (List Char × List Char) :=
  let ds := cs.takeWhile Char.isDigit
  if ds.isEmpty then none else some (ds, cs.dropWhile Char.isDigit)

/-- A fraction, if one follows. -/
def fraction? : List Char → Option (List Char × List Char)
  | '.' :: rest => do
    let (ds, rest) ← digits? rest
    return ('.' :: ds, rest)
  | cs => some ([], cs)

/-- The sign of an exponent. -/
def takeSign : List Char → List Char × List Char
  | '+' :: rest => (['+'], rest)
  | '-' :: rest => (['-'], rest)
  | cs => ([], cs)

/-- An exponent, if one follows. -/
def exponent? : List Char → Option (List Char × List Char)
  | c :: rest =>
    if c == 'e' || c == 'E' then do
      let (sign, rest) := takeSign rest
      let (ds, rest) ← digits? rest
      return (c :: sign ++ ds, rest)
    else some ([], c :: rest)
  | [] => some ([], [])

/-- A whole part: a zero alone, or digits that do not start with one. -/
def whole? (cs : List Char) : Option (List Char × List Char) := do
  let (ds, rest) ← digits? cs
  if ds.head? == some '0' && ds.length != 1 then none else return (ds, rest)

/-- A number and what follows it. -/
def readNumber (cs : List Char) : Option (String × List Char) := do
  let (sign, cs) := match cs with
    | '-' :: rest => (['-'], rest)
    | _ => ([], cs)
  let (ds, cs) ← whole? cs
  let (fs, cs) ← fraction? cs
  let (es, cs) ← exponent? cs
  return (String.ofList (sign ++ ds ++ fs ++ es), cs)

/-- The rest of the text after a word that must come next. -/
def afterWord? (word : String) (cs : List Char) : Option (List Char) :=
  if word.toList.isPrefixOf cs then some (cs.drop word.length) else none

mutual

/-- A value and what follows it. -/
def readValue : Nat → List Char → Option (Json × List Char)
  | 0, _ => none
  | fuel + 1, cs =>
    match skipSpace cs with
    | 'n' :: rest => (afterWord? "ull" rest).map (.null, ·)
    | 't' :: rest => (afterWord? "rue" rest).map (.bool true, ·)
    | 'f' :: rest => (afterWord? "alse" rest).map (.bool false, ·)
    | '"' :: rest => (readString rest).map fun (s, rest) => (.string s, rest)
    | '[' :: rest =>
      match skipSpace rest with
      | ']' :: rest => some (.array [], rest)
      | rest => readItems fuel [] rest
    | '\x7b' :: rest =>
      match skipSpace rest with
      | '\x7d' :: rest => some (.object [], rest)
      | rest => readMembers fuel [] rest
    | rest => (readNumber rest).map fun (n, rest) => (.number n, rest)

/-- The items of an array from the next one on. -/
def readItems : Nat → List Json → List Char → Option (Json × List Char)
  | 0, _, _ => none
  | fuel + 1, read, cs => do
    let (v, rest) ← readValue fuel cs
    match skipSpace rest with
    | ',' :: rest => readItems fuel (v :: read) rest
    | ']' :: rest => return (.array (v :: read).reverse, rest)
    | _ => none

/-- The members of an object from the next one on. -/
def readMembers : Nat → List (Option String × Json) → List Char → Option (Json × List Char)
  | 0, _, _ => none
  | fuel + 1, read, cs =>
    match skipSpace cs with
    | '"' :: rest => do
      let (k, rest) ← readString rest
      match skipSpace rest with
      | ':' :: rest =>
        let (v, rest) ← readValue fuel rest
        match skipSpace rest with
        | ',' :: rest => readMembers fuel ((k, v) :: read) rest
        | '\x7d' :: rest => return (.object ((k, v) :: read).reverse, rest)
        | _ => none
      | _ => none
    | _ => none

end

/-- The value that the whole text spells. -/
def parse? (s : String) : Option Json := do
  let cs := s.toList
  let (v, rest) ← readValue (cs.length + 1) cs
  if (skipSpace rest).isEmpty then return v else none

end LineCensus.Json
