/-
Cutting a YAML text into tokens.

Two things need memory beyond the place in the text. Indentation: outside
brackets, a token further in than the block it stands in may open a block, and
one further out closes blocks. Keys without a mark: a token that may turn out to
be a key is remembered until a colon follows, which must happen on the same line
within 1024 characters; the mark of the key is then put in front of it.
-/
import LineCensus.Text.Utf8
import LineCensus.Yaml.Token
import LineCensus.Yaml.Token.Scalar

namespace LineCensus.Yaml

/-- A token that may be a key: where it stands among the tokens and in the text.
One at the column of its block has to be a key. -/
structure PossibleKey where
  place : Nat
  required : Bool
  line : Nat
  column : Nat
  index : Nat

/-- A text being cut: the rest, the tokens found, the depth of brackets, the
column of the innermost block and those of the blocks around it, whether a key
may start here, and the possible key of each level of brackets, the innermost
first. -/
structure Lexer where
  rest : List Spot
  tokens : Array Token := #[]
  brackets : Nat := 0
  indent : Int := -1
  outer : List Int := []
  keyAllowed : Bool := true
  keys : List (Option PossibleKey) := [none]

namespace Lexer

def emit (l : Lexer) (t : Token) : Lexer := { l with tokens := l.tokens.push t }

def inFlow (l : Lexer) : Bool := l.brackets != 0

/-- Put a token in front of the one at `place`. -/
def insertAt (tokens : Array Token) (place : Nat) (t : Token) : Array Token :=
  tokens.insertIdxIfInBounds place t

/-- Close the blocks further in than a column. -/
def unroll (l : Lexer) (column : Int) : Lexer :=
  if l.inFlow then l
  else
    let closed := (l.indent :: l.outer).takeWhile (column < ·)
    match (l.indent :: l.outer).drop closed.length with
    | indent :: outer =>
      { l with
        indent := indent
        outer := outer
        tokens := l.tokens ++ Array.replicate closed.length Token.blockEnd }
    | [] => l

/-- Open a block at a column that is further in than the current one. -/
def roll (l : Lexer) (column : Nat) (place : Nat) (t : Token) : Lexer :=
  if l.inFlow || (column : Int) ≤ l.indent then l
  else
    { l with
      indent := column
      outer := l.indent :: l.outer
      tokens := insertAt l.tokens place t }

/-- Forget the possible key of this level, unless it has to be one. -/
def dropKey (l : Lexer) : Option Lexer :=
  match l.keys with
  | some k :: keys => if k.required then none else some { l with keys := none :: keys }
  | _ => some l

/-- Remember the token that starts at `s` as a possible key. -/
def saveKey (l : Lexer) (s : Spot) : Option Lexer :=
  if l.keyAllowed then do
    let required := !l.inFlow && l.indent == s.column
    let l ← l.dropKey
    return { l with keys := some ⟨l.tokens.size, required, s.line, s.column, s.index⟩ :: l.keys.tail }
  else some l

/-- A possible key that is too far away by now: it is forgotten, or an error if
it has to be a key. -/
def expire (s : Spot) : Option PossibleKey → Option (Option PossibleKey)
  | some k =>
    if k.line < s.line || k.index + 1024 < s.index then if k.required then none else some none
    else some (some k)
  | none => some none

/-- Pass over a mark of `width` characters and emit its token. -/
def mark (l : Lexer) (width : Nat) (t : Token) (keyAllowed : Bool) : Lexer :=
  { l.emit t with rest := l.rest.drop width, keyAllowed := keyAllowed }

/-- An opening bracket may itself start a key. -/
def open? (l : Lexer) (s : Spot) (t : Token) : Option Lexer := do
  let l ← l.saveKey s
  return { l.mark 1 t true with brackets := l.brackets + 1, keys := none :: l.keys }

def close? (l : Lexer) (t : Token) : Option Lexer := do
  let l ← l.dropKey
  let l := l.mark 1 t false
  return if l.brackets = 0 then l else { l with brackets := l.brackets - 1, keys := l.keys.tail }

def documentMark? (l : Lexer) (t : Token) : Option Lexer := do
  let l ← (l.unroll (-1)).dropKey
  return l.mark 3 t false

/-- The dash of a list. -/
def blockEntry? (l : Lexer) (s : Spot) : Option Lexer := do
  if !l.inFlow && !l.keyAllowed then none
  let l ← (l.roll s.column l.tokens.size .blockSequence).dropKey
  return l.mark 1 .blockEntry true

/-- The question mark of a key. -/
def key? (l : Lexer) (s : Spot) : Option Lexer := do
  if !l.inFlow && !l.keyAllowed then none
  let l ← (l.roll s.column l.tokens.size .blockMapping).dropKey
  return l.mark 1 .key !l.inFlow

/-- The colon of a value: it makes the possible key a key. -/
def value? (l : Lexer) (s : Spot) : Option Lexer :=
  match l.keys with
  | some k :: keys =>
    let l := { l with tokens := insertAt l.tokens k.place .key, keys := none :: keys }
    some ((l.roll k.column k.place .blockMapping).mark 1 .value false)
  | _ =>
    if !l.inFlow && !l.keyAllowed then none
    else
      let l := l.roll s.column l.tokens.size .blockMapping
      some (l.mark 1 .value !l.inFlow)

/-- The characters of names. -/
def isNameChar (c : Char) : Bool := c.isAlphanum || c == '_' || c == '-'

/-- The name at the beginning of the rest. -/
def nameAt (here : List Spot) : String × List Spot :=
  (String.ofList ((here.takeWhile (isNameChar ·.char)).map (·.char)), here.dropWhile (isNameChar ·.char))

/-- A name behind `&` or `*`. White space or one of a few marks must follow. -/
def name? (l : Lexer) (s : Spot) (t : String → Token) : Option Lexer := do
  let l ← l.saveKey s
  let (name, rest) := nameAt (l.rest.drop 1)
  guard (!name.isEmpty && (atGap rest || rest.head?.any ("?:,]\x7d%@`".toList.contains ·.char)))
  return { l.emit (t name) with rest := rest, keyAllowed := false }

/-- The characters of tags. -/
def isTagChar (verbatim : Bool) (c : Char) : Bool :=
  isNameChar c || ";/?:@&=+$.!~*'()".toList.contains c || (verbatim && ",[]".toList.contains c)

/-- The bytes that percent signs spell, and what follows them. -/
def percentBytes : Nat → List UInt8 → List Spot → Option (List UInt8 × List Spot)
  | 0, read, here => some (read, here)
  | fuel + 1, read, here =>
    match here with
    | p :: a :: b :: rest =>
      if p.char == '%' then do
        let a ← Json.hexValue? a.char
        let b ← Json.hexValue? b.char
        percentBytes fuel (UInt8.ofNat (a * 16 + b) :: read) rest
      else some (read, here)
    | p :: _ => if p.char == '%' then none else some (read, here)
    | [] => some (read, [])

/-- The characters of a tag, last one first. -/
def readTag (verbatim : Bool) : Nat → List Char → List Spot → Option (List Char × List Spot)
  | 0, _, _ => none
  | fuel + 1, read, here =>
    match here with
    | [] => some (read, [])
    | s :: rest =>
      if s.char == '%' then do
        let (bytes, rest) ← percentBytes here.length [] here
        let cs ← Text.decode? bytes.reverse
        readTag verbatim fuel (cs.reverse ++ read) rest
      else if isTagChar verbatim s.char then readTag verbatim fuel (s.char :: read) rest
      else some (read, here)

/-- A tag's characters as text. -/
def tagText (verbatim : Bool) (here : List Spot) : Option (String × List Spot) := do
  let (read, rest) ← readTag verbatim (here.length + 1) [] here
  return (String.ofList read.reverse, rest)

/-- A handle: a name between exclamation marks, or as much of that as is there. -/
def handleAt (here : List Spot) : String × List Spot :=
  let (name, rest) := nameAt (here.drop 1)
  match rest with
  | s :: rest' => if s.char == '!' then ("!" ++ name ++ "!", rest') else ("!" ++ name, rest)
  | [] => ("!" ++ name, [])

/-- A tag: verbatim between angles, with a handle, or local. -/
def tagAt (here : List Spot) : Option (Token × List Spot) :=
  match here.drop 1 with
  | s :: rest =>
    if s.char == '<' then do
      let (suffix, rest) ← tagText true rest
      guard (!suffix.isEmpty)
      match rest with
      | e :: rest => if e.char == '>' then return (.tag "" suffix, rest) else none
      | [] => none
    else tagged here
  | [] => tagged here
where
  /-- A tag that does not stand between angles. -/
  tagged (here : List Spot) : Option (Token × List Spot) := do
    let (handle, rest) := handleAt here
    let (text, rest) ← tagText false rest
    if handle.length > 1 && handle.toList.getLast? == some '!' then
      guard (!text.isEmpty)
      return (.tag handle text, rest)
    let suffix := String.ofList (handle.toList.drop 1) ++ text
    return (if suffix.isEmpty then .tag "" "!" else .tag "!" suffix, rest)

def tag? (l : Lexer) (s : Spot) : Option Lexer := do
  let l ← l.saveKey s
  let (t, rest) ← tagAt l.rest
  guard (atGap rest || (l.inFlow && rest.head?.any (·.char == ',')))
  return { l.emit t with rest := rest, keyAllowed := false }

/-- A number of at most nine digits. -/
def number? (here : List Spot) : Option (Nat × List Spot) :=
  let digits := (here.takeWhile (·.char.isDigit)).map (·.char)
  if digits.isEmpty || 9 < digits.length then none
  else some (digits.foldl (fun n c => n * 10 + (c.toNat - 48)) 0, here.drop digits.length)

def skipBlanks (here : List Spot) : List Spot := here.dropWhile (·.isBlank)

/-- What a line with a percent sign in front declares. -/
def directiveAt (here : List Spot) : Option (Token × List Spot) := do
  let (name, rest) := nameAt (here.drop 1)
  guard (!name.isEmpty && atGap rest)
  let rest := skipBlanks rest
  match name with
  | "YAML" =>
    let (major, rest) ← number? rest
    guard (rest.head?.any (·.char == '.'))
    let (minor, rest) ← number? (rest.drop 1)
    return (.version major minor, rest)
  | "TAG" =>
    guard (rest.head?.any (·.char == '!'))
    let (handle, rest) := handleAt rest
    guard (handle == "!" || handle.toList.getLast? == some '!')
    guard (rest.head?.any (·.isBlank))
    let (start, rest) ← tagText true (skipBlanks rest)
    guard (!start.isEmpty && atGap rest)
    return (.tagHandle handle start, rest)
  | _ => none

def directive? (l : Lexer) : Option Lexer := do
  let l ← (l.unroll (-1)).dropKey
  let (t, rest) ← directiveAt l.rest
  let rest := skipBlanks rest
  let rest := if rest.head?.any (·.char == '#') then (restOfLine rest).2 else rest
  guard (atLineEnd rest)
  return { l.emit t with rest := rest.drop 1, keyAllowed := false }

/-- A block of lines. -/
def block? (l : Lexer) (literal : Bool) : Option Lexer := do
  let l ← l.dropKey
  let (text, rest) ← readBlock literal l.indent (l.rest.drop 1)
  return { l.emit (.scalar (if literal then .literal else .other) text) with rest := rest, keyAllowed := true }

/-- A quoted scalar. -/
def quoted? (l : Lexer) (s : Spot) (single : Bool) : Option Lexer := do
  let l ← l.saveKey s
  let (text, rest) ← readQuoted single l.rest.length {} (l.rest.drop 1)
  return { l.emit (.scalar .other text) with rest := rest, keyAllowed := false }

/-- A plain scalar. If a line ended behind it, a key may follow. -/
def plain? (l : Lexer) (s : Spot) : Option Lexer := do
  let l ← l.saveKey s
  let (f, rest) ← readPlain l.inFlow (l.indent + 1) true {} l.rest
  return { l.emit (.scalar .plain f.result) with rest := rest, keyAllowed := f.lineEnded }

/-- Pass over white space, line ends and comments. Outside brackets a key may
start on each new line; tabs do not indent. -/
def skipToToken : Nat → Lexer → Lexer
  | 0, l => l
  | fuel + 1, l =>
    match l.rest with
    | [] => l
    | s :: rest =>
      if s.isSpace || (s.isTab && (l.inFlow || !l.keyAllowed)) || (s.index == 0 && s.char == Text.byteOrderMark) then
        skipToToken fuel { l with rest := rest }
      else if s.char == '#' then skipToToken fuel { l with rest := (restOfLine l.rest).2 }
      else if s.isEnd then skipToToken fuel { l with rest := rest, keyAllowed := l.keyAllowed || !l.inFlow }
      else l

/-- Whether a plain scalar may start here. -/
def startsPlain (l : Lexer) (s : Spot) (rest : List Spot) : Bool :=
  let gap := atGap rest
  if s.char == '-' then !rest.head?.any (·.isBlank)
  else if s.char == '?' || s.char == ':' then !l.inFlow && !gap
  else !s.isTab && !isIndicator s.char

/-- The next token, which starts at `s`. -/
def token? (l : Lexer) (s : Spot) (rest : List Spot) : Option Lexer :=
  let gap := atGap rest
  if s.column == 0 && s.char == '%' then l.directive?
  else if atDocumentMark '-' l.rest then l.documentMark? .documentStart
  else if atDocumentMark '.' l.rest then l.documentMark? .documentEnd
  else if s.char == '[' then l.open? s .flowSequence
  else if s.char == '\x7b' then l.open? s .flowMapping
  else if s.char == ']' then l.close? .flowSequenceEnd
  else if s.char == '\x7d' then l.close? .flowMappingEnd
  else if s.char == ',' then do return (← l.dropKey).mark 1 .flowEntry true
  else if s.char == '-' && gap then l.blockEntry? s
  else if s.char == '?' && (l.inFlow || gap) then l.key? s
  else if s.char == ':' && (l.inFlow || gap) then l.value? s
  else if s.char == '*' then l.name? s .alias
  else if s.char == '&' then l.name? s .anchor
  else if s.char == '!' then l.tag? s
  else if s.char == '|' && !l.inFlow then l.block? true
  else if s.char == '>' && !l.inFlow then l.block? false
  else if s.char == '\'' then l.quoted? s true
  else if s.char == '"' then l.quoted? s false
  else if l.startsPlain s rest then l.plain? s
  else none

/-- All tokens. -/
def run : Nat → Lexer → Option (Array Token)
  | 0, _ => none
  | fuel + 1, l =>
    let l := l.skipToToken (l.rest.length + 1)
    match l.rest with
    | [] => do
      let l ← (l.unroll (-1)).dropKey
      return (l.emit .textEnd).tokens
    | s :: rest => do
      let keys ← l.keys.mapM (expire s)
      let l ← ({ l with keys := keys }.unroll s.column).token? s rest
      run fuel l

end Lexer

/-- The tokens of a text. -/
def Token.ofText? (s : String) : Option (List Token) := do
  let spots ← spots? s
  let tokens ← ({ rest := spots : Lexer }.run (spots.length + 2))
  return tokens.toList

end LineCensus.Yaml
