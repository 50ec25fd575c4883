/-
Sets of characters as patterns name them: ranges, properties of the Unicode
standard, and what can be built of them. A set knows its members and how much
room it takes in a compiled pattern.
-/
import LineCensus.Unicode.Folding
import LineCensus.Unicode.Named

namespace LineCensus.Pattern

/-- A set of characters. -/
structure CharSet where
  has : Char → Bool
  /-- An estimate of the states the set compiles to. -/
  weight : Nat := 1
  /-- Whether all members are ASCII characters. -/
  isAscii : Bool := true

namespace CharSet

def empty : CharSet := { has := fun _ => false }

def single (c : Char) : CharSet := { has := (· == c), weight := c.utf8Size, isAscii := c.val < 0x80 }

/-- The characters from `low` to `high`. -/
def range (low high : Char) : CharSet :=
  { has := fun c => low.val ≤ c.val && c.val ≤ high.val
    weight := if high.val < 0x80 then 1 else high.utf8Size * 3
    isAscii := high.val < 0x80 }

/-- The characters with a property, of which there are few or many runs. -/
def property (holds : Char → Bool) (weight : Nat) : CharSet := { has := holds, weight, isAscii := false }

/-- The ASCII characters with a property. -/
def ascii (holds : Char → Bool) : CharSet := { has := fun c => c.val < 0x80 && holds c }

def union (s t : CharSet) : CharSet :=
  { has := fun c => s.has c || t.has c
    weight := if s.isAscii && t.isAscii then 1 else s.weight + t.weight
    isAscii := s.isAscii && t.isAscii }

def inter (s t : CharSet) : CharSet :=
  { has := fun c => s.has c && t.has c
    weight := min s.weight t.weight
    isAscii := s.isAscii || t.isAscii }

/-- The members of `s` that are not in `t`. -/
def diff (s t : CharSet) : CharSet :=
  { has := fun c => s.has c && !t.has c
    weight := if s.isAscii then 1 else s.weight + t.weight
    isAscii := s.isAscii }

/-- What is in one of the sets only. -/
def symmDiff (s t : CharSet) : CharSet := (s.union t).diff (s.inter t)

/-- The characters outside the set. -/
def compl (s : CharSet) : CharSet :=
  { has := fun c => !s.has c, weight := s.weight + 12, isAscii := false }

/-- The set with all case variants of its members. -/
def closeCase (s : CharSet) : CharSet :=
  { s with
    has := fun c => s.has c || (Unicode.variants c).any s.has
    isAscii := s.isAscii && ['k', 'K', 's', 'S'].all (!s.has ·) }

/-- The set with the case variants of its ASCII members that are ASCII themselves. -/
def closeAsciiCase (s : CharSet) : CharSet :=
  { s with has := fun c => s.has c || (c.val < 0x80 && (s.has c.toLower || s.has c.toUpper)) }

/-- Every character, and every one that does not end a line. -/
def any : CharSet := { has := fun _ => true, weight := 13, isAscii := false }
def anyInLine : CharSet := (single '\n').compl
def anyInEitherLine : CharSet := ((single '\n').union (single '\r')).compl

/-- Digits, white space and word characters, of all scripts or ASCII ones only. -/
def digits (unicode : Bool) : CharSet :=
  if unicode then property Unicode.isDigit 150 else ascii Char.isDigit
def spaces (unicode : Bool) : CharSet :=
  if unicode then property Text.isBlank 15 else ascii Text.isBlank
def wordCharacters (unicode : Bool) : CharSet :=
  if unicode then property Unicode.isWord 1500 else ascii fun c => c.isAlphanum || c == '_'

/-- The set a bracketed name stands for. -/
def posix? (name : String) : Option CharSet :=
  match name with
  | "alnum" => some (ascii Char.isAlphanum)
  | "alpha" => some (ascii Char.isAlpha)
  | "ascii" => some (ascii fun _ => true)
  | "blank" => some (ascii fun c => c == ' ' || c == '\t')
  | "cntrl" => some (ascii fun c => c.val < 0x20 || c.val == 0x7F)
  | "digit" => some (digits false)
  | "graph" => some (ascii fun c => 0x21 ≤ c.val && c.val ≤ 0x7E)
  | "lower" => some (ascii Char.isLower)
  | "print" => some (ascii fun c => 0x20 ≤ c.val && c.val ≤ 0x7E)
  | "punct" => some (ascii fun c => 0x21 ≤ c.val && c.val ≤ 0x7E && !c.isAlphanum)
  | "space" => some (spaces false)
  | "upper" => some (ascii Char.isUpper)
  | "word" => some (wordCharacters false)
  | "xdigit" => some (ascii Unicode.isHexDigit)
  | _ => none

/-- A name as properties are looked up: without an `is` in front, without spaces,
underscores and hyphens, in small letters. The name `isc` is no property `c`. -/
def plainName (name : String) : String :=
  let cs := name.toList
  let (isPrefixed, cs) := match cs with
    | i :: s :: rest => if i.toLower == 'i' && s.toLower == 's' then (true, rest) else (false, cs)
    | _ => (false, cs)
  let plain := (cs.filter fun c => c.val < 0x80 && c != ' ' && c != '_' && c != '-').map Char.toLower
  if isPrefixed && plain == ['c'] then "isc" else String.ofList plain

/-- The set of the characters of a general category or of a group of them. -/
def category? (name : String) : Option CharSet :=
  match name with
  | "any" => some any
  | "assigned" => some (property (fun c => Unicode.Category.of c != .cn) 1500)
  | "ascii" => some (ascii fun _ => true)
  | name => (Unicode.Category.named? name).map fun cs => property (fun c => cs.contains (Unicode.Category.of c)) 800

/-- The set of the characters of a script. -/
def script? (name : String) : Option CharSet :=
  (Unicode.Script.named? name).map fun letter => property (fun c => Unicode.Script.of c == letter) 60

/-- The set a property's name stands for: a property of its own, a category or a
script. Three short names are those of categories and scripts only. -/
def named? (name : String) : Option CharSet :=
  let name := plainName name
  let own := if ["cf", "sc", "lc"].contains name then none else Unicode.property? name
  (own.map (property · 800)).or ((category? name).or (script? name))

/-- The set of the characters for which a property has a value. -/
def valued? (name value : String) : Option CharSet :=
  match plainName name with
  | "gc" | "generalcategory" => category? (plainName value)
  | "sc" | "script" => script? (plainName value)
  | name => (Unicode.valued? name (plainName value)).map (property · 800)

end CharSet

end LineCensus.Pattern
