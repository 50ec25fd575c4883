/-
Trees of data as YAML in block style. Lists stand at the margin of the record
they belong to; records within lists start behind the dash.

A text is written plain where reading it back plain gives that text; otherwise
between single quotes, unless it holds something they cannot carry; a text with
line feeds is written literally, line by line, where that is possible.
-/
import LineCensus.Document
import LineCensus.Yaml.Scalar

namespace LineCensus.Yaml

/-- Characters that end a line. -/
def isBreak (c : Char) : Bool :=
  c == '\n' || c == '\r' || c.val == 0x85 || c.val == 0x2028 || c.val == 0x2029

/-- Characters after which a word may end; the end of the text counts as one. -/
def isGap (c : Char) : Bool := c == ' ' || c == '\t' || c.val == 0 || isBreak c

/-- Characters that may stand as they are. -/
def isPrintable (c : Char) : Bool :=
  let n := c.val
  n == 0x0A || (0x20 ≤ n && n ≤ 0x7E) || (0xA0 ≤ n && n ≤ 0xFFFD && n != 0xFEFF) || 0x10000 ≤ n

/-- Characters with a meaning of their own where a value starts. -/
def isIndicator (c : Char) : Bool :=
  "#,[]\x7b\x7d&*!|>'\"%@`".toList.contains c

/-- Whether the text, read from `previous` on, holds something that ends a plain
scalar or starts a comment. -/
def breaksPlain (previous : Char) : List Char → Bool
  | [] => false
  | c :: rest =>
    (c == ':' && (rest.head?.all isGap)) || (c == '#' && isGap previous) || breaksPlain c rest

/-- Whether a text cannot be plain because of how it starts or what is in it. -/
def hasIndicators (cs : List Char) : Bool :=
  match cs with
  | [] => false
  | c :: rest =>
    ['-', '-', '-'].isPrefixOf cs || ['.', '.', '.'].isPrefixOf cs || isIndicator c
      || ((c == '?' || c == ':' || c == '-') && rest.head?.all isGap) || breaksPlain c rest

/-- Whether some character with `p` is followed at once by one with `q`. -/
def hasPair (p q : Char → Bool) (cs : List Char) : Bool :=
  (cs.zip cs.tail).any fun (a, b) => p a && q b

def isSpace (c : Char) : Bool := c == ' '

/-- The forms a text can be written in. -/
inductive Style where
  | plain
  | single
  | double
  | literal
deriving DecidableEq

/-- Between single quotes a line may neither start nor end with a space, and
only printable characters can stand. -/
def allowsSingle (cs : List Char) : Bool :=
  cs.all isPrintable && !hasPair isBreak isSpace cs && !hasPair isSpace isBreak cs

/-- Written line by line, a text may not have spaces at the end of a line. -/
def allowsLiteral (cs : List Char) : Bool :=
  cs.all isPrintable && !hasPair isSpace isBreak cs && cs.getLast? != some ' '

/-- Whether the text can stand alone. -/
def allowsPlain (cs : List Char) : Bool :=
  !hasIndicators cs && cs.all isPrintable && !cs.any isBreak
    && cs.head? != some ' ' && cs.getLast? != some ' '

/-- The form of a text. -/
def Style.of (s : String) : Style :=
  let cs := s.toList
  if cs.contains '\n' then if allowsLiteral cs then .literal else .double
  else if allowsPlain cs && ScalarKind.ofText s == .text && !isPaddedNumber cs then .plain
  else if allowsSingle cs then .single
  else .double

/-- `width` hexadecimal digits. -/
def hex (width n : Nat) : List Char :=
  let digits := (Nat.toDigits 16 n).map Char.toUpper
  List.replicate (width - digits.length) '0' ++ digits

/-- A character between double quotes. -/
def escapeChar (c : Char) : List Char :=
  match c with
  | '"' => ['\\', '"']
  | '\\' => ['\\', '\\']
  | c =>
    if isPrintable c && !isBreak c then [c]
    else
      match c.val.toNat with
      | 0 => ['\\', '0']
      | 7 => ['\\', 'a']
      | 8 => ['\\', 'b']
      | 9 => ['\\', 't']
      | 10 => ['\\', 'n']
      | 11 => ['\\', 'v']
      | 12 => ['\\', 'f']
      | 13 => ['\\', 'r']
      | 27 => ['\\', 'e']
      | 0x85 => ['\\', 'N']
      | 0x2028 => ['\\', 'L']
      | 0x2029 => ['\\', 'P']
      | n =>
        if n ≤ 0xFF then '\\' :: 'x' :: hex 2 n
        else if n ≤ 0xFFFF then '\\' :: 'u' :: hex 4 n
        else '\\' :: 'U' :: hex 8 n

/-- Characters line by line: after a break the margin comes before whatever
follows on its line. -/
def withMargin (margin : List Char) (atStart : Bool) : List Char → List Char
  | [] => []
  | c :: rest =>
    if isBreak c then c :: withMargin margin true rest
    else if atStart then margin ++ c :: withMargin margin false rest
    else c :: withMargin margin false rest

/-- What a literal text says about its first and last lines: a number if it
starts with a space or a break, and how it ends. -/
def literalHints (cs : List Char) : String :=
  (match cs with
    | c :: _ => if c == ' ' || isBreak c then "2" else ""
    | [] => "")
  ++ (match cs.reverse with
    | a :: b :: _ => if !isBreak a then "-" else if isBreak b then "+" else ""
    | [a] => if isBreak a then "+" else "-"
    | [] => "-")

/-- A text in its form; `margin` is the number of spaces before its further lines. -/
def scalar (margin : Nat) (s : String) : String :=
  let cs := s.toList
  let spaces := List.replicate margin ' '
  match Style.of s with
  | .plain => s
  | .single =>
    let quoted := cs.flatMap fun c => if c == '\'' then ['\'', '\''] else [c]
    let ending := if cs.getLast?.any isBreak then spaces else []
    "'" ++ String.ofList (withMargin spaces false quoted ++ ending) ++ "'"
  | .double => "\"" ++ String.ofList (cs.flatMap escapeChar) ++ "\""
  | .literal =>
    let body := String.ofList (withMargin spaces true cs)
    "|" ++ literalHints cs ++ "\n" ++ body ++ (if cs.getLast?.any isBreak then "" else "\n")

/-- Positional from 0.0001 up to 16 digits before the point; `.0` is kept. -/
def quotientLayout : Decimal.Layout := ⟨some (-4, 16), true, "", ".nan", ".inf", .even⟩

/-- A plain value with the end of its line; `margin` as for `scalar`. -/
def leaf (margin : Nat) : Document → String
  | .missing => "null\n"
  | .count n => toString n ++ "\n"
  | .quotient q => quotientLayout.text q ++ "\n"
  | .text s => if Style.of s == .literal then scalar margin s else scalar margin s ++ "\n"
  | .list _ => "[]\n"
  | .record _ => "\x7b\x7d\n"

mutual

/-- The value of a field whose record stands at `margin`. -/
def fieldValue (margin : Nat) : Document → String
  | .list (d :: ds) => "\n" ++ items margin (d :: ds)
  | .record (f :: fs) => "\n" ++ Text.fill (margin + 2) ' ' ++ fields (margin + 2) (f :: fs)
  | d => " " ++ leaf (margin + 2) d

/-- The fields of a record; the margin of the first has been written. -/
def fields (margin : Nat) : List (String × Document) → String
  | [] => ""
  | [(k, d)] => k ++ ":" ++ fieldValue margin d
  | (k, d) :: f :: fs =>
    k ++ ":" ++ fieldValue margin d ++ Text.fill margin ' ' ++ fields margin (f :: fs)

/-- The items of a list whose dashes stand at `margin`. -/
def items (margin : Nat) : List Document → String
  | [] => ""
  | d :: ds => Text.fill margin ' ' ++ "- " ++ item margin d ++ items margin ds

/-- An item behind its dash. -/
def item (margin : Nat) : Document → String
  | .list (d :: ds) => "- " ++ item (margin + 2) d ++ items (margin + 2) ds
  | .record (f :: fs) => fields (margin + 2) (f :: fs)
  | d => leaf (margin + 2) d

end

/-- A whole document. -/
def write : Document → String
  | .record (f :: fs) => fields 0 (f :: fs)
  | .list (d :: ds) => items 0 (d :: ds)
  | d => leaf 2 d

end LineCensus.Yaml
