/-
Reading globs.
-/
import LineCensus.Glob.Basic

namespace LineCensus.Glob

/-- A choice of which some alternatives have been read. The last part, and the last
alternative, stand first. -/
structure OpenChoice where
  /-- What stands before the choice. -/
  before : List Token
  alternatives : List PathExpression := []

/-- A glob being read. The last part stands first. -/
structure Reading where
  tokens : List Token := []
  /-- The choices around the place, the innermost first. -/
  choices : List OpenChoice := []
  /-- Brackets stand for themselves once one of them has not been closed. -/
  literalBrackets : Bool := false

namespace Reading

def push (r : Reading) (token : Token) : Reading := { r with tokens := token :: r.tokens }

/-- The alternative read last, unless it stands for nothing. -/
def closeAlternative (r : Reading) (c : OpenChoice) : List PathExpression :=
  let tokens := r.tokens.reverse
  if tokens.all Token.isEmpty then c.alternatives
  else .sequence (tokens.map (·.expression)) :: c.alternatives

/-- Begin a choice. -/
def openChoice (r : Reading) : Reading := { r with tokens := [], choices := { before := r.tokens } :: r.choices }

/-- Begin the next alternative; outside a choice a comma stands for itself. -/
def comma (r : Reading) : Reading :=
  match r.choices with
  | [] => r.push (.literal ',')
  | c :: cs => { r with tokens := [], choices := { c with alternatives := r.closeAlternative c } :: cs }

/-- End a choice. -/
def closeChoice? (r : Reading) : Option Reading :=
  match r.choices with
  | [] => none
  | c :: cs =>
    some { r with tokens := .choice (r.closeAlternative c).reverse :: c.before, choices := cs }

end Reading

/-- What comes of reading characters in brackets. -/
inductive SetReading where
  | unclosed
  /-- The bounds of a range are in the wrong order. -/
  | reversed
  | closed (ranges : List (Char × Char)) (rest : List Char)

/-- Read ranges up to the closing bracket; the last one stands first. A bracket or a
minus sign that comes first is a member, and so is a minus sign that comes last. -/
def setMembers (first inRange : Bool) (ranges : List (Char × Char)) : List Char → SetReading
  | [] => .unclosed
  | c :: cs =>
    if c == ']' && !first then .closed (if inRange then ('-', '-') :: ranges else ranges).reverse cs
    else if c == '-' && !first && !inRange then setMembers false true ranges cs
    else
      match inRange, ranges with
      | true, (low, _) :: ranges =>
        if c < low then .reversed else setMembers false false ((low, c) :: ranges) cs
      | _, _ => setMembers false false ((c, c) :: ranges) cs

/-- The characters in brackets, after the opening one. -/
def setToken (cs : List Char) : Bool × SetReading :=
  match cs with
  | c :: rest =>
    if c == '!' || c == '^' then (true, setMembers true false [] rest)
    else (false, setMembers true false [] cs)
  | [] => (false, .unclosed)

/-- Put double stars in. Whether they stand for directories depends on what is around
them: they must fill all the room between slashes. -/
def Reading.doubleStar (r : Reading) (previous : Option Char) (rest : List Char) : Reading × List Char :=
  let plain := ((r.push .star).push .star, rest)
  let inChoice := !r.choices.isEmpty
  match r.tokens with
  | [] =>
    match rest with
    | [] => (r.push .deepStart, [])
    | c :: after => if c == '/' then (r.push .deepStart, after) else plain
  | last :: before =>
    let opens := previous == some '/' || (inChoice && (previous == some ',' || previous == some '{'))
    let replace (token : Token) : Reading :=
      match last with
      | .deepStart | .deepEnd => r
      | _ => { r with tokens := token :: before }
    if !opens then plain
    else
      match rest with
      | [] => (replace .deepEnd, [])
      | c :: after =>
        if inChoice && (c == ',' || c == '\x7d') then (replace .deepEnd, rest)
        else if c == '/' then (replace .deepMiddle, after)
        else plain

/-- Read a glob from a place on, with the character before it. -/
def readFrom (fuel : Nat) (r : Reading) (previous : Option Char) (cs : List Char) : Option (List Token) :=
  match fuel with
  | 0 => none
  | fuel + 1 =>
    match cs with
    | [] => if r.choices.isEmpty then some r.tokens.reverse else none
    | c :: cs =>
      match c with
      | '?' => readFrom fuel (r.push .any) (some c) cs
      | '*' =>
        match cs with
        | '*' :: rest =>
          let (r, after) := r.doubleStar previous rest
          readFrom fuel r (some (if after.length < rest.length then '/' else '*')) after
        | _ => readFrom fuel (r.push .star) (some c) cs
      | '\x7b' => readFrom fuel r.openChoice (some c) cs
      | '\x7d' => (r.closeChoice?).bind fun r => readFrom fuel r (some c) cs
      | ',' => readFrom fuel r.comma (some c) cs
      | '\\' =>
        match cs with
        | [] => none
        | c :: cs => readFrom fuel (r.push (.literal c)) (some c) cs
      | c =>
        if c == '[' && !r.literalBrackets then
          match setToken cs with
          | (_, .unclosed) => readFrom fuel ({ r with literalBrackets := true }.push (.literal '[')) (some c) cs
          | (_, .reversed) => none
          | (negated, .closed ranges rest) => readFrom fuel (r.push (.oneOf negated ranges)) (some ']') rest
        else readFrom fuel (r.push (.literal c)) (some c) cs

/-- The glob a text writes, if it writes one. -/
def ofText? (text : List Char) : Option Glob := (readFrom (text.length + 1) {} none text).map ofTokens

end LineCensus.Glob
