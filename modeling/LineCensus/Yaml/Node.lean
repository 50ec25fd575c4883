/-
The tree that the tokens of a YAML text describe.

Anchors are numbered as they come; an alias keeps the number its name had at that
point. Looking a number up gives the last node that has it.
-/
import LineCensus.Yaml.Token.Lexer

namespace LineCensus.Yaml

/-- What may stand before any node. -/
structure Properties where
  anchor : Option Nat := none
  tag : Option String := none
deriving Inhabited

/-- A node of a document. -/
inductive Node where
  | scalar (p : Properties) (form : ScalarForm) (text : String)
  | sequence (p : Properties) (items : List Node)
  | mapping (p : Properties) (entries : List (Node × Node))
  | alias (anchor : Nat)
deriving Inhabited

namespace Node

/-- What stands where nothing is written. -/
def empty : Node := .scalar {} .plain ""

def properties : Node → Properties
  | .scalar p .. | .sequence p _ | .mapping p _ => p
  | .alias _ => {}

mutual

/-- The last node with an anchor's number. -/
def find (anchor : Nat) (n : Node) : Option Node :=
  let below := match n with
    | .sequence _ items => findItem anchor items
    | .mapping _ entries => findEntry anchor entries
    | _ => none
  below.or (if n.properties.anchor == some anchor then some n else none)

def findItem (anchor : Nat) : List Node → Option Node
  | [] => none
  | n :: ns => (findItem anchor ns).or (n.find anchor)

def findEntry (anchor : Nat) : List (Node × Node) → Option Node
  | [] => none
  | (k, v) :: es => ((findEntry anchor es).or (v.find anchor)).or (k.find anchor)

end

/-- What is known while tokens are read: the tokens to come, the numbers of
anchors by name, and the texts that tag handles stand for. -/
structure Reading where
  tokens : List Token
  anchors : List (String × Nat) := []
  handles : List (String × String) := [("!", "!"), ("!!", "tag:yaml.org,2002:")]

namespace Reading

/-- The token to come. -/
def next (r : Reading) : Token := r.tokens.headD .textEnd

/-- Pass over a token. -/
def skip (r : Reading) : Reading := { r with tokens := r.tokens.tail }

/-- Number an anchor. The number is that of the names so far, so a name that is
given again may share its number with a later one. -/
def declare (r : Reading) (name : String) : Nat × Reading :=
  let n := r.anchors.length
  (n, { r with anchors := (name, n) :: r.anchors.filter (·.1 != name) })

/-- The text of a tag. -/
def resolve (r : Reading) (handle suffix : String) : Option String :=
  if handle.isEmpty then some suffix else (r.handles.lookup handle).map (· ++ suffix)

/-- An anchor and a tag, each at most once, in any order. -/
def properties (r : Reading) : Option (Properties × Reading) :=
  let anchored (p : Properties) (r : Reading) : Properties × Reading := match r.next with
    | .anchor name => let (n, r) := r.skip.declare name; ({ p with anchor := some n }, r)
    | _ => (p, r)
  let tagged (p : Properties) (r : Reading) : Option (Properties × Reading) := match r.next with
    | .tag handle suffix => (r.resolve handle suffix).map fun t => ({ p with tag := some t }, r.skip)
    | _ => some (p, r)
  match r.next with
  | .anchor _ => let (p, r) := anchored {} r; tagged p r
  | _ => (tagged {} r).map fun (p, r) => anchored p r

end Reading

/-- Whether one of these tokens comes next, so that nothing is written here. -/
def Reading.isAt (r : Reading) (ends : List Token) : Bool := ends.contains r.next

mutual

/-- A node. `inBlock` allows blocks, `dashes` a list whose dashes stand in the
column of the keys around it. -/
def read (inBlock dashes : Bool) : Nat → Reading → Option (Node × Reading)
  | 0, _ => none
  | fuel + 1, r =>
    match r.next with
    | .alias name => (r.anchors.lookup name).map fun n => (.alias n, r.skip)
    | _ => do
      let (p, r) ← r.properties
      match r.next with
      | .scalar form text =>
        let p := if p.tag == some "!" then { p with tag := none } else p
        let form := if p.tag.isNone && form == .literal then .other else form
        return (.scalar p form text, r.skip)
      | .flowSequence => readFlowItems p fuel true [] r.skip
      | .flowMapping => readFlowEntries p fuel true [] r.skip
      | .blockEntry => if dashes then readDashes p fuel [] r else omitted p r
      | .blockSequence => if inBlock then readItems p fuel [] r.skip else omitted p r
      | .blockMapping => if inBlock then readEntries p fuel [] r.skip else omitted p r
      | _ => omitted p r

/-- A node of which only the properties are written. -/
def omitted (p : Properties) (r : Reading) : Option (Node × Reading) :=
  if p.anchor.isSome || p.tag.isSome then some (.scalar p .plain "", r) else none

/-- A node, or an empty scalar if one of `ends` comes next. -/
def readOr (ends : List Token) (inBlock dashes : Bool) : Nat → Reading → Option (Node × Reading)
  | 0, _ => none
  | fuel + 1, r => if r.isAt ends then some (empty, r) else read inBlock dashes fuel r

/-- The items of a list that is a block of its own. -/
def readItems (p : Properties) : Nat → List Node → Reading → Option (Node × Reading)
  | 0, _, _ => none
  | fuel + 1, items, r =>
    match r.next with
    | .blockEntry => do
      let (n, r) ← readOr [.blockEntry, .blockEnd] true false fuel r.skip
      readItems p fuel (n :: items) r
    | .blockEnd => some (.sequence p items.reverse, r.skip)
    | _ => none

/-- The items of a list whose dashes stand in the column of the keys around it. -/
def readDashes (p : Properties) : Nat → List Node → Reading → Option (Node × Reading)
  | 0, _, _ => none
  | fuel + 1, items, r =>
    match r.next with
    | .blockEntry => do
      let (n, r) ← readOr [.blockEntry, .key, .value, .blockEnd] true false fuel r.skip
      readDashes p fuel (n :: items) r
    | _ => some (.sequence p items.reverse, r)

/-- The entries of a mapping that is a block. -/
def readEntries (p : Properties) : Nat → List (Node × Node) → Reading → Option (Node × Reading)
  | 0, _, _ => none
  | fuel + 1, entries, r =>
    match r.next with
    | .key => do
      let (k, r) ← readOr [.key, .value, .blockEnd] true true fuel r.skip
      match r.next with
      | .value =>
        let (v, r) ← readOr [.key, .value, .blockEnd] true true fuel r.skip
        readEntries p fuel ((k, v) :: entries) r
      | _ => readEntries p fuel ((k, empty) :: entries) r
    | .blockEnd => some (.mapping p entries.reverse, r.skip)
    | _ => none

/-- The items of a list in brackets. A key makes an item that is a mapping of one entry. -/
def readFlowItems (p : Properties) : Nat → Bool → List Node → Reading → Option (Node × Reading)
  | 0, _, _, _ => none
  | fuel + 1, first, items, r =>
    match r.next with
    | .flowSequenceEnd => some (.sequence p items.reverse, r.skip)
    | next =>
      if !first && next != .flowEntry then none
      else
        let r := if first then r else r.skip
        match r.next with
        | .flowSequenceEnd => some (.sequence p items.reverse, r.skip)
        | .key => do
          let (n, r) ← readPair fuel r.skip
          readFlowItems p fuel false (n :: items) r
        | _ => do
          let (n, r) ← read false false fuel r
          readFlowItems p fuel false (n :: items) r

/-- The entry behind a key mark within a list in brackets. A key that is left out
takes the token in its place with it. -/
def readPair : Nat → Reading → Option (Node × Reading)
  | 0, _ => none
  | fuel + 1, r => do
    let (k, r) ←
      if r.isAt [.value, .flowEntry, .flowSequenceEnd] then some (empty, r.skip)
      else read false false fuel r
    match r.next with
    | .value =>
      let (v, r) ← readOr [.flowEntry, .flowSequenceEnd] false false fuel r.skip
      return (.mapping {} [(k, v)], r)
    | _ => return (.mapping {} [(k, empty)], r)

/-- The entries of a mapping in braces. -/
def readFlowEntries (p : Properties) : Nat → Bool → List (Node × Node) → Reading → Option (Node × Reading)
  | 0, _, _, _ => none
  | fuel + 1, first, entries, r =>
    match r.next with
    | .flowMappingEnd => some (.mapping p entries.reverse, r.skip)
    | next =>
      if !first && next != .flowEntry then none
      else
        let r := if first then r else r.skip
        match r.next with
        | .flowMappingEnd => some (.mapping p entries.reverse, r.skip)
        | .key => do
          let (k, r) ← readOr [.value, .flowEntry, .flowMappingEnd] false false fuel r.skip
          match r.next with
          | .value =>
            let (v, r) ← readOr [.flowEntry, .flowMappingEnd] false false fuel r.skip
            readFlowEntries p fuel false ((k, v) :: entries) r
          | _ => readFlowEntries p fuel false ((k, empty) :: entries) r
        | _ => do
          let (k, r) ← read false false fuel r
          readFlowEntries p fuel false ((k, empty) :: entries) r

end

/-- The declarations in front of a document: one version at most, which must be
1.1 or 1.2, and no handle twice. -/
def declarations (r : Reading) : Option Reading :=
  let declared := r.tokens.takeWhile fun
    | .version .. | .tagHandle .. => true
    | _ => false
  let versions := declared.filterMap fun
    | .version major minor => some (major, minor)
    | _ => none
  let handles := declared.filterMap fun
    | .tagHandle handle start => some (handle, start)
    | _ => none
  let distinct := handles.all fun h => handles.countP (·.1 == h.1) == 1
  if versions.length ≤ 1 && versions.all (fun v => v == (1, 1) || v == (1, 2)) && distinct then
    some { r with tokens := r.tokens.drop declared.length, handles := handles ++ r.handles }
  else none

/-- Whether a document ends before anything is written in it. -/
def isBare (r : Reading) : Bool :=
  match r.next with
  | .version .. | .tagHandle .. | .documentStart | .documentEnd | .textEnd => true
  | _ => false

/-- The root of the first document: nothing at all, a node that starts without
further ado, or one behind declarations and a document mark. -/
def readRoot (r : Reading) : Option (Node × Reading) :=
  let fuel := 4 * r.tokens.length + 8
  match r.next with
  | .textEnd => some (empty, r)
  | .version .. | .tagHandle .. | .documentStart => do
    let r ← declarations r
    guard (r.next == .documentStart)
    let r := r.skip
    if isBare r then some (empty, r) else read true false fuel r
  | _ => read true false fuel r

/-- The root of the only document. -/
def ofTokens? (tokens : List Token) : Option Node := do
  let (n, r) ← readRoot { tokens := tokens }
  guard (r.tokens.dropWhile (· == .documentEnd) == [.textEnd])
  return n

/-- The root of the only document of a text. -/
def ofText? (s : String) : Option Node := do ofTokens? (← Token.ofText? s)

end Node

end LineCensus.Yaml
