/-
Reading typed values out of YAML nodes.

A text is any scalar as it is written. A record or a list may also be left empty.
A value that is read before it is known what it is for is first given the meaning
its own form suggests; such a value is a `Held`.
-/
import LineCensus.Json.Decode
import LineCensus.Yaml.Node

namespace LineCensus.Yaml

/-- A value held on to, by its own form. -/
inductive Held where
  | null
  | bool (b : Bool)
  | natural (n : Nat)
  | number
  | text (s : String)
  | list (items : List Held)
  | record (entries : List (Held × Held))
deriving Inhabited

/-- The value of a number's spelling that is not negative. -/
def naturalOf (s : String) : Nat :=
  let cs := match s.toList with
    | '+' :: rest => rest
    | cs => cs
  let number (base : Nat) (ds : List Char) := ds.foldl (fun n c => n * base + digitValue c) 0
  match cs with
  | '0' :: 'x' :: ds => number 16 ds
  | '0' :: 'o' :: ds => number 8 ds
  | '0' :: 'b' :: ds => number 2 ds
  | ds => number 10 ds

/-- A whole number, if it fits 64 bits. -/
def heldInteger (s : String) : Option Held :=
  match s.toList with
  | '-' :: rest => if naturalOf (String.ofList rest) ≤ halfWord then some .number else none
  | _ => if naturalOf s < wordSize then some (.natural (naturalOf s)) else none

/-- A plain scalar by its form. -/
def heldPlain (s : String) : Option Held :=
  match ScalarKind.ofText s with
  | .null => some .null
  | .bool b => some (.bool b)
  | .integer => heldInteger s
  | .float => some .number
  | .text => some (.text s)

/-- The tags of the core kinds begin with this. -/
def coreTag (name : String) : String := "tag:yaml.org,2002:" ++ name

/-- A scalar by its tag, or else by its form. A local tag is refused. -/
def heldScalar (tag : Option String) (form : ScalarForm) (s : String) : Option Held :=
  match tag with
  | none => if form == .plain then heldPlain s else some (.text s)
  | some t =>
    if t.startsWith "!" then none
    else if t == coreTag "bool" then
      match ScalarKind.ofText s with
      | .bool b => some (.bool b)
      | _ => none
    else if t == coreTag "int" then
      if ScalarKind.ofText s == .integer then heldInteger s else none
    else if t == coreTag "float" then
      match ScalarKind.ofText s with
      | .integer | .float => some .number
      | _ => none
    else if t == coreTag "null" then
      if ScalarKind.ofText s == .null && !s.isEmpty then some .null else none
    else some (.text s)

namespace Node

/-- The node an alias stands for, any other node itself. -/
def follow (root : Node) : Node → Option Node
  | .alias n => root.find n
  | n => some n

/-- Whether a node has a local tag. -/
def hasLocalTag (n : Node) : Bool := n.properties.tag.any (·.startsWith "!")

/-- A node held on to; `depth` bounds the nesting. -/
def hold (root : Node) : Nat → Node → Option Held
  | 0, n => do
    match ← follow root n with
    | .scalar p form s => heldScalar p.tag form s
    | _ => none
  | depth + 1, n => do
    let n ← follow root n
    match n with
    | .scalar p form s => heldScalar p.tag form s
    | .sequence _ items =>
      if n.hasLocalTag then none else return .list (← items.mapM (hold root depth))
    | .mapping _ entries =>
      if n.hasLocalTag then none
      else return .record (← entries.mapM fun (k, v) => do return (← hold root depth k, ← hold root depth v))
    | .alias _ => none

/-- Whether nothing is written. -/
def isOmitted : Node → Bool
  | .scalar _ .plain s => s.isEmpty
  | _ => false

/-- A text. -/
def text? (root n : Node) : Option String := do
  match ← follow root n with
  | .scalar _ _ s => return s
  | _ => none

/-- A list of values of one kind. -/
def list? (root : Node) (f : Node → Option α) (n : Node) : Option (List α) := do
  let n ← follow root n
  match n with
  | .sequence _ items => items.mapM f
  | _ => if n.isOmitted then return [] else none

/-- A truth value. -/
def bool? (root n : Node) : Option Bool := do
  match ← follow root n with
  | .scalar p form s =>
    if form == .plain || (form == .literal && p.tag == some (coreTag "bool")) then
      match ScalarKind.ofText s with
      | .bool b => return b
      | _ => none
    else none
  | _ => none

/-- The entries of a record by the texts of their keys. -/
def entries? (root n : Node) : Option (List (String × Node)) := do
  let n ← follow root n
  match n with
  | .mapping _ entries => entries.mapM fun (k, v) => do return (← text? root k, v)
  | _ => if n.isOmitted then return [] else none

end Node

namespace Held

def text? : Held → Option String
  | .text s => some s
  | _ => none

def list? (f : Held → Option α) : Held → Option (List α)
  | .list items => items.mapM f
  | _ => none

/-- Which of a record's fields a key means: by name, or by place. -/
def fieldOf? (names : List String) : Held → Option (Option String)
  | .text s => some (some s)
  | .natural n => some names[n]?
  | _ => none

/-- The fields of a record, which may be a list of as many values. -/
def fields? (names : List String) : Held → Option (List (Option Held))
  | .list items => if items.length = names.length then some (items.map some) else none
  | .record entries => do
    let keyed ← entries.mapM fun (k, v) => do return (← fieldOf? names k, v)
    names.mapM fun name =>
      match keyed.filter (·.1 == some name) with
      | [] => some none
      | [(_, v)] => some (some v)
      | _ => none
  | _ => none

end Held

end LineCensus.Yaml
