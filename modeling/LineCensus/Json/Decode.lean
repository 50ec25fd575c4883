/-
Reading typed values out of JSON values.

A record is written as an object, in which unknown members are passed over and a
known one may stand only once, or as an array of its fields in order. A reader
that must hold on to a member before it knows what it is for is stricter about it
than one that passes over it: see `isStorable`.
-/
import LineCensus.Count
import LineCensus.Decimal.Range
import LineCensus.Json.Basic

namespace LineCensus.Json

/-- A string that is text. -/
def text? : Json → Option String
  | .string s => s
  | _ => none

def bool? : Json → Option Bool
  | .bool b => some b
  | _ => none

/-- An array of values of one kind. -/
def list? (f : Json → Option α) : Json → Option (List α)
  | .array items => items.mapM f
  | _ => none

/-- A value that may be null. -/
def nullable? (f : Json → Option α) : Json → Option (Option α)
  | .null => some none
  | v => (f v).map some

/-- A counter: digits only, within 64 bits. -/
def count? : Json → Option Count
  | .number spelling =>
    if spelling.toList.all Char.isDigit then
      spelling.toNat?.bind fun n => if n ≤ Count.limit then some (.ofNat n) else none
    else none
  | _ => none

/-- One of several names, also as the only member of an object, with null. -/
def choice? (f : String → Option α) : Json → Option α
  | .string (some s) => f s
  | .object [(some s, .null)] => f s
  | _ => none

/-- The members of an object whose names are all text. -/
def members? : Json → Option (List (String × Json))
  | .object ms => ms.mapM fun (k, v) => k.map (·, v)
  | _ => none

/-- The value of a member, which may be absent but not repeated. -/
def member? (ms : List (String × Json)) (name : String) : Option (Option Json) :=
  match ms.filter (·.1 == name) with
  | [] => some none
  | [(_, v)] => some (some v)
  | _ => none

/-- The fields of a record. As an array it may be cut short, down to `least` items. -/
def fields? (names : List String) (least : Nat) : Json → Option (List (Option Json))
  | .array items =>
    if least ≤ items.length && items.length ≤ names.length then
      some (items.map some ++ List.replicate (names.length - items.length) none)
    else none
  | v => do names.mapM (member? (← v.members?))

/-- A field that must be there. -/
def required (f : Json → Option α) (field : Option Json) : Option α := field.bind f

/-- A field with a default. -/
def withDefault (f : Json → Option α) (default : α) : Option Json → Option α
  | none => some default
  | some v => f v

mutual

/-- Whether a value can be held on to: its strings are text, its numbers are in
range, and it is not nested deeper than `depth`. -/
def isStorable (depth : Nat) : Json → Bool
  | .null | .bool _ => true
  | .number spelling => Decimal.isInRange spelling
  | .string s => s.isSome
  | .array items => depth != 0 && areStorable (depth - 1) items
  | .object members => depth != 0 && membersStorable (depth - 1) members

def areStorable (depth : Nat) : List Json → Bool
  | [] => true
  | v :: vs => v.isStorable depth && areStorable depth vs

def membersStorable (depth : Nat) : List (Option String × Json) → Bool
  | [] => true
  | (k, v) :: ms => k.isSome && v.isStorable depth && membersStorable depth ms

end

end LineCensus.Json
