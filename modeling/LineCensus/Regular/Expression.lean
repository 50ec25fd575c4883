/-
Regular expressions over any kind of symbols, with conditions on the place between
two symbols.

Matching goes by sets of places. A place of a text is a number from 0 to its
length, a set of places a number whose bits tell which places are in it. An
expression maps the set of places where a match may begin to the set of places
where it may end.
-/
namespace LineCensus.Regular

/-- A regular expression. -/
inductive Expression (α : Type) where
  | empty
  | one (has : α → Bool)
  /-- A condition on the symbols on both sides of a place; there are none at the ends. -/
  | look (holds : Option α → Option α → Bool)
  | both (first second : Expression α)
  | either (left right : Expression α)
  /-- From `least` to `most` times, or any greater number of times. -/
  | repeated (body : Expression α) (least : Nat) (most : Option Nat)

/-- A set of places, by its bits. -/
abbrev Places := Nat

namespace Places

/-- The places up to `n`. -/
def upTo (n : Nat) : Places := (1 <<< (n + 1)) - 1

/-- The places at which a list says `true`. -/
def ofList : List Bool → Places
  | [] => 0
  | b :: bs => (if b then 1 else 0) + 2 * ofList bs

end Places

/-- Whether a condition holds at each place of a text, first place first. -/
def lookPlaces (holds : Option α → Option α → Bool) (before : Option α) : List α → List Bool
  | [] => [holds before none]
  | c :: cs => holds before (some c) :: lookPlaces holds (some c) cs

/-- Apply a map `k` times, or until it changes nothing more. -/
def iterate (f : Places → Places) (k : Nat) (places : Places) : Places :=
  match k with
  | 0 => places
  | k + 1 =>
    let next := f places
    if next = places then places else iterate f k next

namespace Expression

/-- Where a match may end that begins at one of the places. A text of `n` symbols
has room for `n` repetitions that take in something; once a repetition may take in
nothing, any number of them may, so more than `n + 1` make no difference. -/
def ends (text : List α) : Expression α → Places → Places
  | .empty, places => places
  | .one has, places => (places &&& Places.ofList (text.map has)) <<< 1
  | .look holds, places => places &&& Places.ofList (lookPlaces holds none text)
  | .both a b, places => ends text b (ends text a places)
  | .either a b, places => ends text a places ||| ends text b places
  | .repeated body least most, places =>
    let enough := text.length + 1
    let required := iterate (ends text body) (min least enough) places
    let further := match most with
      | none => enough
      | some most => min (most - least) enough
    iterate (fun p => p ||| ends text body p) further required

/-- Whether an expression matches some part of a text. -/
def occursIn (e : Expression α) (text : List α) : Bool := e.ends text (Places.upTo text.length) != 0

/-- Whether an expression matches a text as a whole. -/
def covers (e : Expression α) (text : List α) : Bool := (e.ends text 1).testBit text.length

/-- Any number of times. -/
def star (e : Expression α) : Expression α := .repeated e 0 none

/-- At most once. -/
def optional (e : Expression α) : Expression α := .repeated e 0 (some 1)

/-- One expression after another. -/
def sequence (es : List (Expression α)) : Expression α := es.foldr .both .empty

end Expression

end LineCensus.Regular
