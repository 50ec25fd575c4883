/-
Texts padded to a width. Widths count characters; a text at least as wide as
asked for is left alone.
-/
namespace LineCensus.Text

/-- `n` times the same character. -/
def fill (n : Nat) (c : Char) : String := String.ofList (List.replicate n c)

/-- The text at the left of a column of `width` characters. -/
def padRight (width : Nat) (s : String) : String := s ++ fill (width - s.length) ' '

/-- The text at the right of a column of `width` characters. -/
def padLeft (width : Nat) (s : String) : String := fill (width - s.length) ' ' ++ s

/-- The text in the middle of a column; of an odd number of spaces the greater
part goes to the right. -/
def padBoth (width : Nat) (s : String) : String :=
  let room := width - s.length
  fill (room / 2) ' ' ++ s ++ fill (room - room / 2) ' '

/-- A number's digits with zeros in front. -/
def padZeros (width : Nat) (digits : String) : String := fill (width - digits.length) '0' ++ digits

end LineCensus.Text
