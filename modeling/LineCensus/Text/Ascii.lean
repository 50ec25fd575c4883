/-
Letter case by the ASCII rule alone: letters outside `A`–`Z` and `a`–`z` have
no case here, so a fold never changes a text's length.
-/
namespace LineCensus.Text

/-- The text with the letters `A`–`Z` made small. -/
def lower (s : String) : String := String.ofList (s.toList.map Char.toLower)

/-- Equality when the case of ASCII letters does not count. -/
def sameLetters (s t : String) : Bool := lower s == lower t

end LineCensus.Text
