/-
White space as the Unicode property White_Space lists it, and trimming by it.
-/
namespace LineCensus.Text

/-- The characters with the property White_Space: twenty-five of them, the
ASCII ones first. -/
def isBlank (c : Char) : Bool :=
  if c.val < 0x80 then (9 ≤ c.val && c.val ≤ 13) || c.val == 0x20
  else c.val == 0x85 || c.val == 0xA0 || c.val == 0x1680 || (0x2000 ≤ c.val && c.val ≤ 0x200A)
    || c.val == 0x2028 || c.val == 0x2029 || c.val == 0x202F || c.val == 0x205F || c.val == 0x3000

/-- The text without the white space it starts with. -/
def trimStart (cs : List Char) : List Char := cs.dropWhile isBlank

/-- The text without the white space it ends with. -/
def trimEnd (cs : List Char) : List Char := (cs.reverse.dropWhile isBlank).reverse

/-- The text without white space at either end. -/
def trim (cs : List Char) : List Char := trimEnd (trimStart cs)

end LineCensus.Text
