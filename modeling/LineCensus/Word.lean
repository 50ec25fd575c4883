/-
Machine words of 64 bits.
-/
namespace LineCensus

/-- The number of values of a word of 64 bits. -/
def wordSize : Nat := 0x10000000000000000

/-- The number of values that a signed word has on either side of zero. -/
def halfWord : Nat := 0x8000000000000000

end LineCensus
