/-
How texts are cut into clusters, words and sentences: the classes of characters that the
Unicode standard tells apart for this.

The classes are defined as in the standard, from categories, scripts and other properties;
only what it lists by hand is listed here.
-/
import LineCensus.Unicode.Property
import LineCensus.Unicode.Script

namespace LineCensus.Unicode

/-! ## Clusters -/

/-- The characters that extend a cluster and are neither nonspacing nor enclosing marks. -/
def otherGraphemeExtend : List (Nat × Nat) :=
  [(0x9BE, 0x9BE), (0x9D7, 0x9D7), (0xB3E, 0xB3E), (0xB57, 0xB57), (0xBBE, 0xBBE), (0xBD7, 0xBD7),
    (0xCC2, 0xCC2), (0xCD5, 0xCD6), (0xD3E, 0xD3E), (0xD57, 0xD57), (0xDCF, 0xDCF), (0xDDF, 0xDDF),
    (0x1B35, 0x1B35), (0x200C, 0x200C), (0x302E, 0x302F), (0xFF9E, 0xFF9F), (0x1133E, 0x1133E),
    (0x11357, 0x11357), (0x114B0, 0x114B0), (0x114BD, 0x114BD), (0x115AF, 0x115AF),
    (0x11930, 0x11930), (0x1D165, 0x1D165), (0x1D16E, 0x1D172), (0xE0020, 0xE007F)]

def isGraphemeExtend (c : Char) : Bool :=
  [.mn, .me].contains (Category.of c) || inRanges otherGraphemeExtend c

def isEmojiModifier (c : Char) : Bool := inRanges [(0x1F3FB, 0x1F3FF)] c

def isRegionalIndicator (c : Char) : Bool := inRanges [(0x1F1E6, 0x1F1FF)] c

/-- The joiner of zero width. -/
def isJoiner (c : Char) : Bool := c.val == 0x200D

/-- The marks that stand before the numbers they go with. -/
def prependedConcatenationMarks : List (Nat × Nat) :=
  [(0x600, 0x605), (0x6DD, 0x6DD), (0x70F, 0x70F), (0x890, 0x891), (0x8E2, 0x8E2),
    (0x110BD, 0x110BD), (0x110CD, 0x110CD)]

/-- The other characters that belong to the cluster after them. -/
def otherPrepended : List (Nat × Nat) :=
  [(0xD4E, 0xD4E), (0x111C2, 0x111C3), (0x1193F, 0x1193F), (0x11941, 0x11941), (0x11A3A, 0x11A3A),
    (0x11A84, 0x11A89), (0x11D46, 0x11D46), (0x11F02, 0x11F02)]

def isPrepended (c : Char) : Bool := inRanges prependedConcatenationMarks c || inRanges otherPrepended c

/-- The characters without a shape that are neither format nor variation characters. -/
def otherDefaultIgnorable : List (Nat × Nat) :=
  [(0x34F, 0x34F), (0x115F, 0x1160), (0x17B4, 0x17B5), (0x2065, 0x2065), (0x3164, 0x3164),
    (0xFFA0, 0xFFA0), (0xFFF0, 0xFFF8), (0xE0000, 0xE0000), (0xE0002, 0xE001F), (0xE0080, 0xE00FF),
    (0xE01F0, 0xE0FFF)]

def isVariationSelector (c : Char) : Bool :=
  inRanges [(0x180B, 0x180D), (0x180F, 0x180F), (0xFE00, 0xFE0F), (0xE0100, 0xE01EF)] c

/-- A character that is ignored where it is not supported. -/
def isDefaultIgnorable (c : Char) : Bool :=
  (Category.of c == .cf || isVariationSelector c || inRanges otherDefaultIgnorable c) &&
    !inRanges prependedConcatenationMarks c && !inRanges [(0xFFF9, 0xFFFB), (0x13430, 0x1343F)] c

/-- A character that stands between clusters. -/
def isClusterControl (c : Char) : Bool :=
  ([.zl, .zp, .cc, .cf].contains (Category.of c) || (Category.of c == .cn && isDefaultIgnorable c)) &&
    c != '\r' && c != '\n' && !isJoiner c && !isGraphemeExtend c && !isPrepended c

/-- The spacing marks that are clusters of their own. -/
def aloneSpacing : List (Nat × Nat) :=
  [(0x102B, 0x102C), (0x1038, 0x1038), (0x1062, 0x1064), (0x1067, 0x106D), (0x1083, 0x1083),
    (0x1087, 0x108C), (0x108F, 0x108F), (0x109A, 0x109C), (0x1A61, 0x1A61), (0x1A63, 0x1A64),
    (0xAA7B, 0xAA7B), (0xAA7D, 0xAA7D), (0x11720, 0x11721)]

/-- A spacing mark in the cluster of the character before it. -/
def isClusterSpacing (c : Char) : Bool :=
  (Category.of c == .mc && !isGraphemeExtend c && !inRanges aloneSpacing c) || c.val == 0xE33 || c.val == 0xEB3

/-- A syllable of Hangul, with a consonant at its end or without. -/
def isHangulSyllable (closed : Bool) (c : Char) : Bool :=
  inRanges [(0xAC00, 0xD7A3)] c && ((c.toNat - 0xAC00) % 28 != 0) == closed

/-- The class of characters in clusters that a value of the property names. Values are named in small
letters, without underscores. -/
def clusterBreak? (value : String) : Option (Char → Bool) :=
  match value with
  | "cr" => some (· == '\r')
  | "lf" => some (· == '\n')
  | "cn" | "control" => some isClusterControl
  | "ex" | "extend" => some fun c => isGraphemeExtend c || isEmojiModifier c
  | "l" => some (inRanges [(0x1100, 0x115F), (0xA960, 0xA97C)])
  | "v" => some (inRanges [(0x1160, 0x11A7), (0xD7B0, 0xD7C6)])
  | "t" => some (inRanges [(0x11A8, 0x11FF), (0xD7CB, 0xD7FB)])
  | "lv" => some (isHangulSyllable false)
  | "lvt" => some (isHangulSyllable true)
  | "pp" | "prepend" => some isPrepended
  | "ri" | "regionalindicator" => some isRegionalIndicator
  | "sm" | "spacingmark" => some isClusterSpacing
  | "zwj" => some isJoiner
  | _ => none

/-! ## Words -/

/-- A character that belongs to the word before it. -/
def isWordExtend (c : Char) : Bool := isGraphemeExtend c || Category.of c == .mc || isEmojiModifier c

def isWordFormat (c : Char) : Bool :=
  Category.of c == .cf && !isGraphemeExtend c && !inRanges [(0x200B, 0x200D)] c

def isKatakana (c : Char) : Bool :=
  Script.has "katakana" c ||
    inRanges [(0x3031, 0x3035), (0x309B, 0x309C), (0x30A0, 0x30A0), (0x30FC, 0x30FC), (0xFF70, 0xFF70)] c

def isHebrewLetter (c : Char) : Bool := Script.has "hebrew" c && Category.of c == .lo

/-- The blocks of scripts that are cut into words by a dictionary. -/
def dictionaryBlocks : List (Nat × Nat) :=
  [(0xE00, 0xEFF), (0x1000, 0x109F), (0x1780, 0x17FF), (0x1950, 0x19DF), (0x1A20, 0x1AAF),
    (0xA9E0, 0xA9FF), (0xAA60, 0xAADF), (0x11700, 0x1174F)]

/-- The letters of words that are not alphabetic. -/
def otherWordLetters : List (Nat × Nat) :=
  [(0x2C2, 0x2C5), (0x2D2, 0x2D7), (0x2DE, 0x2DF), (0x2E5, 0x2EB), (0x2ED, 0x2ED), (0x2EF, 0x2FF),
    (0x55A, 0x55C), (0x55E, 0x55E), (0x58A, 0x58A), (0x5F3, 0x5F3), (0xA708, 0xA716),
    (0xA720, 0xA721), (0xA789, 0xA78A), (0xAB5B, 0xAB5B)]

/-- A letter of words with a letter on either side. -/
def isWordLetter (c : Char) : Bool :=
  inRanges otherWordLetters c ||
    (isAlphabetic c && !isBetween ideographic c.toNat && !Script.has "hiragana" c && !isKatakana c &&
      !isHebrewLetter c && !isWordExtend c && !inRanges dictionaryBlocks c)

def isWordNumeric (c : Char) : Bool := Category.of c == .nd || c.val == 0x66B

/-- The characters that stand between two letters of a word. -/
def midLetters : List (Nat × Nat) :=
  [(0x3A, 0x3A), (0xB7, 0xB7), (0x387, 0x387), (0x55F, 0x55F), (0x5F4, 0x5F4), (0x2027, 0x2027),
    (0xFE13, 0xFE13), (0xFE55, 0xFE55), (0xFF1A, 0xFF1A)]

/-- The characters that stand between two digits of a number. -/
def midNumbers : List (Nat × Nat) :=
  [(0x2C, 0x2C), (0x3B, 0x3B), (0x37E, 0x37E), (0x589, 0x589), (0x60C, 0x60D), (0x66C, 0x66C),
    (0x7F8, 0x7F8), (0x2044, 0x2044), (0xFE10, 0xFE10), (0xFE14, 0xFE14), (0xFE50, 0xFE50),
    (0xFE54, 0xFE54), (0xFF0C, 0xFF0C), (0xFF1B, 0xFF1B)]

/-- The characters that stand in either place. -/
def midNumberLetters : List (Nat × Nat) :=
  [(0x2E, 0x2E), (0x2018, 0x2019), (0x2024, 0x2024), (0xFE52, 0xFE52), (0xFF07, 0xFF07),
    (0xFF0E, 0xFF0E)]

/-- The class of characters in words that a value of the property names. -/
def wordBreak? (value : String) : Option (Char → Bool) :=
  match value with
  | "cr" => some (· == '\r')
  | "lf" => some (· == '\n')
  | "nl" | "newline" => some (inRanges [(0xB, 0xC), (0x85, 0x85), (0x2028, 0x2029)])
  | "extend" => some isWordExtend
  | "fo" | "format" => some isWordFormat
  | "ka" | "katakana" => some isKatakana
  | "hl" | "hebrewletter" => some isHebrewLetter
  | "le" | "aletter" => some isWordLetter
  | "sq" | "singlequote" => some (·.val == 0x27)
  | "dq" | "doublequote" => some (·.val == 0x22)
  | "mb" | "midnumlet" => some (inRanges midNumberLetters)
  | "ml" | "midletter" => some (inRanges midLetters)
  | "mn" | "midnum" => some (inRanges midNumbers)
  | "nu" | "numeric" => some isWordNumeric
  | "ex" | "extendnumlet" => some fun c => Category.of c == .pc || c.val == 0x202F
  | "ri" | "regionalindicator" => some isRegionalIndicator
  | "wsegspace" => some fun c => Category.of c == .zs && !([0xA0, 0x2007, 0x202F].contains c.toNat)
  | "zwj" => some isJoiner
  | _ => none

/-! ## Sentences -/

def isSentenceExtend (c : Char) : Bool := isGraphemeExtend c || Category.of c == .mc || isJoiner c

/-- A small letter, unless it is of a script that has no other letters in use. -/
def isSentenceLower (c : Char) : Bool :=
  isLowercase c && !isGraphemeExtend c && !inRanges [(0x10D0, 0x10FA), (0x10FD, 0x10FF)] c

def isSentenceUpper (c : Char) : Bool :=
  (isUppercase c || Category.of c == .lt) && !inRanges [(0x1C90, 0x1CBA), (0x1CBD, 0x1CBF)] c

/-- The full stops that may stand within a sentence. -/
def ambiguousTerminators : List (Nat × Nat) := [(0x2E, 0x2E), (0x2024, 0x2024), (0xFE52, 0xFE52), (0xFF0E, 0xFF0E)]

/-- The quotation marks that are not punctuation in pairs. -/
def otherClosing : List (Nat × Nat) :=
  [(0x22, 0x22), (0x27, 0x27), (0x275B, 0x2760), (0x2E00, 0x2E01), (0x2E06, 0x2E08),
    (0x2E0B, 0x2E0B), (0x1F676, 0x1F678)]

/-- The characters after which a sentence goes on. -/
def continuing : List (Nat × Nat) :=
  [(0x2C, 0x2D), (0x3A, 0x3A), (0x55D, 0x55D), (0x60C, 0x60D), (0x7F8, 0x7F8), (0x1802, 0x1802),
    (0x1808, 0x1808), (0x2013, 0x2014), (0x3001, 0x3001), (0xFE10, 0xFE11), (0xFE13, 0xFE13),
    (0xFE31, 0xFE32), (0xFE50, 0xFE51), (0xFE55, 0xFE55), (0xFE58, 0xFE58), (0xFE63, 0xFE63),
    (0xFF0C, 0xFF0D), (0xFF1A, 0xFF1A), (0xFF64, 0xFF64)]

/-- The characters that end sentences. -/
def sentenceTerminalTable : String :=
  String.join [
    "33 1 12 1 16 1 1353 1 147 3 180 1 43 3 246 1 61 1 1 1 3 2 293 2 1764 2 790 1 4 2 773 1 198 ",
    "2 204 1 5 1 314 2 354 4 174 2 2 2 29 2 188 2 65 2 956 2 9 3 3556 1 13 1 22 2 429 1 29948 1 ",
    "270 2 227 1 3 1 382 2 86 2 95 1 152 2 147 3 144 2 249 1 21094 1 3 2 169 1 12 1 16 1 65 1 ",
    "2804 2 1277 5 44 4 189 2 117 4 127 3 129 2 6 1 16 2 88 2 1 2 108 1 417 2 373 2 5 15 105 2 ",
    "249 3 517 1 1 1 251 2 87 2 420 2 692 2 74 2 19241 2 133 1 65 2 11 1 851 1 19974 1 7656 1"]

def sentenceTerminal : Array Nat := decodeBorders sentenceTerminalTable

/-- The class of characters in sentences that a value of the property names. -/
def sentenceBreak? (value : String) : Option (Char → Bool) :=
  match value with
  | "cr" => some (· == '\r')
  | "lf" => some (· == '\n')
  | "se" | "sep" => some (inRanges [(0x85, 0x85), (0x2028, 0x2029)])
  | "ex" | "extend" => some isSentenceExtend
  | "fo" | "format" => some fun c => isWordFormat c || c.val == 0x200B
  | "sp" => some fun c => Text.isBlank c && !inRanges [(0xA, 0xA), (0xD, 0xD), (0x85, 0x85), (0x2028, 0x2029)] c
  | "lo" | "lower" => some isSentenceLower
  | "up" | "upper" => some isSentenceUpper
  | "le" | "oletter" => some fun c =>
    (isAlphabetic c && !isSentenceLower c && !isSentenceUpper c && !isSentenceExtend c) || c.val == 0x5F3
  | "nu" | "numeric" => some fun c => isWordNumeric c || c.val == 0x66C
  | "at" | "aterm" => some (inRanges ambiguousTerminators)
  | "sc" | "scontinue" => some (inRanges continuing)
  | "st" | "sterm" => some fun c => isBetween sentenceTerminal c.toNat && !inRanges ambiguousTerminators c
  | "cl" | "close" => some fun c => [.ps, .pe, .pi, .pf].contains (Category.of c) || inRanges otherClosing c
  | _ => none

end LineCensus.Unicode
