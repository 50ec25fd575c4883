/-
What characters are used for: in punctuation, formulas, pictures and names, with letters
and in ideographs.
-/
import LineCensus.Unicode.Break

namespace LineCensus.Unicode

/-! ## Punctuation -/

/-- The hyphens. -/
def hyphens : List (Nat × Nat) :=
  [(0x2D, 0x2D), (0xAD, 0xAD), (0x58A, 0x58A), (0x1806, 0x1806), (0x2010, 0x2011), (0x2E17, 0x2E17),
    (0x30FB, 0x30FB), (0xFE63, 0xFE63), (0xFF0D, 0xFF0D), (0xFF65, 0xFF65)]

/-- The marks around quotations. -/
def quotationMarks : List (Nat × Nat) :=
  [(0x22, 0x22), (0x27, 0x27), (0xAB, 0xAB), (0xBB, 0xBB), (0x2018, 0x201F), (0x2039, 0x203A),
    (0x2E42, 0x2E42), (0x300C, 0x300F), (0x301D, 0x301F), (0xFE41, 0xFE44), (0xFF02, 0xFF02),
    (0xFF07, 0xFF07), (0xFF62, 0xFF63)]

/-- The punctuation that ends a part of a sentence but no sentence. -/
def innerTerminalTable : String :=
  String.join [
    "44 1 13 2 834 1 8 1 571 1 72 1 14 1 231 8 1 1 235 1 55 7 1 1 1 3 33 1 1531 2 172 1 4 6 1102 ",
    "1 1 4 900 3 230 3 3 1 39 1 1 2 2 1 852 1 223 3 4609 1 10 1 1 2 433 1 29948 1 270 1 230 3 ",
    "720 1 279 1 21360 2 2 2 182 1 13 2 72 1 1082 1 48 1 1158 1 199 1 464 6 68 6 89 4 1196 5 492 ",
    "1 530 1 12 2 360 2 1243 2 416 1 45 1 2046 5 18116 1 861 1 27631 1 1 2"]

def innerTerminal : Array Nat := decodeBorders innerTerminalTable

/-- Punctuation at the end of a sentence or of a part of it. -/
def isTerminalPunctuation (c : Char) : Bool :=
  isBetween sentenceTerminal c.toNat || isBetween innerTerminal c.toNat

/-- The signs that a notation of patterns may give a meaning of its own. -/
def patternSyntax : List (Nat × Nat) :=
  [(0x21, 0x2F), (0x3A, 0x40), (0x5B, 0x5E), (0x60, 0x60), (0x7B, 0x7E), (0xA1, 0xA7), (0xA9, 0xA9),
    (0xAB, 0xAC), (0xAE, 0xAE), (0xB0, 0xB1), (0xB6, 0xB6), (0xBB, 0xBB), (0xBF, 0xBF),
    (0xD7, 0xD7), (0xF7, 0xF7), (0x2010, 0x2027), (0x2030, 0x203E), (0x2041, 0x2053),
    (0x2055, 0x205E), (0x2190, 0x245F), (0x2500, 0x2775), (0x2794, 0x2BFF), (0x2E00, 0x2E7F),
    (0x3001, 0x3003), (0x3008, 0x3020), (0x3030, 0x3030), (0xFD3E, 0xFD3F), (0xFE45, 0xFE46)]

/-- The white space between parts of a notation. -/
def patternSpaces : List (Nat × Nat) :=
  [(0x9, 0xD), (0x20, 0x20), (0x85, 0x85), (0x200E, 0x200F), (0x2028, 0x2029)]

/-! ## Formulas and directions -/

/-- The signs of formulas that are not mathematical symbols by category. -/
def otherMathTable : String :=
  String.join [
    "94 1 881 3 2 1 26 2 2 2 7200 1 27 3 11 1 32 4 24 2 14 2 65 13 4 1 3 2 4 5 18 1 4 1 2 10 1 1 ",
    "3 5 6 1 3 2 2 2 1 3 1 6 3 4 5 5 75 5 2 4 1 2 1 2 1 1 1 5 2 2 4 2 4 18 2 2 1 1 1 7 1 1 6 2 ",
    "290 4 168 2 1 1 24 1 17 1 445 2 12 9 5 5 5 2 2 2 3 5 14 1 1 1 2 6 24 2 57 1 1 1 29 4 9 2 ",
    "342 2 31 10 403 22 63 4 32 2 54371 1 1 1 4 1 211 1 1 1 54465 85 1 71 1 2 2 1 2 2 2 4 1 12 1 ",
    "1 1 7 1 65 1 4 2 8 1 7 1 28 1 4 1 5 1 1 3 7 1 340 2 25 1 25 1 31 1 25 1 31 1 25 1 31 1 25 1 ",
    "31 1 25 1 8 2 50 5632 4 1 27 1 2 1 1 2 1 1 10 1 4 1 1 1 1 6 1 4 1 1 1 1 1 1 3 1 2 1 1 2 1 1 ",
    "1 1 1 1 1 1 1 1 2 1 1 2 4 1 7 1 4 1 4 1 1 1 10 1 17 5 3 1 5 1 17"]

def otherMath : Array Nat := decodeBorders otherMathTable

def isMath (c : Char) : Bool := Category.of c == .sm || isBetween otherMath c.toNat

/-- The characters that are mirrored in text from right to left. -/
def mirroredTable : String :=
  String.join [
    "40 2 18 1 1 1 28 1 1 1 29 1 1 1 45 1 15 1 3710 4 1885 2 2460 2 10 2 54 2 14 2 177 1 192 4 3 ",
    "6 3 1 3 2 3 4 1 4 1 1 1 1 4 9 5 1 1 18 5 4 9 2 1 1 1 8 2 31 2 4 5 1 9 2 2 19 5 2 9 5 2 2 4 ",
    "24 2 16 8 4 20 2 7 2 1085 14 74 1 2 4 1 2 1 3 5 4 5 3 3 14 403 22 2 6 1 14 8 1 7 6 3 1 4 5 ",
    "1 2 2 5 4 1 1 3 2 2 10 6 2 2 12 19 1 4 2 1 1 1 2 1 1 4 5 2 6 3 24 2 11 2 4 4 1 2 2 2 4 43 2 ",
    "8 1 40 5 1 1 1 3 5 5 3 4 1 3 5 1 1 256 1 515 4 3 2 1 2 14 2 2 10 43 8 427 10 2 8 52797 6 5 ",
    "2 162 2 18 1 1 1 28 1 1 1 29 1 1 1 1 2 1 2 55159 1 57 1 57 1 57 1 57 1"]

def mirrored : Array Nat := decodeBorders mirroredTable

/-- The characters that set the direction of text. -/
def directionControls : List (Nat × Nat) :=
  [(0x61C, 0x61C), (0x200E, 0x200F), (0x202A, 0x202E), (0x2066, 0x2069)]

/-! ## Pictures -/

/-- The characters that are pictures unless asked for as text. -/
def emojiPresentationTable : String :=
  String.join [
    "8986 2 205 4 3 1 2 1 521 2 21 2 50 12 43 1 19 1 13 1 8 2 17 2 5 2 8 1 5 1 21 1 7 2 1 1 4 1 ",
    "2 1 7 1 4 2 28 1 35 1 1 1 4 3 1 1 61 3 24 1 14 1 859 2 51 1 4 1 115886 1 202 1 190 1 2 10 ",
    "75 26 1 1 24 1 20 1 2 5 1 3 21 2 174 33 12 9 1 70 1 22 12 43 4 5 12 17 3 1 3 71 1 1 1 187 2 ",
    "63 13 4 1 24 18 1 26 2 13 1 86 85 48 70 6 1 3 3 2 3 4 4 11 2 7 9 227 12 4 1 283 47 1 10 1 ",
    "185 112 13 3 9 7 46 1 7 8 14 4 9 7 9"]

def emojiPresentation : Array Nat := decodeBorders emojiPresentationTable

/-- The characters that are pictures or are kept for such. -/
def pictographicTable : String :=
  String.join [
    "169 1 4 1 8077 1 12 1 216 1 22 1 90 6 15 2 367 2 12 1 95 1 70 1 25 11 4 3 199 1 231 2 10 1 ",
    "9 1 58 4 1 6 1 12 1 114 10 118 2 11 1 1 1 1 6 1 3 1 6 1 10 2 15 1 2 1 4 1 1 1 4 3 1 1 11 5 ",
    "45 3 9 1 14 1 14 1 372 2 463 3 19 2 51 1 4 1 1242 1 12 1 601 1 1 1 114022 256 13 3 31 1 60 ",
    "6 12 2 14 1 2 10 18 57 27 15 10 1 20 1 2 9 1 4 9 434 5 318 8 266 48 128 116 12 85 43 12 4 ",
    "56 8 10 6 40 8 30 82 12 47 1 10 1 441 256 1022"]

def pictographic : Array Nat := decodeBorders pictographicTable

/-- The pictures that a modifier can follow. -/
def emojiBases : List (Nat × Nat) :=
  [(0x261D, 0x261D), (0x26F9, 0x26F9), (0x270A, 0x270D), (0x1F385, 0x1F385), (0x1F3C2, 0x1F3C4),
    (0x1F3C7, 0x1F3C7), (0x1F3CA, 0x1F3CC), (0x1F442, 0x1F443), (0x1F446, 0x1F450),
    (0x1F466, 0x1F478), (0x1F47C, 0x1F47C), (0x1F481, 0x1F483), (0x1F485, 0x1F487),
    (0x1F48F, 0x1F48F), (0x1F491, 0x1F491), (0x1F4AA, 0x1F4AA), (0x1F574, 0x1F575),
    (0x1F57A, 0x1F57A), (0x1F590, 0x1F590), (0x1F595, 0x1F596), (0x1F645, 0x1F647),
    (0x1F64B, 0x1F64F), (0x1F6A3, 0x1F6A3), (0x1F6B4, 0x1F6B6), (0x1F6C0, 0x1F6C0),
    (0x1F6CC, 0x1F6CC), (0x1F90C, 0x1F90C), (0x1F90F, 0x1F90F), (0x1F918, 0x1F91F),
    (0x1F926, 0x1F926), (0x1F930, 0x1F939), (0x1F93C, 0x1F93E), (0x1F977, 0x1F977),
    (0x1F9B5, 0x1F9B6), (0x1F9B8, 0x1F9B9), (0x1F9BB, 0x1F9BB), (0x1F9CD, 0x1F9CF),
    (0x1F9D1, 0x1F9DD), (0x1FAC3, 0x1FAC5), (0x1FAF0, 0x1FAF8)]

/-- The characters that pictures are put together of. -/
def emojiComponents : List (Nat × Nat) :=
  [(0x23, 0x23), (0x2A, 0x2A), (0x30, 0x39), (0x200D, 0x200D), (0x20E3, 0x20E3), (0xFE0F, 0xFE0F),
    (0x1F1E6, 0x1F1FF), (0x1F3FB, 0x1F3FF), (0x1F9B0, 0x1F9B3), (0xE0020, 0xE007F)]

/-! ## Letters and marks -/

/-- The signs that change the letters they stand with. -/
def diacriticTable : String :=
  String.join [
    "94 1 1 1 71 1 6 1 4 1 2 2 503 159 1 8 5 6 17 2 4 1 9 2 253 5 209 1 55 17 1 27 1 1 1 2 1 1 ",
    "134 8 4 2 134 2 4 2 3 3 67 27 91 11 58 11 34 2 126 8 41 10 16 28 61 1 16 1 3 4 28 1 74 1 16 ",
    "1 110 1 16 1 110 1 16 1 47 3 60 1 16 1 7 1 119 1 110 1 16 1 110 1 16 1 109 2 16 1 124 1 124 ",
    "6 1 1 107 1 13 5 75 2 27 1 1 1 1 1 4 2 66 3 1 2 62 1 112 1 1 2 40 2 4 5 25 7 1 1 10 2 705 3 ",
    "948 2 179 11 9 1 347 3 313 8 2 1 48 15 2 11 104 1 15 1 38 9 54 2 138 2 64 6 82 25 4 1 6 1 2 ",
    "3 50 63 89 12 37 11 445 1 1 3 11 3 13 3 13 3 13 2 3312 3 317 1 506 6 105 4 95 1 30066 1 12 ",
    "2 1 1 28 2 82 2 14 34 102 3 109 2 202 1 27 18 57 4 36 1 95 1 12 1 36 1 149 3 65 4 51 1 100 ",
    "5 9 3 128 2 20272 1 769 16 270 1 1 1 47 1 45 2 67 1 764 1 1183 6 1 42 1 9 810 2 571 6 469 3 ",
    "70 11 49 4 192 1 41 1 72 2 120 2 62 1 76 1 9 3 104 2 178 2 81 1 16 1 24 7 3 5 205 1 3 1 123 ",
    "2 251 2 126 1 118 2 115 1 269 2 258 2 4 1 156 1 83 1 18 1 81 1 421 1 258 1 1 2 81 1 5807 15 ",
    "13978 5 59 7 1112 17 80 2 16382 4 1 7 1 2 7937 46 2 23 544 3 3 6 8 8 2 7 30 4 3714 62 194 7 ",
    "375 1 61 4 1504 7 109 3 1 3"]

def diacritic : Array Nat := decodeBorders diacriticTable

/-- The signs that lengthen or repeat what stands before them. -/
def extenders : List (Nat × Nat) :=
  [(0xB7, 0xB7), (0x2D0, 0x2D1), (0x640, 0x640), (0x7FA, 0x7FA), (0xB55, 0xB55), (0xE46, 0xE46),
    (0xEC6, 0xEC6), (0x180A, 0x180A), (0x1843, 0x1843), (0x1AA7, 0x1AA7), (0x1C36, 0x1C36),
    (0x1C7B, 0x1C7B), (0x3005, 0x3005), (0x3031, 0x3035), (0x309D, 0x309E), (0x30FC, 0x30FE),
    (0xA015, 0xA015), (0xA60C, 0xA60C), (0xA9CF, 0xA9CF), (0xA9E6, 0xA9E6), (0xAA70, 0xAA70),
    (0xAADD, 0xAADD), (0xAAF3, 0xAAF4), (0xFF70, 0xFF70), (0x10781, 0x10782), (0x1135D, 0x1135D),
    (0x115C6, 0x115C8), (0x11A98, 0x11A98), (0x16B42, 0x16B43), (0x16FE0, 0x16FE1),
    (0x16FE3, 0x16FE3), (0x1E13C, 0x1E13D), (0x1E944, 0x1E946)]

/-- The letters with a dot that a mark above takes the place of. -/
def softDotted : List (Nat × Nat) :=
  [(0x69, 0x6A), (0x12F, 0x12F), (0x249, 0x249), (0x268, 0x268), (0x29D, 0x29D), (0x2B2, 0x2B2),
    (0x3F3, 0x3F3), (0x456, 0x456), (0x458, 0x458), (0x1D62, 0x1D62), (0x1D96, 0x1D96),
    (0x1DA4, 0x1DA4), (0x1DA8, 0x1DA8), (0x1E2D, 0x1E2D), (0x1ECB, 0x1ECB), (0x2071, 0x2071),
    (0x2148, 0x2149), (0x2C7C, 0x2C7C), (0x1D422, 0x1D423), (0x1D456, 0x1D457), (0x1D48A, 0x1D48B),
    (0x1D4BE, 0x1D4BF), (0x1D4F2, 0x1D4F3), (0x1D526, 0x1D527), (0x1D55A, 0x1D55B),
    (0x1D58E, 0x1D58F), (0x1D5C2, 0x1D5C3), (0x1D5F6, 0x1D5F7), (0x1D62A, 0x1D62B),
    (0x1D65E, 0x1D65F), (0x1D692, 0x1D693), (0x1DF1A, 0x1DF1A), (0x1E04C, 0x1E04D),
    (0x1E068, 0x1E068)]

/-- The signs that join consonants. -/
def graphemeLinkTable : String :=
  String.join [
    "2381 1 127 1 127 1 127 1 127 1 127 1 127 1 127 1 109 2 16 1 124 1 111 1 127 1 201 1 180 2 ",
    "1753 2 30 1 157 1 653 1 227 1 101 2 70 2 4491 1 31366 1 37 1 151 1 142 1 108 1 309 1 246 1 ",
    "24145 1 1542 1 41 1 14 1 57 1 121 2 139 1 116 1 180 1 98 1 244 1 127 1 252 1 127 1 118 1 ",
    "116 1 269 1 259 2 161 1 83 1 18 1 81 1 421 1 260 2 81 1 425 2"]

def graphemeLink : Array Nat := decodeBorders graphemeLinkTable

/-- The vowels that are written before the consonants they are spoken after. -/
def logicalOrderExceptions : List (Nat × Nat) :=
  [(0xE40, 0xE44), (0xEC0, 0xEC4), (0x19B5, 0x19B7), (0x19BA, 0x19BA), (0xAAB5, 0xAAB6),
    (0xAAB9, 0xAAB9), (0xAABB, 0xAABC)]

/-- The characters that are no longer to be used. -/
def deprecated : List (Nat × Nat) :=
  [(0x149, 0x149), (0x673, 0x673), (0xF77, 0xF77), (0xF79, 0xF79), (0x17A3, 0x17A4),
    (0x206A, 0x206F), (0x2329, 0x232A), (0xE0001, 0xE0001)]

/-! ## Ideographs -/

/-- The ideographs that are the same in several languages. -/
def unifiedIdeographTable : String :=
  String.join [
    "13312 6592 64 20992 23054 2 1 1 1 2 10 1 1 1 1 2 2 3 67030 42720 32 4154 6 222 2 5762 14 ",
    "7473 5151 4939 5 4192"]

def unifiedIdeograph : Array Nat := decodeBorders unifiedIdeographTable

/-- The parts by which ideographs are listed. -/
def radicals : List (Nat × Nat) :=
  [(0x2E80, 0x2E99), (0x2E9B, 0x2EF3), (0x2F00, 0x2FD5)]

/-- The signs that describe an ideograph by two parts. -/
def binaryDescriptions : List (Nat × Nat) :=
  [(0x2FF0, 0x2FF1), (0x2FF4, 0x2FFB)]

/-- The signs that describe an ideograph by three parts. -/
def ternaryDescriptions : List (Nat × Nat) :=
  [(0x2FF2, 0x2FF3)]

/-! ## Identifiers -/

/-- The characters that start names and are no letters. -/
def otherIdentifierStart : List (Nat × Nat) :=
  [(0x1885, 0x1886), (0x2118, 0x2118), (0x212E, 0x212E), (0x309B, 0x309C)]

/-- The characters inside names that are neither letters, marks, digits nor connectors. -/
def otherIdentifierContinue : List (Nat × Nat) :=
  [(0xB7, 0xB7), (0x387, 0x387), (0x1369, 0x1371), (0x19DA, 0x19DA)]

/-- A letter, letter number or other character that starts names. -/
def isIdentifierStart (c : Char) : Bool :=
  ([.lu, .ll, .lt, .lm, .lo, .nl].contains (Category.of c) && !inRanges patternSyntax c) ||
    inRanges otherIdentifierStart c

def isIdentifierContinue (c : Char) : Bool :=
  isIdentifierStart c || [.mn, .mc, .nd, .pc].contains (Category.of c) || inRanges otherIdentifierContinue c

/-- The characters that would leave a name when it is brought to a common form. -/
def unstableContinue : List (Nat × Nat) :=
  [(0x37A, 0x37A), (0x309B, 0x309C), (0xFC5E, 0xFC63), (0xFDFA, 0xFDFB), (0xFE70, 0xFE70),
    (0xFE72, 0xFE72), (0xFE74, 0xFE74), (0xFE76, 0xFE76), (0xFE78, 0xFE78), (0xFE7A, 0xFE7A),
    (0xFE7C, 0xFE7C), (0xFE7E, 0xFE7E)]

/-- Those that would leave the start of a name, besides. -/
def unstableStart : List (Nat × Nat) :=
  [(0xE33, 0xE33), (0xEB3, 0xEB3), (0xFF9E, 0xFF9F)]

def isStableContinue (c : Char) : Bool := isIdentifierContinue c && !inRanges unstableContinue c

def isStableStart (c : Char) : Bool :=
  isIdentifierStart c && !inRanges unstableContinue c && !inRanges unstableStart c

/-- A character of text: no control, format or unassigned one, nothing that extends another. -/
def isGraphemeBase (c : Char) : Bool :=
  !([.cc, .cf, .cs, .co, .cn, .zl, .zp].contains (Category.of c)) && !isGraphemeExtend c

/-- A code that is kept from being a character. -/
def isNoncharacter (c : Char) : Bool := inRanges [(0xFDD0, 0xFDEF)] c || c.toNat % 0x10000 ≥ 0xFFFE

end LineCensus.Unicode
