/-
What changes of case do to characters.

Letters are changed unless they are among those that have no counterpart in the other case.
-/
import LineCensus.Unicode.Break

namespace LineCensus.Unicode

/-- The characters in upper case without a counterpart in lower case. -/
def fixedUppercaseTable : String :=
  String.join [
    "978 3 7469 1 4 1 3 3 2 3 2 1 3 5 6 1 3 1 3 2 2 2 1 1 10 2 5 1 111290 26 26 26 26 26 26 1 1 ",
    "2 2 1 2 2 2 4 1 8 26 26 26 2 1 4 2 8 1 7 27 2 1 4 1 5 1 1 3 7 27 26 26 26 26 26 26 26 26 26 ",
    "26 26 30 25 33 25 33 25 33 25 33 25 33 1 6501 26 6 26 6 26"]

def fixedUppercase : Array Nat := decodeBorders fixedUppercaseTable

/-- The characters in lower case without a counterpart in upper case. -/
def fixedLowercaseTable : String :=
  String.join [
    "170 1 15 1 125 1 84 1 13 1 14 2 14 1 3 1 98 1 18 6 27 1 2 1 1 1 2 3 2 1 1 1 2 1 5 2 1 1 2 2 ",
    "1 7 1 2 1 1 2 3 6 5 1 1 1 8 2 26 7 2 30 5 149 1 129 1 355 1 39 1 2931 1 3075 121 1 3 1 16 1 ",
    "49 220 2 1 1 465 1 13 1 16 13 109 1 3 2 3 1 27 1 4 1 4 1 2 2 8 4 2855 1 2 1 2 7 102 1 31159 ",
    "2 146 2 62 9 21 1 6 1 25 1 35 1 1 1 28 3 3 3 821 35 1 7 1 14 23574 1 2 3 1 42 1 9 52319 26 ",
    "26 7 1 18 26 26 26 4 1 1 1 7 1 11 26 26 26 26 26 26 26 26 26 26 26 26 26 26 26 26 26 28 28 ",
    "25 1 6 26 25 1 6 26 25 1 6 26 25 1 6 26 25 1 6 1 1 1844 10 1 20 6 6 261 62"]

def fixedLowercase : Array Nat := decodeBorders fixedLowercaseTable

/-- The characters that upper case changes and title case does not. -/
def fixedTitlecase : List (Nat × Nat) :=
  [(0x1C5, 0x1C5), (0x1C8, 0x1C8), (0x1CB, 0x1CB), (0x1F2, 0x1F2), (0x10D0, 0x10FA),
    (0x10FD, 0x10FF), (0x1F88, 0x1F8F), (0x1F98, 0x1F9F), (0x1FA8, 0x1FAF), (0x1FBC, 0x1FBC),
    (0x1FCC, 0x1FCC), (0x1FFC, 0x1FFC)]

/-- The characters that folding changes though they are not in upper case. -/
def onlyFolded : List (Nat × Nat) :=
  [(0xB5, 0xB5), (0xDF, 0xDF), (0x149, 0x149), (0x17F, 0x17F), (0x345, 0x345), (0x3C2, 0x3C2),
    (0x3D0, 0x3D1), (0x3D5, 0x3D6), (0x3F0, 0x3F1), (0x3F5, 0x3F5), (0x587, 0x587),
    (0x13F8, 0x13FD), (0x1C80, 0x1C88), (0x1E9A, 0x1E9B), (0x1F80, 0x1F87), (0x1F90, 0x1F97),
    (0x1FA0, 0x1FA7), (0x1FB2, 0x1FB4), (0x1FB7, 0x1FB7), (0x1FC2, 0x1FC4), (0x1FC7, 0x1FC7),
    (0x1FF2, 0x1FF4), (0x1FF7, 0x1FF7), (0xAB70, 0xABBF), (0xFB00, 0xFB06), (0xFB13, 0xFB17)]

def isCased (c : Char) : Bool := isLowercase c || isUppercase c || Category.of c == .lt

def isChangedByLowercase (c : Char) : Bool :=
  (isUppercase c || Category.of c == .lt) && !isBetween fixedUppercase c.toNat

def isChangedByUppercase (c : Char) : Bool :=
  (isLowercase c || Category.of c == .lt) && !isBetween fixedLowercase c.toNat

def isChangedByTitlecase (c : Char) : Bool :=
  (isChangedByUppercase c && !inRanges fixedTitlecase c) || [0x1C4, 0x1C7, 0x1CA, 0x1F1].contains c.toNat

/-- Folding leads to small letters, but for one script to capital ones. -/
def isChangedByFolding (c : Char) : Bool :=
  (isChangedByLowercase c && !inRanges [(0x13A0, 0x13F5)] c) || inRanges onlyFolded c

def isChangedByCase (c : Char) : Bool :=
  isChangedByLowercase c || isChangedByUppercase c || isChangedByTitlecase c

/-- A character that the case of its neighbours does not depend on. -/
def isCaseIgnorable (c : Char) : Bool :=
  [.mn, .me, .cf, .lm, .sk].contains (Category.of c) || inRanges midLetters c || inRanges midNumberLetters c ||
    c.val == 0x27

end LineCensus.Unicode
