/-
A language: how it is called, which files are written in it, and its comments.
-/
import LineCensus.Grammar
import LineCensus.Text.Ascii
import LineCensus.Text.Blank

namespace LineCensus.Language

/-- One entry of a table of languages. -/
structure Definition where
  id : String
  displayName : String := ""
  extensions : List String := []
  fileNames : List String := []
  grammar : Grammar := {}
deriving DecidableEq, Inhabited

/-- What is wrong with a definition. -/
inductive Defect where
  | blankId
  | emptyLineComment
  | emptyBlockDelimiter
  | duplicateId
deriving DecidableEq

/-- The defect in words. -/
def Defect.reason : Defect → String
  | .blankId => "language id must not be empty"
  | .emptyLineComment => "empty line comment prefix"
  | .emptyBlockDelimiter => "empty block comment delimiter"
  | .duplicateId => "duplicate language id"

namespace Definition

/-- The name for reports: the id if there is no other. -/
def label (d : Definition) : String := if d.displayName.isEmpty then d.id else d.displayName

/-- The id as it is compared: the case of ASCII letters does not count. -/
def key (d : Definition) : String := Text.lower d.id

/-- The first defect of a definition taken alone. -/
def defect? (d : Definition) : Option Defect :=
  if (Text.trim d.id.toList).isEmpty then some .blankId
  else if d.grammar.lineComments.any String.isEmpty then some .emptyLineComment
  else if d.grammar.blockComments.any fun b => b.opener.isEmpty || b.closer.isEmpty then
    some .emptyBlockDelimiter
  else none

/-- The extension as it is compared: without dots in front, in small letters. -/
def extensionKey (extension : String) : String :=
  Text.lower (String.ofList (extension.toList.dropWhile (· == '.')))

end Definition

end LineCensus.Language
