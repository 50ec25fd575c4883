/-
The comment syntax of a language: the tokens that start a line comment and the
pairs of tokens around a block comment. Both lists are ordered, and what is
found first counts.
-/
namespace LineCensus

/-- The tokens that open and close a block comment. They may be the same text;
then a line's occurrences are counted to tell an opening from a closing. -/
structure BlockDelimiter where
  opener : String
  closer : String
deriving DecidableEq, Inhabited

/-- Whether one text both opens and closes. -/
def BlockDelimiter.isSymmetric (d : BlockDelimiter) : Bool := d.opener == d.closer

/-- The comment syntax of one language. -/
structure Grammar where
  lineComments : List String := []
  blockComments : List BlockDelimiter := []
deriving DecidableEq, Inhabited

/-- Whether no token is empty. An empty token would match every line. -/
def Grammar.hasTokens (g : Grammar) : Bool :=
  g.lineComments.all (!·.isEmpty) && g.blockComments.all fun d => !d.opener.isEmpty && !d.closer.isEmpty

end LineCensus
