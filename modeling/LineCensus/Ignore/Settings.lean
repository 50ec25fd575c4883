/-
Where a user's settings of the version control say that an ignore file for all
repositories is kept. Only the line that names it is looked for; sections are not told
apart.
-/
import LineCensus.Ignore.Rule
import LineCensus.Text.Ascii

namespace LineCensus.Ignore.Settings

/-- The value without quotation marks around it. -/
def unquoted (value : List Char) : List Char :=
  let value := if value.head? == some '"' then Text.trimStart value.tail else value
  if value.getLast? == some '"' then Text.trimEnd value.dropLast else value

/-- The path that a line names, which has no blanks in it. -/
def pathIn? (line : List Char) : Option String :=
  let name := "excludesfile"
  let line := Text.trim line
  match line.take name.length, Text.trimStart (line.drop name.length) with
  | found, '=' :: value =>
    let value := unquoted (Text.trimStart value)
    if Text.lower (String.ofList found) == name && !value.isEmpty && !value.any Text.isBlank then
      some (String.ofList value)
    else none
  | _, _ => none

/-- The path that settings name first. -/
def path? (bytes : List UInt8) : Option String :=
  (linesOf bytes).findSome? fun line => (Text.decode? line).bind pathIn?

end LineCensus.Ignore.Settings
