/-
XML elements that hold attributes and other elements, on one line.
-/
namespace LineCensus

/-- An element. -/
inductive Xml where
  | element (name : String) (attributes : List (String × String)) (children : List Xml)
deriving Inhabited

namespace Xml

/-- A character of an attribute. The mark of an entity, the brackets of tags and
the double quote are escaped. -/
def escapeChar (c : Char) : List Char :=
  match c with
  | '&' => "&amp;".toList
  | '<' => "&lt;".toList
  | '>' => "&gt;".toList
  | '"' => "&quot;".toList
  | c => [c]

/-- An attribute with the space before it. -/
def attributeText (name value : String) : String :=
  " " ++ name ++ "=\"" ++ String.ofList (value.toList.flatMap escapeChar) ++ "\""

mutual

/-- An element as text; one without children closes itself. -/
def write : Xml → String
  | .element name attributes children =>
    let head := "<" ++ name ++ String.join (attributes.map fun (k, v) => attributeText k v)
    match children with
    | [] => head ++ "/>"
    | c :: cs => head ++ ">" ++ write c ++ writeAll cs ++ "</" ++ name ++ ">"

/-- Elements one after another. -/
def writeAll : List Xml → String
  | [] => ""
  | x :: xs => write x ++ writeAll xs

end

end Xml

end LineCensus
