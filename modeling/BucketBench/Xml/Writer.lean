import BucketBench.Text.Blank

set_option autoImplicit false

/-!
# Writing XML

Elements without any blank between them. In texts the characters with a meaning of their own and the ends of
lines are written as references, and every other character as it is.
-/

namespace BucketBench.Xml

def escapeChar : Char → List Char
  | '&' => "&amp;".toList
  | '<' => "&lt;".toList
  | '>' => "&gt;".toList
  | '"' => "&quot;".toList
  | '\'' => "&apos;".toList
  | '\n' => "&#xA;".toList
  | '\r' => "&#xD;".toList
  | c => [c]

def escape (s : String) : String := String.ofList (s.toList.flatMap escapeChar)

def around (name inside : String) : String := "<" ++ name ++ ">" ++ inside ++ "</" ++ name ++ ">"

def branch (name : String) (inside : List String) : String := around name (String.join inside)

def leaf (name text : String) : String := around name (escape text)

/-- A document: its root says which vocabulary its names belong to. -/
def document (vocabulary name : String) (inside : List String) : String :=
  "<" ++ name ++ " xmlns=\"" ++ vocabulary ++ "\">" ++ String.join inside ++ "</" ++ name ++ ">"

end BucketBench.Xml
