import PropertyGraph.Check.Visible

/-!
# Quoted texts

A text between double quotes in which everything can be read off the page: the
quote, the backslash and the commonest controls have short escapes, and whatever
else is not visible is given by its code point in lower-case hexadecimal.
-/

namespace PropertyGraph

/-- A character inside double quotes. -/
def quotedChar (c : Char) : String :=
  if c = '"' then "\\\""
  else if c = '\\' then "\\\\"
  else if c = '\n' then "\\n"
  else if c = '\r' then "\\r"
  else if c = '\t' then "\\t"
  else if c = '\x00' then "\\0"
  else if isVisible c then c.toString
  else "\\u\x7b" ++ String.ofList (Nat.toDigits 16 c.toNat) ++ "\x7d"

/-- A text in double quotes. -/
def quoted (text : String) : String :=
  "\"" ++ String.join (text.toList.map quotedChar) ++ "\""

end PropertyGraph
