import ShortMessage.Text.Escaped
import ShortMessage.Text.Numeral

/-!
# Quoted characters

Messages show a character between single quotes.  The quote itself, the backslash and the four
best known controls have short escapes; the other characters of `escapedRanges` are written as
their code point in braces.
-/

namespace ShortMessage.Quoted

/-- What stands between the quotes for one character. -/
def body (c : Char) : String :=
  if c = '\x00' then "\\0"
  else if c = '\t' then "\\t"
  else if c = '\n' then "\\n"
  else if c = '\r' then "\\r"
  else if c = '\x27' then "\\\x27"
  else if c = '\\' then "\\\\"
  else if isEscaped c then "\\u\x7b" ++ Numeral.hex c.toNat ++ "\x7d"
  else String.ofList [c]

/-- A character in single quotes. -/
def char (c : Char) : String := "\x27" ++ body c ++ "\x27"

end ShortMessage.Quoted
