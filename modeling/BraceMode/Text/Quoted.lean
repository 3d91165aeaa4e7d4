import BraceMode.Text.Hidden

/-! A text in double quotes, as error reports show it: quotes, backslashes and line controls by their short
escapes, other characters that cannot be seen by their code point. -/

namespace BraceMode.Text

/-- The code point of a character in lower-case hexadecimal, between braces. -/
def codeEscape (c : Char) : String :=
  "\\u\x7b" ++ String.ofList (Nat.toDigits 16 c.toNat) ++ "\x7d"

def escapeChar (c : Char) : String :=
  if c = '\x00' then "\\0"
  else if c = '\t' then "\\t"
  else if c = '\r' then "\\r"
  else if c = '\n' then "\\n"
  else if c = '\x22' then "\\\""
  else if c = '\\' then "\\\\"
  else if isHidden c then codeEscape c
  else c.toString

def quoted (s : String) : String :=
  "\"" ++ String.join (s.toList.map escapeChar) ++ "\""

end BraceMode.Text
