import ServerLink.Text.Printable

/-!
# Quoted text

A text between double quotes, where every character that would not show as itself is escaped.
-/

namespace ServerLink.Text

/-- A character as it is written between double quotes. -/
def quotedChar (c : Char) : String :=
  if c = '"' then "\\\""
  else if c = '\\' then "\\\\"
  else if c = '\x00' then "\\0"
  else if c = '\t' then "\\t"
  else if c = '\n' then "\\n"
  else if c = '\r' then "\\r"
  else if isPrintable c then c.toString
  else "\\u\x7b" ++ String.ofList (Nat.toDigits 16 c.toNat) ++ "\x7d"

/-- The text in double quotes. -/
def quoted (s : String) : String :=
  (s.foldl (fun out c => out ++ quotedChar c) "\"").push '"'

end ServerLink.Text
