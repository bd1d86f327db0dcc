-- Texts as messages quote them: between double quotes, with everything that
-- could not be seen or would be taken for something else written as an escape.
import DiagramPress.Text.Printable

namespace DiagramPress.Text

/-- A character as it stands between the quotes. -/
def quoteChar (c : Char) : List Char :=
  if c = '\x00' then ['\\', '0']
  else if c = '\t' then ['\\', 't']
  else if c = '\r' then ['\\', 'r']
  else if c = '\n' then ['\\', 'n']
  else if c = '\\' then ['\\', '\\']
  else if c = '\"' then ['\\', '\"']
  else if isPrintable c && !extendsGrapheme c then [c]
  else ['\\', 'u', '\x7b'] ++ Nat.toDigits 16 c.toNat ++ ['\x7d']

/-- The text between quotes. -/
def quoted (text : String) : String :=
  String.ofList ('\"' :: text.toList.flatMap quoteChar ++ ['\"'])

end DiagramPress.Text
