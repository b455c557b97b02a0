import TransformStack.Text.Hex
import TransformStack.Text.Visible

/-!
# Quoted text

How messages show a text between quotes, and a list between brackets. A quote and a backslash get
a backslash, four control characters have short forms, and any other character that cannot be
seen is written as its code point.
-/

namespace TransformStack.Text

/-- One character of a quoted text. -/
def quoteChar (c : Char) : List Char :=
  if c = '"' then ['\\', '"']
  else if c = '\\' then ['\\', '\\']
  else if c = '\n' then ['\\', 'n']
  else if c = '\t' then ['\\', 't']
  else if c = '\r' then ['\\', 'r']
  else if c.toNat = 0 then ['\\', '0']
  else if isVisible c then [c]
  else ['\\', 'u', '\x7b'] ++ hex c.toNat ++ ['\x7d']

/-- A text between quotes. -/
def quoted (s : String) : String :=
  String.ofList ('"' :: s.toList.flatMap quoteChar ++ ['"'])

example : quoted "a\"\n\u0001" = "\"a\\\"\\n\\u\x7b1\x7d\"" := by decide +kernel

-- An accent joins the letter before it, and a filler has no form.
example : quoted "e\u0301\u3164é" = "\"e\\u\x7b301\x7d\\u\x7b3164\x7dé\"" := by decide +kernel

/-- Texts between brackets, with commas between them. -/
def bracketed (items : List String) : String :=
  "[" ++ ", ".intercalate items ++ "]"

end TransformStack.Text
