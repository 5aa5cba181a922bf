import TrafficConfig.Text.Visible

/-!
# Quoted text

A text in a message stands between double quotes. A quote, a backslash, a tab, a carriage return,
a line feed and a NUL are written with a backslash and a letter, any other character that is not
visible as its code point in braces.
-/

namespace TrafficConfig

namespace Text

/-- The digits of a code point in base sixteen. -/
def hexDigits (n : Nat) : List Char := Nat.toDigits 16 n

/-- One character of a quoted text. -/
def quoteChar (c : Char) : List Char :=
  if c = '"' then ['\\', '"']
  else if c = '\\' then ['\\', '\\']
  else if c = '\n' then ['\\', 'n']
  else if c = '\r' then ['\\', 'r']
  else if c = '\t' then ['\\', 't']
  else if c.toNat = 0 then ['\\', '0']
  else if isVisible c then [c]
  else '\\' :: 'u' :: '\x7b' :: hexDigits c.toNat ++ ['\x7d']

/-- The text between double quotes. -/
def quote (s : String) : String := String.ofList ('"' :: s.toList.flatMap quoteChar ++ ['"'])

end Text

end TrafficConfig
