import TrafficConfig.Json
import TrafficConfig.Number.Shortest
import TrafficConfig.Text.Hexadecimal

/-!
# The text of a JSON document

Compact text, fields in stored order. In a string only the quote, the backslash and the controls
below U+0020 are escaped; five controls have a letter, the others four hexadecimal digits. A
double that is not finite has no numeral and becomes `null`.
-/

namespace TrafficConfig

namespace Json

/-- One character of a string literal. -/
def escapeChar (c : Char) : List Char :=
  if c = '"' then ['\\', '"']
  else if c = '\\' then ['\\', '\\']
  else if c = '\n' then ['\\', 'n']
  else if c = '\r' then ['\\', 'r']
  else if c = '\t' then ['\\', 't']
  else if c.toNat = 8 then ['\\', 'b']
  else if c.toNat = 12 then ['\\', 'f']
  else if c.toNat < 0x20 then
    ['\\', 'u', '0', '0', Text.hexDigit (c.toNat / 16), Text.hexDigit c.toNat]
  else [c]

/-- A string literal. -/
def literal (s : String) : List Char := '"' :: s.toList.flatMap escapeChar ++ ['"']

/-- The numeral of a double. -/
def numeral (x : Number) : List Char :=
  if x.isFinite then (x.text .document).toList else ['n', 'u', 'l', 'l']

mutual

/-- The characters of a document. -/
def print : Json → List Char
  | .null => ['n', 'u', 'l', 'l']
  | .bool true => ['t', 'r', 'u', 'e']
  | .bool false => ['f', 'a', 'l', 's', 'e']
  | .int z => (toString z).toList
  | .float x => numeral x
  | .string s => literal s
  | .array items => '[' :: (printItems items ++ [']'])
  | .object fields => '\x7b' :: (printFields fields ++ ['\x7d'])

/-- Items with commas between them. -/
def printItems : List Json → List Char
  | [] => []
  | [j] => print j
  | j :: j' :: rest => print j ++ ',' :: printItems (j' :: rest)

/-- Fields with commas between them. -/
def printFields : List (String × Json) → List Char
  | [] => []
  | [(k, j)] => literal k ++ ':' :: print j
  | (k, j) :: e :: rest => literal k ++ ':' :: (print j ++ ',' :: printFields (e :: rest))

end

/-- The text of a document. -/
def text (j : Json) : String := String.ofList j.print

end Json

end TrafficConfig
