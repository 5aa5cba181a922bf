import TrafficConfig.Text.Hexadecimal
import TrafficConfig.Text.Utf8

/-!
# Percent encoding

A byte that may not stand for itself is written as a percent sign and two hexadecimal digits,
letters large. A name is encoded so that nothing in it can be taken for a part of a URL; a path or
a query keeps what has a meaning in it.
-/

namespace TrafficConfig

namespace Percent

/-- The escape of a byte. -/
def escape (b : UInt8) : List Char :=
  ['%', (Text.hexDigit (b.toNat / 16)).toUpper, (Text.hexDigit b.toNat).toUpper]

/-- Bytes with escapes for all but those to keep, which are ASCII. -/
def encodeBytes (keep : UInt8 → Bool) (bytes : List UInt8) : List Char :=
  bytes.flatMap fun b => if keep b then [Char.ofNat b.toNat] else escape b

/-- A character of ASCII as a byte. -/
def isByte (b : UInt8) (c : Char) : Bool := b.toNat = c.toNat

/-- Letters, digits, hyphen, underscore, point and tilde. -/
def isUnreserved (b : UInt8) : Bool :=
  (Char.ofNat b.toNat).isAlphanum && b < 0x80 || ['-', '_', '.', '~'].any (isByte b)

/-- A name as one segment of a path. -/
def encodeName (name : String) : String := String.ofList (encodeBytes isUnreserved (Text.utf8 name))

/-- The visible characters of ASCII, some apart. -/
def keepsAllBut (escaped : List Char) (b : UInt8) : Bool :=
  0x20 < b && b < 0x7F && !escaped.any (isByte b)

/-- A path. -/
def encodePath (cs : List Char) : List Char :=
  encodeBytes (keepsAllBut ['"', '<', '>', '`', '#', '?', '\x7b', '\x7d'])
    (Text.utf8 (String.ofList cs))

/-- A query. -/
def encodeQuery (cs : List Char) : List Char :=
  encodeBytes (keepsAllBut ['"', '<', '>', '#', '\'']) (Text.utf8 (String.ofList cs))

/-- The bytes that characters with escapes stand for; a percent sign that begins no escape stands
for itself. -/
def decode : List Char → List UInt8
  | [] => []
  | [c] => String.utf8EncodeChar c
  | [c, d] => String.utf8EncodeChar c ++ String.utf8EncodeChar d
  | c :: a :: b :: rest =>
    match c, Text.hexValue? a, Text.hexValue? b with
    | '%', some high, some low => UInt8.ofNat (16 * high + low) :: decode rest
    | _, _, _ => String.utf8EncodeChar c ++ decode (a :: b :: rest)

end Percent

end TrafficConfig
