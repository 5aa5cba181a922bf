import TrafficConfig.Text.Utf8

/-!
# Base64

Three bytes are written as four characters; two or one at the end are filled up with equals signs.
-/

namespace TrafficConfig

namespace Text

/-- The character of six bits. -/
def base64Char (n : Nat) : Char :=
  if n < 26 then Char.ofNat (n + 'A'.toNat)
  else if n < 52 then Char.ofNat (n - 26 + 'a'.toNat)
  else if n < 62 then Char.ofNat (n - 52 + '0'.toNat)
  else if n = 62 then '+'
  else '/'

/-- The first characters of 24 bits. -/
def base64Group (n count : Nat) : List Char :=
  [base64Char (n >>> 18), base64Char (n >>> 12 % 64), base64Char (n >>> 6 % 64),
    base64Char (n % 64)].take count

/-- The characters of bytes. -/
def base64Bytes : List UInt8 → List Char
  | [] => []
  | [a] => base64Group (a.toNat <<< 16) 2 ++ ['=', '=']
  | [a, b] => base64Group (a.toNat <<< 16 + b.toNat <<< 8) 3 ++ ['=']
  | a :: b :: c :: rest =>
    base64Group (a.toNat <<< 16 + b.toNat <<< 8 + c.toNat) 4 ++ base64Bytes rest

/-- The Base64 form of a text. -/
def base64 (s : String) : String := String.ofList (base64Bytes (utf8 s))

end Text

end TrafficConfig
