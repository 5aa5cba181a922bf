/-!
# Hexadecimal digits

Digits above nine are letters. `number?` reads digits of any base up to sixteen.
-/

namespace TrafficConfig

namespace Text

/-- The digit of a number below sixteen, letters small. -/
def hexDigit (n : Nat) : Char := (Nat.toDigits 16 (n % 16)).headD '0'

/-- The value of a digit, letters of either case. -/
def hexValue? (c : Char) : Option Nat :=
  if c.isDigit then some (c.toNat - '0'.toNat)
  else if 'a' ≤ c && c ≤ 'f' then some (c.toNat - 'a'.toNat + 10)
  else if 'A' ≤ c && c ≤ 'F' then some (c.toNat - 'A'.toNat + 10)
  else none

/-- The last digits of a number, as many as are asked for. -/
def lastDigits (n : Nat) : Nat → List Char
  | 0 => []
  | count + 1 => lastDigits (n / 16) count ++ [hexDigit n]

/-- The number of digits in a base; nothing when one is none. -/
def number? (base : Nat) (digits : List Char) : Option Nat :=
  digits.foldlM (fun n c =>
    (hexValue? c).bind fun d => if d < base then some (n * base + d) else none) 0

end Text

end TrafficConfig
