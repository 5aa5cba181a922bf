/-!
# Punycode

The labels of a domain beyond ASCII travel as ASCII. The characters of ASCII come first; behind
the last hyphen follow numbers in base 36, one for each other character: how far to count on to
its place and its code point.

* **`digit`** is one step; **`decode?`** runs over a label.
-/

namespace TrafficConfig

namespace Punycode

/-- What was decoded, and what was read of the next number. -/
structure State where
  decoded : List Char
  /-- The code point and the place that were reached. -/
  code : Nat
  place : Nat
  /-- How long the next number is thought to be. -/
  bias : Nat
  /-- The next number so far, the weight of its next digit, and the position of that digit times
  36. -/
  number : Nat
  weight : Nat
  position : Nat

/-- The state behind the characters of ASCII. -/
def State.start (decoded : List Char) : State :=
  { decoded, code := 128, place := 0, bias := 72, number := 0, weight := 1, position := 36 }

/-- The value of a digit. -/
def digit? (c : Char) : Option Nat :=
  if c.isLower then some (c.toNat - 'a'.toNat)
  else if c.isUpper then some (c.toNat - 'A'.toNat)
  else if c.isDigit then some (c.toNat - '0'.toNat + 26)
  else none

/-- A digit below the threshold is the last one of its number. -/
def threshold (position bias : Nat) : Nat := max 1 (min 26 (position - bias))

/-- Divide until the quotient is small, counting by 36. -/
def scale (delta count : Nat) : Nat × Nat :=
  if 455 < delta then scale (delta / 35) (count + 36) else (delta, count)
termination_by delta

/-- The bias behind a number, when so many characters are decoded. -/
def adapt (number count : Nat) (first : Bool) : Nat :=
  let delta := if first then number / 700 else number / 2
  let (delta, steps) := scale (delta + delta / count) 0
  steps + 36 * delta / (delta + 38)

/-- Put a character at a place. -/
def insertAt (decoded : List Char) (place : Nat) (c : Char) : List Char :=
  decoded.take place ++ c :: decoded.drop place

/-- A number is complete: count on, and put in the character that was reached. -/
def State.complete (s : State) (number : Nat) : Option State :=
  let count := s.decoded.length + 1
  let reached := s.place + number
  let code := s.code + reached / count
  let place := reached % count
  if h : code.isValidChar then
    some { decoded := insertAt s.decoded place (Char.ofNatAux code h), code, place := place + 1,
           bias := adapt number count (s.place = 0), number := 0, weight := 1, position := 36 }
  else none

/-- One digit. -/
def State.feed (s : State) (c : Char) : Option State :=
  (digit? c).bind fun d =>
    let number := s.number + d * s.weight
    let t := threshold s.position s.bias
    if d < t then s.complete number
    else some { s with number, weight := s.weight * (36 - t), position := s.position + 36 }

/-- The characters of ASCII before the last hyphen, and the digits behind it. A hyphen at the
front belongs to the digits. -/
def split (label : List Char) : List Char × List Char :=
  match label.reverse.span (· ≠ '-') with
  | (digits, _ :: c :: basic) => ((c :: basic).reverse, digits.reverse)
  | _ => ([], label)

/-- The characters that a label stands for, its mark apart. -/
def decode? (label : List Char) : Option (List Char) :=
  let (basic, digits) := split label
  (digits.foldlM State.feed (State.start basic)).bind fun s =>
    if s.position = 36 then some s.decoded else none

end Punycode

end TrafficConfig
