import TrafficConfig.Number

/-!
# Numbers as shortest decimals

The text of a number has the fewest digits that read back as the same number, and of the texts
with so few digits the one nearest to the number:

* **`Rounding`** is the interval of reals that round to a number, in exact integers;
* **`shortestDigits`** tries the two neighbours of the number on the grids of one, two, …
  seventeen digits;
* **`Style`** holds what the digits do not decide: where a tie goes, which numbers are written
  without an exponent, and how a whole number is marked. `Style.plain` is the style of messages,
  `Style.document` that of JSON documents.
-/

namespace TrafficConfig

namespace Number

/-- The reals that round to a positive finite number: the number itself and the ends of its
interval, counted in quarters of 2⁻¹⁰⁷⁴. The ends belong to the interval when the significand is
even. -/
structure Rounding where
  value : Nat
  low : Nat
  high : Nat
  closed : Bool

/-- Below a power of two the doubles are twice as dense, so the lower end is nearer there. -/
def Rounding.of (exponent : Fin 2047) (fraction : Fin fractionCount) : Rounding :=
  let step := 1 <<< (exponent.val - 1)
  let value := 4 * magnitude exponent fraction
  { value
    low := value - if fraction.val = 0 ∧ 1 < exponent.val then step else 2 * step
    high := value + 2 * step
    closed := significand exponent fraction % 2 = 0 }

/-- Quarters of 2⁻¹⁰⁷⁴ in one. -/
def quartersPerOne : Nat := 4 * unitsPerOne

/-- Digits with a power of ten as a ratio of quarters. -/
def gridPoint (digits : Nat) (exponent : Int) : Nat × Nat :=
  if 0 ≤ exponent then (digits * tenTo exponent.toNat * quartersPerOne, 1)
  else (digits * quartersPerOne, tenTo (-exponent).toNat)

/-- Whether a decimal rounds to the number. -/
def Rounding.contains (r : Rounding) (digits : Nat) (exponent : Int) : Bool :=
  let (num, den) := gridPoint digits exponent
  if r.closed then r.low * den ≤ num && num ≤ r.high * den
  else r.low * den < num && num < r.high * den

/-- How many decimal digits stand before the point; not positive for numbers below one tenth. -/
def Rounding.point (r : Rounding) : Int :=
  (Nat.toDigits 10 (r.value * tenTo 330 / quartersPerOne)).length - 330

/-- What the digits of a number do not decide about its text. -/
structure Style where
  /-- Of two shortest decimals equally near to the number, take the greater one, or else the even
  one. -/
  tieUp : Bool
  /-- The positions of the point for which no exponent is written. -/
  positional : Int → Bool
  /-- What follows a whole number. -/
  wholeMark : String

/-- Messages: a tie goes up, never an exponent, whole numbers bare. -/
def Style.plain : Style := ⟨true, fun _ => true, ""⟩

/-- JSON documents: a tie goes to the even digit, exponents below 10⁻⁵ and from 10¹⁶ on with their
sign, whole numbers with `.0`. -/
def Style.document : Style := ⟨false, fun point => -5 < point && point ≤ 16, ".0"⟩

/-- The decimal with this many digits that rounds to the number and is nearest to it, if there is
one. -/
def Rounding.digits? (tieUp : Bool) (r : Rounding) (count : Nat) : Option (Nat × Int) :=
  let exponent := r.point - count
  let (unit, den) := gridPoint 1 exponent
  let below := r.value * den / unit
  match r.contains below exponent, r.contains (below + 1) exponent with
  | false, false => none
  | true, false => some (below, exponent)
  | false, true => some (below + 1, exponent)
  | true, true =>
    let twice := 2 * r.value * den
    let middle := (2 * below + 1) * unit
    let up := if twice = middle then tieUp || below % 2 = 1 else middle < twice
    some (if up then below + 1 else below, exponent)

/-- The shortest decimal that rounds to the number: its digits without trailing zeros, and the
position of the point. -/
def shortestDigits (tieUp : Bool) (r : Rounding) : List Char × Int :=
  let (digits, exponent) :=
    ((List.range 17).findSome? fun i => r.digits? tieUp (i + 1)).getD (r.value / quartersPerOne, 0)
  let text := Nat.toDigits 10 digits
  ((text.reverse.dropWhile (· = '0')).reverse, text.length + exponent)

/-- Digits with the point at a position, or with an exponent where the style wants one. -/
def Style.layout (style : Style) (digits : List Char) (point : Int) : String :=
  let count : Int := digits.length
  if style.positional point then
    if point ≤ 0 then "0." ++ String.ofList (List.replicate (-point).toNat '0' ++ digits)
    else if count ≤ point then
      String.ofList (digits ++ List.replicate (point - count).toNat '0') ++ style.wholeMark
    else String.ofList (digits.take point.toNat) ++ "." ++ String.ofList (digits.drop point.toNat)
  else
    let rest := digits.drop 1
    String.ofList (digits.take 1) ++ (if rest.isEmpty then "" else "." ++ String.ofList rest) ++
      (if 0 < point then "e+" else "e") ++ toString (point - 1)

/-- The text of a number in a style. -/
def text (style : Style) : Number → String
  | .nan => "NaN"
  | .infinite negative => if negative then "-inf" else "inf"
  | .finite negative exponent fraction =>
    let sign := if negative then "-" else ""
    if magnitude exponent fraction = 0 then sign ++ "0" ++ style.wholeMark
    else
      let (digits, point) := shortestDigits style.tieUp (Rounding.of exponent fraction)
      sign ++ style.layout digits point

/-- The text of a number in a message. -/
def display (x : Number) : String := x.text .plain

end Number

end TrafficConfig
