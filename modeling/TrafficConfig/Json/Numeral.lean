import TrafficConfig.Json

/-!
# Reading JSON numerals

A numeral without fraction and exponent that fits a 64-bit integer, signed or not, is an integer;
every other numeral is a double. The digits are gathered in 64 bits, those that do not fit are
dropped, and the gathered number is scaled by the double nearest to the power of ten: a numeral
with up to nineteen digits and a small exponent gives the nearest double.
-/

namespace TrafficConfig

namespace Numeral

/-- The parts of a numeral: sign, digits before the point, digits behind it, and the exponent with
its sign. -/
structure Parts where
  negative : Bool
  whole : List Char
  fraction : Option (List Char)
  exponent : Option (Bool × List Char)

/-- The exponent behind the other parts: its mark, a sign or none, and at least one digit. -/
def exponent? : List Char → Option (Option (Bool × List Char))
  | [] => some none
  | mark :: rest =>
    let (down, ds) := match rest with
      | '+' :: ds => (false, ds)
      | '-' :: ds => (true, ds)
      | ds => (false, ds)
    if (mark = 'e' || mark = 'E') && !ds.isEmpty && ds.all Char.isDigit then some (some (down, ds))
    else none

/-- Split a numeral behind its sign at the point and the exponent mark. A superfluous zero in
front, or a part that is announced and has no digit, makes the text no numeral. -/
def unsigned? (negative : Bool) (cs : List Char) : Option Parts :=
  let (whole, cs) := (cs.takeWhile Char.isDigit, cs.dropWhile Char.isDigit)
  let (fraction, cs) := match cs with
    | '.' :: rest => (some (rest.takeWhile Char.isDigit), rest.dropWhile Char.isDigit)
    | _ => (none, cs)
  if whole.isEmpty || (whole.head? = some '0' && whole.length ≠ 1) || fraction = some [] then none
  else (exponent? cs).map fun exponent => { negative, whole, fraction, exponent }

/-- The parts of a numeral. -/
def split? : List Char → Option Parts
  | '-' :: rest => unsigned? true rest
  | cs => unsigned? false cs

/-- The value of a digit. -/
def digitValue (c : Char) : Nat := c.toNat - '0'.toNat

/-- The number of a list of digits. -/
def ofDigits (ds : List Char) : Nat := ds.foldl (fun n c => n * 10 + digitValue c) 0

/-- Gather digits as long as the number fits 64 bits: the number, and the digits left over. -/
def gather (n : Nat) : List Char → Nat × List Char
  | [] => (n, [])
  | c :: rest =>
    if n * 10 + digitValue c < 2 * Number.int64Bound then gather (n * 10 + digitValue c) rest
    else (n, c :: rest)

/-- Divide by powers of ten until the exponent is used up, at most 10³⁰⁸ at a time. -/
def scaleDown (x : Number) (exponent : Nat) : Number :=
  if exponent ≤ 308 then x.overPowerOfTen exponent
  else if x.equals .zero then x
  else scaleDown (x.overPowerOfTen 308) (exponent - 308)
termination_by exponent

/-- A gathered number times a power of ten; nothing when it lies beyond the doubles. -/
def scale (n : Nat) (exponent : Int) : Option Number :=
  let x := Number.ofInt n
  if exponent < 0 then some (scaleDown x (-exponent).toNat)
  else if exponent ≤ 308 then
    let y := x.timesPowerOfTen exponent.toNat
    if y.isFinite then some y else none
  else if n = 0 then some x
  else none

/-- The bounds of the 32-bit integers, in which exponents are counted. -/
def clampExponent (e : Int) : Int := max (-2147483648) (min e 2147483647)

/-- The double of a numeral whose digits are gathered: the number, the exponent so far, and the
written exponent. -/
def float? (negative : Bool) (n : Nat) (shift : Int) (exponent : Option (Bool × List Char)) :
    Option Json :=
  let signed (x : Number) : Json := .float (if negative then x.neg else x)
  match exponent with
  | none => (scale n shift).map signed
  | some (down, ds) =>
    let e := ofDigits ds
    if e > 2147483647 then
      if n ≠ 0 && !down then none else some (signed .zero)
    else (scale n (clampExponent (if down then shift - e else shift + e))).map signed

/-- The document of a numeral's parts. -/
def Parts.value? (p : Parts) : Option Json :=
  let (n, dropped) := gather 0 p.whole
  match p.fraction, p.exponent, dropped with
  | none, none, [] =>
    if !p.negative then some (.int n)
    else if n = 0 || n > Number.int64Bound then some (.float (Number.ofInt n).neg)
    else some (.int (-(n : Int)))
  | none, e, _ => float? p.negative n dropped.length e
  | some ds, e, _ =>
    let (n, rest) := gather n ds
    float? p.negative n ((dropped.length : Int) - (ds.length - rest.length : Nat)) e

end Numeral

/-- The document of a numeral; nothing when the text is no numeral or lies beyond the doubles. -/
def Json.ofNumeral? (cs : List Char) : Option Json := (Numeral.split? cs).bind Numeral.Parts.value?

end TrafficConfig
