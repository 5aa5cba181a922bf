/-!
# Numbers

Every number of a configuration is an IEEE 754 double, integers included:

* **`Number`** keeps sign, biased exponent and fraction; all not-a-numbers are one value;
* **`units?`** reads a finite number exactly, as an integer count of 2⁻¹⁰⁷⁴, the smallest positive
  double. Comparing, testing for a fraction and leaving for the integers are arithmetic on that
  count;
* **`ofRatio`** goes the other way: the double nearest to a ratio, a half going to the even
  significand.
-/

namespace TrafficConfig

/-- How many fractions there are: 2⁵². -/
abbrev fractionCount : Nat := 4503599627370496

/-- An IEEE 754 double: not a number, an infinity, or sign, biased exponent and fraction of a
finite one. -/
inductive Number where
  | nan
  | infinite (negative : Bool)
  | finite (negative : Bool) (exponent : Fin 2047) (fraction : Fin fractionCount)
  deriving DecidableEq

namespace Number

/-! ## Interchange format -/

/-- The number of a 64-bit pattern: sign, eleven exponent bits, 52 fraction bits. -/
def ofBits (bits : Nat) : Number :=
  let negative := bits >>> 63 % 2 = 1
  let exponent := bits >>> 52 % 2048
  let fraction := bits % fractionCount
  if h : exponent < 2047 then .finite negative ⟨exponent, h⟩ (Fin.ofNat fractionCount fraction)
  else if fraction = 0 then .infinite negative
  else .nan

/-- The 64-bit pattern of a number; not-a-number is the quiet one without a payload. -/
def toBits : Number → Nat
  | .nan => 2047 <<< 52 + 1 <<< 51
  | .infinite negative => negative.toNat <<< 63 + 2047 <<< 52
  | .finite negative exponent fraction => negative.toNat <<< 63 + exponent.val <<< 52 + fraction.val

/-! ## Exact value -/

/-- The significand: the fraction, with the implicit leading bit of a normal number. -/
def significand (exponent : Fin 2047) (fraction : Fin fractionCount) : Nat :=
  if exponent.val = 0 then fraction.val else fractionCount + fraction.val

/-- The magnitude of a finite number in units of 2⁻¹⁰⁷⁴. -/
def magnitude (exponent : Fin 2047) (fraction : Fin fractionCount) : Nat :=
  significand exponent fraction <<< (exponent.val - 1)

/-- How many units of 2⁻¹⁰⁷⁴ make one. -/
def unitsPerOne : Nat := 1 <<< 1074

/-- The exact value of a finite number in units of 2⁻¹⁰⁷⁴. -/
def units? : Number → Option Int
  | .finite false exponent fraction => some (magnitude exponent fraction)
  | .finite true exponent fraction => some (-(magnitude exponent fraction : Int))
  | _ => none

/-- Equality of values: the two zeros are equal, and not-a-number differs from itself. -/
def equals : Number → Number → Bool
  | .nan, _ => false
  | _, .nan => false
  | .infinite a, .infinite b => a == b
  | a, b => match a.units?, b.units? with
    | some u, some v => u == v
    | _, _ => false

/-- The order of values; not-a-number is comparable to nothing. -/
def le : Number → Number → Bool
  | .nan, _ => false
  | _, .nan => false
  | .infinite true, _ => true
  | _, .infinite false => true
  | .infinite false, _ => false
  | _, .infinite true => false
  | a, b => match a.units?, b.units? with
    | some u, some v => u ≤ v
    | _, _ => false

/-- The integer that a number is, if it is finite and has no fraction. -/
def toInt? (x : Number) : Option Int :=
  match x.units? with
  | some u => if u % unitsPerOne = 0 then some (u / unitsPerOne) else none
  | none => none

/-- 2⁶³: an integer of 64 bits lies below it, and not below its opposite. -/
def int64Bound : Nat := 1 <<< 63

/-- Whether a number is finite and has no fraction. -/
def isWhole (x : Number) : Bool := x.toInt?.isSome

/-! ## Rounding -/

/-- `num / den` to the nearest natural number, a half going to the even one. -/
def roundHalfEven (num den : Nat) : Nat :=
  let q := num / den
  let r := num % den
  if 2 * r < den then q
  else if den < 2 * r then q + 1
  else if q % 2 = 0 then q else q + 1

/-- The finite number with a biased exponent and a fraction, or the infinity when the exponent is
too large. -/
def assemble (negative : Bool) (exponent fraction : Nat) : Number :=
  if h : exponent < 2047 then .finite negative ⟨exponent, h⟩ (Fin.ofNat fractionCount fraction)
  else .infinite negative

/-- The number nearest to `num / den` units of 2⁻¹⁰⁷⁴, a half going to the even significand. -/
def nearest (negative : Bool) (num den : Nat) : Number :=
  let shift := (num / den).log2 - 52
  let s := roundHalfEven num (den <<< shift)
  if s < fractionCount then assemble negative 0 s
  else if s < 2 * fractionCount then assemble negative (shift + 1) (s - fractionCount)
  else assemble negative (shift + 2) 0

/-- The number nearest to a ratio. -/
def ofRatio (negative : Bool) (num den : Nat) : Number := nearest negative (num * unitsPerOne) den

/-- The number nearest to an integer. -/
def ofInt (z : Int) : Number := ofRatio (z < 0) z.natAbs 1

/-- Zero, with its sign bit clear. -/
def zero : Number := ofInt 0

/-- The number with the opposite sign. -/
def neg : Number → Number
  | .nan => .nan
  | .infinite negative => .infinite (!negative)
  | .finite negative exponent fraction => .finite (!negative) exponent fraction

/-- Whether the sign bit is set; never for not-a-number. -/
def isNegative : Number → Bool
  | .nan => false
  | .infinite negative => negative
  | .finite negative _ _ => negative

/-- A power of ten. -/
def tenTo (k : Nat) : Nat := Nat.pow 10 k

/-- A non-negative number times the double nearest to a power of ten, rounded. -/
def timesPowerOfTen (x : Number) (k : Nat) : Number :=
  match x.units?, (ofInt (tenTo k)).units? with
  | some u, some p => nearest false (u.natAbs * p.natAbs) unitsPerOne
  | _, _ => x

/-- A non-negative number divided by the double nearest to a power of ten, rounded. -/
def overPowerOfTen (x : Number) (k : Nat) : Number :=
  match x.units?, (ofInt (tenTo k)).units? with
  | some u, some p => nearest false (u.natAbs * unitsPerOne) p.natAbs
  | _, _ => x

/-- Whether the number is finite. -/
def isFinite (x : Number) : Bool := x.units?.isSome

end Number

end TrafficConfig
