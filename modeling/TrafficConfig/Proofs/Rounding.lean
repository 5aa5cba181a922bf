import Mathlib.Algebra.Group.Nat.Defs
import TrafficConfig.Proofs.Equality

/-!
# Integers as numbers

A number without a fraction goes to the remote side as an integer, and an integer is read
as the nearest number. Nothing is lost on the way:

* **`nearest_magnitude`** — a magnitude that a finite number has is rounded to that
  number: its leading bit gives back the exponent, and nothing is left over to be rounded;
* **`equals_ofInt_of_toInt?`** — the number nearest to the integer that a number is equals
  the number;
* **`toInt?_ofInt`** — an integer up to 2⁵³ is the number nearest to it, so that it comes
  back as it was;
* **`equals_zero_iff`** — such a number equals zero if and only if the integer is zero.
-/

namespace TrafficConfig.Number

/-- Rounding leaves a ratio alone that is a natural number. -/
theorem roundHalfEven_of_dvd {den s : Nat} (hd : 0 < den) :
    roundHalfEven (s * den) den = s := by
  have hq : s * den / den = s := Nat.mul_div_cancel s hd
  have hr : s * den % den = 0 := Nat.mul_mod_left s den
  rw [roundHalfEven]
  simp only [hq, hr]
  rw [if_pos (by omega)]

private theorem log2_shifted {s k : Nat} (hlo : fractionCount ≤ s)
    (hhi : s < 2 * fractionCount) : (s <<< k).log2 = 52 + k := by
  have hpow : (0 : Nat) < 2 ^ k := Nat.two_pow_pos k
  have hlo' : 2 ^ 52 ≤ s := hlo
  have hhi' : s < 2 ^ 53 := hhi
  rw [Nat.shiftLeft_eq, Nat.log2_eq_iff (Nat.mul_ne_zero (by omega) (by omega)), Nat.pow_add]
  constructor
  · exact Nat.mul_le_mul_right _ hlo'
  · rw [show 52 + k + 1 = 53 + k by omega, Nat.pow_add]
    exact Nat.mul_lt_mul_of_pos_right hhi' hpow

private theorem assemble_of_lt (negative : Bool) (e : Fin 2047) (f : Fin fractionCount) :
    assemble negative e.val f.val = .finite negative e f := by
  rw [assemble, dif_pos e.isLt]
  congr 1
  exact Fin.ext (Nat.mod_eq_of_lt f.isLt)

/-- **A magnitude of a finite number is rounded to that number.** -/
theorem nearest_magnitude (negative : Bool) (e : Fin 2047) (f : Fin fractionCount) :
    nearest negative (magnitude e f) 1 = .finite negative e f := by
  have hf : f.val < fractionCount := f.isLt
  rw [nearest, magnitude, significand]
  by_cases he : e.val = 0
  · -- without a leading bit there is nothing to shift
    have hshift : f.val.log2 - 52 = 0 := by
      by_cases hzero : f.val = 0
      · rw [hzero]
        rfl
      · have hlt : f.val.log2 < 52 := (Nat.log2_lt hzero).mpr hf
        omega
    have hround : roundHalfEven f.val 1 = f.val := by
      have := roundHalfEven_of_dvd (s := f.val) (Nat.lt_succ_self 0)
      rwa [Nat.mul_one] at this
    simp only [he, if_true, Nat.zero_sub, Nat.shiftLeft_zero, Nat.div_one, hshift, hround]
    rw [if_pos hf, show (0 : Nat) = e.val from he.symm, assemble_of_lt]
  · have hs : fractionCount + f.val < 2 * fractionCount := by omega
    -- the leading bit of the significand gives back the exponent
    have hshift : ((fractionCount + f.val) * 2 ^ (e.val - 1)).log2 - 52 = e.val - 1 := by
      rw [← Nat.shiftLeft_eq, log2_shifted (Nat.le_add_right _ _) hs]
      omega
    simp only [he, if_false, Nat.div_one, Nat.shiftLeft_eq, hshift, Nat.one_mul,
      roundHalfEven_of_dvd (Nat.two_pow_pos (e.val - 1))]
    rw [if_neg (by omega), if_pos hs, show e.val - 1 + 1 = e.val by omega,
      Nat.add_sub_cancel_left, assemble_of_lt]

/-- The integer that a finite number is, in units. -/
theorem units_of_toInt? {x : Number} {z : Int} (h : x.toInt? = some z) :
    x.units? = some (z * unitsPerOne) := by
  rw [toInt?] at h
  cases hu : x.units? with
  | none => rw [hu] at h; exact nomatch h
  | some u =>
      rw [hu] at h
      simp only at h
      split at h
      · next hdvd =>
          obtain rfl := Option.some.inj h
          rw [Int.ediv_mul_cancel (Int.dvd_of_emod_eq_zero hdvd)]
      · exact nomatch h

/-- The number nearest to an integer is the integer, if a finite number has its
    magnitude. -/
theorem units?_ofInt {z : Int} {e : Fin 2047} {f : Fin fractionCount}
    (h : z.natAbs * unitsPerOne = magnitude e f) :
    (ofInt z).units? = some (z * unitsPerOne) := by
  rw [ofInt, ofRatio, h, nearest_magnitude, units?_finite, ← h, Int.natCast_mul]
  congr 1
  by_cases hz : z < 0
  · rw [decide_eq_true hz, if_pos rfl, ← Int.neg_mul,
      Int.ofNat_natAbs_of_nonpos (Int.le_of_lt hz), Int.neg_neg]
  · rw [decide_eq_false hz, if_neg Bool.false_ne_true,
      Int.natAbs_of_nonneg (Int.not_lt.mp hz)]

private theorem place?_of_units {x : Number} {u : Int} (h : x.units? = some u) :
    x.place? = some (.inr u) := by
  cases x with
  | nan => exact nomatch h
  | infinite n => exact nomatch h
  | finite n e f =>
      show (units? _).map Sum.inr = _
      rw [h]
      rfl

/-- **The number nearest to the integer that a number is equals the number.** -/
theorem equals_ofInt_of_toInt? {x : Number} {z : Int} (h : x.toInt? = some z) :
    (ofInt z).equals x = true := by
  have hunits := units_of_toInt? h
  have hplace := place?_of_units hunits
  cases x with
  | nan => exact nomatch hunits
  | infinite n => exact nomatch hunits
  | finite n e f =>
      have hsigned : (if n then -(magnitude e f : Int) else magnitude e f) =
          z * unitsPerOne := by
        rw [units?_finite] at hunits
        exact Option.some.inj hunits
      have hmagnitude : z.natAbs * unitsPerOne = magnitude e f := by
        have habs := congrArg Int.natAbs hsigned
        rw [Int.natAbs_mul, Int.natAbs_natCast] at habs
        rw [← habs]
        cases n <;> simp
      exact equals_iff.mpr ⟨_, place?_of_units (units?_ofInt hmagnitude), hplace⟩

/-! ## Integers that are numbers -/

private theorem shifted_bounds {n k : Nat} (hlo : 2 ^ k ≤ n) (hhi : n < 2 ^ (k + 1))
    (hk : k ≤ 52) :
    fractionCount ≤ n * 2 ^ (52 - k) ∧ n * 2 ^ (52 - k) < 2 * fractionCount := by
  have hpow : 2 ^ k * 2 ^ (52 - k) = fractionCount := by
    rw [← Nat.pow_add, show k + (52 - k) = 52 by omega]
  constructor
  · rw [← hpow]
    exact Nat.mul_le_mul_right _ hlo
  · rw [← hpow, ← Nat.mul_assoc, ← Nat.pow_succ']
    exact Nat.mul_lt_mul_of_pos_right hhi (Nat.two_pow_pos _)

/-- Every natural number up to 2⁵³ is the magnitude of a finite number. -/
theorem exists_magnitude {n : Nat} (h : n ≤ 2 ^ 53) :
    ∃ e f, n * unitsPerOne = magnitude e f := by
  by_cases hzero : n = 0
  · rw [hzero]
    exact ⟨0, 0, rfl⟩
  by_cases hlarge : n = 2 ^ 53
  · rw [hlarge]
    exact ⟨1076, 0, by decide +kernel⟩
  -- the leading bit gives the exponent, and the bits behind it the fraction
  have hk : n.log2 ≤ 52 := by
    have := (Nat.log2_lt hzero).mpr (Nat.lt_of_le_of_ne h hlarge)
    omega
  obtain ⟨hlo, hhi⟩ := (Nat.log2_eq_iff hzero).mp rfl
  obtain ⟨hfirst, hlast⟩ := shifted_bounds hlo hhi hk
  refine ⟨⟨1023 + n.log2, by omega⟩, ⟨n * 2 ^ (52 - n.log2) - fractionCount, by omega⟩, ?_⟩
  have hexponent : 52 - n.log2 + (1023 + n.log2 - 1) = 1074 := by omega
  rw [magnitude, significand, if_neg (by simp only; omega), unitsPerOne]
  simp only
  rw [Nat.one_shiftLeft, Nat.add_sub_cancel' hfirst, Nat.shiftLeft_eq, Nat.mul_assoc,
    ← Nat.pow_add, hexponent]

/-- **An integer up to 2⁵³ is the number nearest to it.** -/
theorem toInt?_ofInt {z : Int} (h : z.natAbs ≤ 2 ^ 53) : (ofInt z).toInt? = some z := by
  obtain ⟨e, f, hmagnitude⟩ := exists_magnitude h
  have hpos : (unitsPerOne : Int) ≠ 0 := by decide
  rw [toInt?, units?_ofInt hmagnitude]
  simp only
  rw [if_pos (Int.mul_emod_left z unitsPerOne), Int.mul_ediv_cancel z hpos]

/-- Among the numbers without a fraction, those that equal zero are the integer zero. -/
theorem equals_zero_iff {x : Number} {z : Int} (h : x.toInt? = some z) :
    x.equals (ofInt 0) = true ↔ z = 0 := by
  have hunits := units_of_toInt? h
  have hzero : place? (ofInt 0) = some (.inr 0) := rfl
  have hplace := place?_of_units hunits
  have hpos : (unitsPerOne : Int) ≠ 0 := by decide
  rw [equals_iff, hzero, hplace]
  constructor
  · rintro ⟨q, hq, hq'⟩
    have hprod := Sum.inr.inj (Option.some.inj (hq.trans hq'.symm))
    exact (Int.mul_eq_zero.mp hprod).resolve_right hpos
  · rintro rfl
    exact ⟨.inr 0, by rw [Int.zero_mul], rfl⟩

end TrafficConfig.Number
