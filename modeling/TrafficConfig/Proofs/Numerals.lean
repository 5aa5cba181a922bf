import Mathlib.Data.List.TakeWhile
import TrafficConfig.Json.Numeral

/-!
# Numerals

A numeral is a sign or none, a whole part, and perhaps a fraction and an exponent
(**`IsNumeral`**). A text is split into parts exactly when it is one
(**`isSome_split?_iff`**). The text of an integer is a sign and its digits in base ten:

* **`head?_toDigits_ne_zero`** — no digits of a positive number start with a zero, so they
  are the parts of a numeral (**`split?_toDigits`**);
* **`gather_toDigits`** — the digits of a number that fits 64 bits are gathered to this
  number;
* **`ofNumeral?_toString`** — an integer that fits 64 bits, signed or not, is read from its
  text.
-/

namespace TrafficConfig.Numeral

/-! ## Which texts are numerals -/

/-- One digit or more. -/
def Digits (ds : List Char) : Prop := ds ≠ [] ∧ ∀ d ∈ ds, d.isDigit = true

/-- The whole part of a numeral: digits, without a superfluous zero in front. -/
def IsWhole (ds : List Char) : Prop := Digits ds ∧ (ds.head? = some '0' → ds.length = 1)

/-- The fraction of a numeral, if it has one: a point and digits. -/
inductive IsFraction : List Char → Prop
  | none : IsFraction []
  | some {ds : List Char} (h : Digits ds) : IsFraction ('.' :: ds)

/-- The exponent of a numeral, if it has one: its mark, a sign or none, and digits. -/
inductive IsExponent : List Char → Prop
  | none : IsExponent []
  | some {mark : Char} {sign ds : List Char} (hmark : mark = 'e' ∨ mark = 'E')
      (hsign : sign = [] ∨ sign = ['+'] ∨ sign = ['-']) (h : Digits ds) :
      IsExponent (mark :: (sign ++ ds))

/-- A numeral: a minus sign or none, and its parts. -/
inductive IsNumeral : List Char → Prop
  | of {sign whole fraction exponent : List Char} (hsign : sign = [] ∨ sign = ['-'])
      (hwhole : IsWhole whole) (hfraction : IsFraction fraction)
      (hexponent : IsExponent exponent) :
      IsNumeral (sign ++ (whole ++ (fraction ++ exponent)))

/-- What comes first is taken, up to where something else follows. -/
theorem takeWhile_front {p : Char → Bool} {piece rest : List Char}
    (hpiece : ∀ c ∈ piece, p c = true) (hrest : ∀ c ∈ rest.head?, p c = false) :
    (piece ++ rest).takeWhile p = piece ∧ (piece ++ rest).dropWhile p = rest := by
  rw [List.takeWhile_append_of_pos hpiece, List.dropWhile_append_of_pos hpiece]
  cases rest with
  | nil => exact ⟨List.append_nil piece, rfl⟩
  | cons c rest =>
      have hc : ¬ p c = true := ne_true_of_eq_false (hrest c rfl)
      rw [List.takeWhile_cons_of_neg hc, List.dropWhile_cons_of_neg hc]
      exact ⟨List.append_nil piece, rfl⟩

private theorem digits_iff {ds : List Char} :
    (!ds.isEmpty && ds.all Char.isDigit) = true ↔ Digits ds := by
  rw [Digits, Bool.and_eq_true, List.all_eq_true]
  simp

private theorem Digits.ne_cons {ds : List Char} (h : Digits ds) {c : Char}
    (hc : c.isDigit = false) (rest : List Char) : ds ≠ c :: rest := by
  rintro rfl
  exact Bool.false_ne_true (hc.symm.trans (h.2 c List.mem_cons_self))

/-- **An exponent is read exactly from the text of one.** -/
theorem isSome_exponent?_iff {cs : List Char} : (exponent? cs).isSome = true ↔ IsExponent cs := by
  constructor
  · intro h
    unfold exponent? at h
    split at h
    · exact .none
    next mark rest =>
    split at h
    next down ds hsplit =>
    split at h
    · next hgood =>
        rw [Bool.and_assoc, Bool.and_eq_true, digits_iff] at hgood
        obtain ⟨hmark, hds⟩ := hgood
        have hmark : mark = 'e' ∨ mark = 'E' := by simpa using hmark
        split at hsplit <;> obtain ⟨rfl, rfl⟩ := hsplit
        · exact .some hmark (.inr (.inl rfl)) hds
        · exact .some hmark (.inr (.inr rfl)) hds
        · exact .some hmark (.inl rfl) hds
    · exact nomatch h
  · intro h
    cases h with
    | none => rfl
    | @some mark sign ds hmark hsign hds =>
        have hgood : ((mark = 'e' || mark = 'E') && !ds.isEmpty && ds.all Char.isDigit) = true := by
          rw [Bool.and_assoc, Bool.and_eq_true, digits_iff]
          exact ⟨by simpa using hmark, hds⟩
        rcases hsign with rfl | rfl | rfl
        · rw [List.nil_append, exponent?, if_pos hgood]
          · rfl
          · exact fun rest => hds.ne_cons rfl rest
          · exact fun rest => hds.ne_cons rfl rest
        · show (exponent? (mark :: '+' :: ds)).isSome = true
          rw [exponent?, if_pos hgood]
          rfl
        · show (exponent? (mark :: '-' :: ds)).isSome = true
          rw [exponent?, if_pos hgood]
          rfl

/-- The parts behind the sign are split exactly where they meet. -/
theorem isSome_unsigned?_iff {negative : Bool} {cs : List Char} :
    (unsigned? negative cs).isSome = true ↔ ∃ whole fraction exponent, IsWhole whole ∧
      IsFraction fraction ∧ IsExponent exponent ∧ cs = whole ++ (fraction ++ exponent) := by
  constructor
  · intro h
    unfold unsigned? at h
    split at h
    next whole behind hsplit =>
    obtain ⟨rfl, rfl⟩ := hsplit
    split at h
    next fraction rest hpoint =>
    split at h
    · exact nomatch h
    next hgood =>
    rw [Option.isSome_map, isSome_exponent?_iff] at h
    simp only [Bool.or_eq_true, Bool.and_eq_true, decide_eq_true_eq, List.isEmpty_iff,
      not_or, not_and, Decidable.not_not] at hgood
    obtain ⟨⟨hne, hzero⟩, hnonempty⟩ := hgood
    have htaken : ∀ ds : List Char, ∀ d ∈ ds.takeWhile Char.isDigit, d.isDigit = true :=
      fun ds d hd => List.mem_takeWhile_imp hd
    refine ⟨cs.takeWhile Char.isDigit, ?_⟩
    split at hpoint
    · next after heq =>
        obtain ⟨rfl, rfl⟩ := hpoint
        have hds : after.takeWhile Char.isDigit ≠ [] :=
          fun hnil => hnonempty (congrArg some hnil)
        refine ⟨_, _, ⟨⟨hne, htaken cs⟩, hzero⟩, .some ⟨hds, htaken after⟩, h, ?_⟩
        rw [List.cons_append, List.takeWhile_append_dropWhile, ← heq,
          List.takeWhile_append_dropWhile]
    · obtain ⟨rfl, rfl⟩ := hpoint
      refine ⟨[], _, ⟨⟨hne, htaken cs⟩, hzero⟩, .none, h, ?_⟩
      rw [List.nil_append, List.takeWhile_append_dropWhile]
  · rintro ⟨whole, fraction, exponent, hwhole, hfraction, hexponent, rfl⟩
    -- no part goes on with what begins the next one
    have hmark : ∀ c ∈ exponent.head?, c.isDigit = false ∧ c ≠ '.' := by
      cases hexponent with
      | none => exact nofun
      | some hmark _ _ =>
          rintro c ⟨⟩
          rcases hmark with rfl | rfl <;> decide
    have hpoint : ∀ c ∈ (fraction ++ exponent).head?, c.isDigit = false := by
      cases hfraction with
      | none => exact fun c hc => (hmark c hc).1
      | some _ =>
          rintro c ⟨⟩
          rfl
    obtain ⟨htake, hdrop⟩ := takeWhile_front hwhole.1.2 hpoint
    have hgood : (whole.isEmpty || (whole.head? = some '0' && whole.length ≠ 1)) = false := by
      rw [Bool.or_eq_false_iff, Bool.and_eq_false_imp]
      refine ⟨List.isEmpty_eq_false_iff.mpr hwhole.1.1, fun hhead => ?_⟩
      exact decide_eq_false (not_not.mpr (hwhole.2 (of_decide_eq_true hhead)))
    have hafter : (exponent? exponent).isSome = true := isSome_exponent?_iff.mpr hexponent
    rw [unsigned?]
    simp only [htake, hdrop]
    cases hfraction with
    | none =>
        rw [List.nil_append]
        split
        · exact absurd rfl (hmark '.' rfl).2
        · rw [if_neg (by rw [hgood]; simp), Option.isSome_map]
          exact hafter
    | @some ds hds =>
        obtain ⟨hfront, hbehind⟩ := takeWhile_front hds.2 fun c hc => (hmark c hc).1
        rw [List.cons_append]
        simp only [hfront, hbehind]
        rw [if_neg (by rw [hgood]; simpa using hds.1), Option.isSome_map]
        exact hafter

/-- **A text is split exactly when it is a numeral.** -/
theorem isSome_split?_iff {cs : List Char} : (split? cs).isSome = true ↔ IsNumeral cs := by
  constructor
  · intro h
    unfold split? at h
    split at h
    · obtain ⟨whole, fraction, exponent, hwhole, hfraction, hexponent, rfl⟩ :=
        isSome_unsigned?_iff.mp h
      exact .of (.inr rfl) hwhole hfraction hexponent
    · obtain ⟨whole, fraction, exponent, hwhole, hfraction, hexponent, rfl⟩ :=
        isSome_unsigned?_iff.mp h
      exact .of (.inl rfl) hwhole hfraction hexponent
  · rintro ⟨hsign, hwhole, hfraction, hexponent⟩
    next sign whole fraction exponent =>
    have hparts : ∀ negative,
        (unsigned? negative (whole ++ (fraction ++ exponent))).isSome = true := fun negative =>
      isSome_unsigned?_iff.mpr ⟨_, _, _, hwhole, hfraction, hexponent, rfl⟩
    rcases hsign with rfl | rfl
    · rw [List.nil_append, split?]
      · exact hparts false
      · intro rest heq
        obtain ⟨d, ds, rfl⟩ := List.exists_cons_of_ne_nil hwhole.1.1
        obtain ⟨rfl, -⟩ := List.cons.inj heq
        exact hwhole.1.ne_cons rfl ds rfl
    · exact hparts true

/-! ## Integers -/

/-- The digits of a positive number do not start with a zero. -/
theorem head?_toDigits_ne_zero {n : Nat} (h : 0 < n) : (Nat.toDigits 10 n).head? ≠ some '0' := by
  induction n using Nat.strongRecOn with
  | _ n ih =>
      rw [Nat.toDigits_eq_if (by decide)]
      split
      · next hlt =>
          have hdigit : ∀ d < 10, 0 < d → [Nat.digitChar d].head? ≠ some '0' := by decide
          exact hdigit n hlt h
      · next hge =>
          have hdiv : 0 < n / 10 := Nat.div_pos (Nat.not_lt.mp hge) (by decide)
          have hfirst := ih (n / 10) (Nat.div_lt_self h (by decide)) hdiv
          rw [List.head?_eq_some_head Nat.toDigits_ne_nil] at hfirst
          rwa [List.head?_append, List.head?_eq_some_head Nat.toDigits_ne_nil, Option.some_or]

/-- The decimal text of a number has digits only. -/
theorem isDigit_toDigits (n : Nat) : ∀ c ∈ Nat.toDigits 10 n, c.isDigit = true :=
  fun _ hc => Nat.isDigit_of_mem_toDigits (by decide) (by decide) hc

/-- Digits are the parts of a numeral without fraction and exponent. -/
theorem split?_toDigits (negative : Bool) (n : Nat) :
    split? ((if negative then ['-'] else []) ++ Nat.toDigits 10 n) =
      some ⟨negative, Nat.toDigits 10 n, none, none⟩ := by
  have hall := isDigit_toDigits n
  have htake : (Nat.toDigits 10 n).takeWhile Char.isDigit = Nat.toDigits 10 n :=
    List.takeWhile_eq_self_iff.mpr hall
  have hdrop : (Nat.toDigits 10 n).dropWhile Char.isDigit = [] :=
    List.dropWhile_eq_nil_iff.mpr hall
  have hnonempty : (Nat.toDigits 10 n).isEmpty = false :=
    List.isEmpty_eq_false_iff.mpr Nat.toDigits_ne_nil
  have hzero : ¬ ((Nat.toDigits 10 n).head? = some '0' ∧ (Nat.toDigits 10 n).length ≠ 1) := by
    rintro ⟨hhead, hlength⟩
    rcases Nat.eq_zero_or_pos n with rfl | hpos
    · exact hlength rfl
    · exact head?_toDigits_ne_zero hpos hhead
  have hparts : unsigned? negative (Nat.toDigits 10 n) =
      some ⟨negative, Nat.toDigits 10 n, none, none⟩ := by
    rw [unsigned?]
    simp only [htake, hdrop, hnonempty]
    rw [if_neg (by simpa using hzero)]
    rfl
  cases negative with
  | true => exact hparts
  | false =>
      show split? (Nat.toDigits 10 n) = _
      rw [split?]
      · exact hparts
      · intro rest hdigits
        rw [hdigits] at hall
        exact absurd (hall '-' List.mem_cons_self) (by decide)

/-- A number with one digit more. -/
private abbrev push (n : Nat) (c : Char) : Nat := n * 10 + digitValue c

private theorem le_foldl_push (ds : List Char) (n : Nat) : n ≤ ds.foldl push n := by
  induction ds generalizing n with
  | nil => exact Nat.le_refl n
  | cons c rest ih => exact Nat.le_trans (by simp only [push]; omega) (ih (push n c))

private theorem gather_of_lt {ds : List Char} {n : Nat}
    (h : ds.foldl push n < 2 * Number.int64Bound) : gather n ds = (ds.foldl push n, []) := by
  induction ds generalizing n with
  | nil => rfl
  | cons c rest ih =>
      rw [List.foldl_cons] at h
      rw [gather, if_pos (Nat.lt_of_le_of_lt (le_foldl_push rest (push n c)) h)]
      exact ih h

/-- Digits stand for the number that they are the digits of. -/
theorem ofDigits_toDigits (n : Nat) : ofDigits (Nat.toDigits 10 n) = n := by
  have h := Nat.ofDigitChars_toDigits (b := 10) (n := n) (by decide) (by decide)
  rw [Nat.ofDigitChars_eq_foldl] at h
  rw [ofDigits]
  simpa only [digitValue, Nat.mul_comm] using h

/-- **The digits of a number that fits 64 bits are gathered to this number.** -/
theorem gather_toDigits {n : Nat} (h : n < 2 * Number.int64Bound) :
    gather 0 (Nat.toDigits 10 n) = (n, []) := by
  have hn : (Nat.toDigits 10 n).foldl push 0 = n := ofDigits_toDigits n
  rw [gather_of_lt (by rw [hn]; exact h), hn]

/-- The text of an integer: a minus sign if it is negative, and the digits of its magnitude. -/
theorem toList_toString (z : Int) : (toString z).toList =
    (if decide (z < 0) then ['-'] else []) ++ Nat.toDigits 10 z.natAbs := by
  show (Int.repr z).toList = _
  rw [Int.repr_eq_if]
  by_cases hz : z < 0
  · rw [if_neg (Int.not_le.mpr hz), decide_eq_true hz, if_pos rfl, String.toList_append,
      Nat.repr_eq_ofList_toDigits, show (-z).toNat = z.natAbs by omega]
    simp only [String.toList_ofList]
    rfl
  · rw [if_pos (Int.not_lt.mp hz), decide_eq_false hz, if_neg Bool.false_ne_true,
      Nat.repr_eq_ofList_toDigits, String.toList_ofList, show z.toNat = z.natAbs by omega]
    rfl

/-- **An integer that fits 64 bits, signed or not, is read from its text.** -/
theorem ofNumeral?_toString {z : Int} (hlow : -(Number.int64Bound : Int) ≤ z)
    (hhigh : z < 2 * Number.int64Bound) :
    Json.ofNumeral? (toString z).toList = some (.int z) := by
  have hpos : 0 < Number.int64Bound := by decide
  rw [toList_toString, Json.ofNumeral?, split?_toDigits, Option.bind_some, Parts.value?,
    gather_toDigits (by omega)]
  by_cases hz : z < 0
  · have hmagnitude :
        (decide (z.natAbs = 0) || decide (z.natAbs > Number.int64Bound)) = false := by
      rw [decide_eq_false (by omega), decide_eq_false (by omega)]
      rfl
    rw [decide_eq_true hz]
    simp only [Bool.not_true, Bool.false_eq_true, if_false, hmagnitude]
    rw [show -(z.natAbs : Int) = z by omega]
  · rw [decide_eq_false hz]
    simp only [Bool.not_false, if_true]
    rw [show (z.natAbs : Int) = z by omega]

end TrafficConfig.Numeral
