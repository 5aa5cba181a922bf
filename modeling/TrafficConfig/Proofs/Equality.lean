import TrafficConfig.Proofs.Congruence
import TrafficConfig.ChangeSet

/-!
# Equality of values

Not-a-number differs from itself, so equality of values is an equivalence only where no
value holds one:

* **`Value.Everywhere p`** — a property of a value and of every value inside it.
  **`NaNFree`** and **`UnknownFree`** are two;
* **`equals_congruence`** — on values without not-a-number, equality is reflexive and
  cannot tell equal values apart; the induction is on a bound of the depth, since equal
  sets are not taken apart side by side;
* **`equals_map_iff`** — two sorted maps are equal exactly when they have the same keys
  with equal values;
* **`Unchanged`** — equal, or both blank: the values between which a change set sees no
  change. **`isBlank_iff`** lists the blank ones;
* **`equality_without_nan`** — the equivalence, and when two sets are equal.
-/

namespace TrafficConfig

namespace Value

/-! ## Properties of all values inside a value -/

mutual

/-- A property holds of a value and of every value inside it. -/
def Everywhere (p : Value → Prop) : Value → Prop
  | .list items => p (.list items) ∧ EverywhereItems p items
  | .set items => p (.set items) ∧ EverywhereItems p items
  | .map entries => p (.map entries) ∧ EverywhereEntries p entries
  | v => p v

/-- A property holds everywhere in every element. -/
def EverywhereItems (p : Value → Prop) : List Value → Prop
  | [] => True
  | v :: rest => Everywhere p v ∧ EverywhereItems p rest

/-- A property holds everywhere in the value of every entry. -/
def EverywhereEntries (p : Value → Prop) : List (String × Value) → Prop
  | [] => True
  | (_, v) :: rest => Everywhere p v ∧ EverywhereEntries p rest

end

variable {p : Value → Prop}

/-- Something holds everywhere in items when it does in each one. -/
@[simp] theorem everywhereItems_iff :
    ∀ {items : List Value}, EverywhereItems p items ↔ ∀ v ∈ items, Everywhere p v
  | [] => by simp [EverywhereItems]
  | v :: rest => by rw [EverywhereItems, everywhereItems_iff, List.forall_mem_cons]

/-- Something holds everywhere in entries when it does in each value. -/
@[simp] theorem everywhereEntries_iff : ∀ {entries : List (String × Value)},
    EverywhereEntries p entries ↔ ∀ e ∈ entries, Everywhere p e.2
  | [] => by simp [EverywhereEntries]
  | (k, v) :: rest => by rw [EverywhereEntries, everywhereEntries_iff, List.forall_mem_cons]

@[simp] theorem everywhere_list {items : List Value} :
    Everywhere p (.list items) ↔ p (.list items) ∧ ∀ v ∈ items, Everywhere p v := by
  rw [Everywhere, everywhereItems_iff]

@[simp] theorem everywhere_set {items : List Value} :
    Everywhere p (.set items) ↔ p (.set items) ∧ ∀ v ∈ items, Everywhere p v := by
  rw [Everywhere, everywhereItems_iff]

@[simp] theorem everywhere_map {entries : List (String × Value)} :
    Everywhere p (.map entries) ↔ p (.map entries) ∧ ∀ e ∈ entries, Everywhere p e.2 := by
  rw [Everywhere, everywhereEntries_iff]

/-- The property holds of the value itself. -/
theorem Everywhere.here {v : Value} (h : Everywhere p v) : p v := by
  cases v <;> first
    | exact h
    | exact h.1

mutual

/-- Whether a property holds everywhere is found by a walk over the value. -/
def decideEverywhere (p : Value → Prop) [DecidablePred p] :
    (v : Value) → Decidable (Everywhere p v)
  | .list items => @instDecidableAnd _ _ (inferInstanceAs (Decidable (p _)))
      (decideEverywhereItems p items)
  | .set items => @instDecidableAnd _ _ (inferInstanceAs (Decidable (p _)))
      (decideEverywhereItems p items)
  | .map entries => @instDecidableAnd _ _ (inferInstanceAs (Decidable (p _)))
      (decideEverywhereEntries p entries)
  | .null => inferInstanceAs (Decidable (p .null))
  | .bool b => inferInstanceAs (Decidable (p (.bool b)))
  | .number x => inferInstanceAs (Decidable (p (.number x)))
  | .string s => inferInstanceAs (Decidable (p (.string s)))
  | .unknown => inferInstanceAs (Decidable (p .unknown))

def decideEverywhereItems (p : Value → Prop) [DecidablePred p] :
    (items : List Value) → Decidable (EverywhereItems p items)
  | [] => isTrue trivial
  | v :: rest => @instDecidableAnd _ _ (decideEverywhere p v) (decideEverywhereItems p rest)

def decideEverywhereEntries (p : Value → Prop) [DecidablePred p] :
    (entries : List (String × Value)) → Decidable (EverywhereEntries p entries)
  | [] => isTrue trivial
  | (_, v) :: rest =>
      @instDecidableAnd _ _ (decideEverywhere p v) (decideEverywhereEntries p rest)

end

instance [DecidablePred p] (v : Value) : Decidable (Everywhere p v) := decideEverywhere p v

/-- No number inside a value is not-a-number. -/
def NaNFree : Value → Prop := Everywhere fun v => v ≠ .number .nan

/-- No value inside a value is unknown. -/
def UnknownFree : Value → Prop := Everywhere fun v => v ≠ .unknown

instance : DecidablePred fun v : Value => v ≠ .number .nan := fun v =>
  match v with
  | .number x => if h : x = .nan then isFalse (fun hne => hne (h ▸ rfl))
      else isTrue (fun heq => h (Value.number.inj heq))
  | .null | .bool _ | .string _ | .list _ | .set _ | .map _ | .unknown =>
      isTrue (by rintro ⟨⟩)

instance : DecidablePred fun v : Value => v ≠ .unknown := fun v =>
  match v with
  | .unknown => isFalse (fun h => h rfl)
  | .null | .bool _ | .number _ | .string _ | .list _ | .set _ | .map _ =>
      isTrue (by rintro ⟨⟩)

instance (v : Value) : Decidable (NaNFree v) := inferInstanceAs (Decidable (Everywhere _ v))

instance (v : Value) : Decidable (UnknownFree v) :=
  inferInstanceAs (Decidable (Everywhere _ v))

theorem nanFree_null : NaNFree .null := by simp [NaNFree, Everywhere]

/-- What a map without not-a-number holds under a name. -/
theorem everywhere_getOrNull {entries : Assoc Value} (h : ∀ e ∈ entries, Everywhere p e.2)
    (hnull : p .null) (name : String) : Everywhere p (getOrNull entries name) := by
  rw [getOrNull]
  cases hq : Assoc.get? entries name with
  | none => exact hnull
  | some v => exact h _ (Assoc.mem_of_get? hq)

end Value

/-! ## Numbers -/

namespace Number

/-- Where a number stands: at an infinity, or at an exact count of units; not-a-number
    stands nowhere. -/
def place? : Number → Option (Bool ⊕ Int)
  | .infinite negative => some (.inl negative)
  | x => x.units?.map .inr

theorem units?_finite (n : Bool) (e : Fin 2047) (f : Fin fractionCount) :
    units? (.finite n e f) =
      some (if n then -(magnitude e f : Int) else magnitude e f) := by
  cases n <;> rfl

/-- Numbers are equal when they stand at the same place. -/
theorem equals_iff {x y : Number} :
    x.equals y = true ↔ ∃ q, x.place? = some q ∧ y.place? = some q := by
  cases x with
  | nan => simp [equals, place?, units?]
  | infinite n =>
      cases y with
      | nan => simp [equals, place?, units?]
      | infinite m =>
          rw [show equals (.infinite n) (.infinite m) = (n == m) from rfl, beq_iff_eq]
          constructor
          · rintro rfl
            exact ⟨_, rfl, rfl⟩
          · rintro ⟨q, hn, hm⟩
            exact Sum.inl.inj (Option.some.inj (hn.trans hm.symm))
      | finite m e f => simp [equals, place?, units?]
  | finite n e f =>
      cases y with
      | nan => simp [equals, place?, units?]
      | infinite m => simp [equals, place?, units?]
      | finite m e' f' =>
          simp only [equals, place?, units?_finite, beq_iff_eq,
            Option.map_some, Option.some.injEq]
          constructor
          · intro h
            exact ⟨_, congrArg Sum.inr h, rfl⟩
          · rintro ⟨q, hx, hy⟩
            exact Sum.inr.inj (hx.trans hy.symm)

/-- On numbers other than not-a-number, equality cannot tell equal numbers apart. -/
theorem equals_congruence : Value.Congruence (fun x : Number => x ≠ .nan) equals where
  refl {x} hx := by
    rw [equals_iff]
    cases x with
    | nan => exact absurd rfl hx
    | infinite n => exact ⟨_, rfl, rfl⟩
    | finite n e f => simp [place?, units?_finite]
  congr {x y} _ _ hxy z := by
    obtain ⟨q, hx, hy⟩ := equals_iff.mp hxy
    constructor <;> rw [Bool.eq_iff_iff, equals_iff, equals_iff, hx, hy]

end Number

/-! ## Values -/

namespace Value

/-- Values of different kinds are not equal. -/
theorem equals_of_kindName_ne {v w : Value} (h : v.kindName ≠ w.kindName) :
    equals v w = false := by
  rw [equals]
  generalize max v.depth w.depth = n
  cases n <;> cases v <;> cases w <;> first
    | rfl
    | exact absurd rfl h

/-- Equal values are of one kind. -/
theorem kindName_eq_of_equals {v w : Value} (h : equals v w = true) :
    v.kindName = w.kindName := by
  by_contra hne
  rw [equals_of_kindName_ne hne] at h
  exact Bool.noConfusion h

/-- Only null equals null. -/
theorem equals_null_iff {w : Value} : equals .null w = true ↔ w = .null := by
  constructor
  · intro h
    have hk := kindName_eq_of_equals h
    cases w <;> first | rfl | simp [kindName] at hk
  · rintro rfl
    rfl

/-- Only null equals null, on either side. -/
theorem eq_null_of_equals {v : Value} (h : equals v .null = true) : v = .null := by
  have hk := kindName_eq_of_equals h
  cases v <;> first | rfl | simp [kindName] at hk

/-- Only an unknown value equals an unknown one. -/
theorem equals_unknown_iff {w : Value} : equals .unknown w = true ↔ w = .unknown := by
  constructor
  · intro h
    have hk := kindName_eq_of_equals h
    cases w <;> first | rfl | simp [kindName] at hk
  · rintro rfl
    rfl

/-- Truth values are equal when they are the same. -/
theorem equals_bool_iff {b : Bool} {w : Value} :
    equals (.bool b) w = true ↔ w = .bool b := by
  constructor
  · intro h
    have hk := kindName_eq_of_equals h
    cases w with
    | bool c =>
        have hbc : (b == c) = true := h
        rw [beq_iff_eq.mp hbc]
    | _ => simp [kindName] at hk
  · rintro rfl
    exact beq_self_eq_true b

/-- Strings are equal when they are the same. -/
theorem equals_string_iff {s : String} {w : Value} :
    equals (.string s) w = true ↔ w = .string s := by
  constructor
  · intro h
    have hk := kindName_eq_of_equals h
    cases w with
    | string t =>
        have hst : (s == t) = true := h
        rw [beq_iff_eq.mp hst]
    | _ => simp [kindName] at hk
  · rintro rfl
    exact beq_self_eq_true s

/-- A number equals a number of the same value. -/
theorem equals_number_iff {x : Number} {w : Value} :
    equals (.number x) w = true ↔ ∃ y, w = .number y ∧ x.equals y = true := by
  constructor
  · intro h
    have hk := kindName_eq_of_equals h
    cases w with
    | number y => exact ⟨y, rfl, h⟩
    | _ => simp [kindName] at hk
  · rintro ⟨y, rfl, h⟩
    exact h

/-- A list equals a list whose items match its own. -/
theorem equals_list_iff {xs : List Value} {w : Value} :
    equals (.list xs) w = true ↔ ∃ ys, w = .list ys ∧ Matching equals xs ys := by
  constructor
  · intro h
    have hk := kindName_eq_of_equals h
    cases w with
    | list ys => exact ⟨ys, rfl, allPairs_iff.mp (equals_list xs ys ▸ h)⟩
    | _ => simp [kindName] at hk
  · rintro ⟨ys, rfl, h⟩
    rw [equals_list]
    exact allPairs_iff.mpr h

/-- A set equals a set with the same members. -/
theorem equals_set_iff {xs : List Value} {w : Value} :
    equals (.set xs) w = true ↔ ∃ ys, w = .set ys ∧ sameMembers equals xs ys = true := by
  constructor
  · intro h
    have hk := kindName_eq_of_equals h
    cases w with
    | set ys => exact ⟨ys, rfl, equals_set xs ys ▸ h⟩
    | _ => simp [kindName] at hk
  · rintro ⟨ys, rfl, h⟩
    rw [equals_set]
    exact h

/-- A map equals a map with the same entries. -/
theorem equals_map_iff {es : Assoc Value} {w : Value} :
    equals (.map es) w = true ↔ ∃ fs, w = .map fs ∧ sameEntries equals es fs = true := by
  constructor
  · intro h
    have hk := kindName_eq_of_equals h
    cases w with
    | map fs => exact ⟨fs, rfl, equals_map es fs ▸ h⟩
    | _ => simp [kindName] at hk
  · rintro ⟨fs, rfl, h⟩
    rw [equals_map]
    exact h

/-- Values without not-a-number, nested less than `n` deep. -/
private def Shallow (n : Nat) (v : Value) : Prop := NaNFree v ∧ depth v < n

private theorem shallow_list {n : Nat} {items : List Value}
    (h : Shallow (n + 1) (.list items)) : ∀ v ∈ items, Shallow n v := by
  intro v hv
  have hd : depthItems items + 1 < n + 1 := h.2
  exact ⟨(everywhere_list.mp h.1).2 v hv,
    Nat.lt_of_le_of_lt (depth_le_depthItems hv) (Nat.lt_of_succ_lt_succ hd)⟩

private theorem shallow_set {n : Nat} {items : List Value}
    (h : Shallow (n + 1) (.set items)) : ∀ v ∈ items, Shallow n v := by
  intro v hv
  have hd : depthItems items + 1 < n + 1 := h.2
  exact ⟨(everywhere_set.mp h.1).2 v hv,
    Nat.lt_of_le_of_lt (depth_le_depthItems hv) (Nat.lt_of_succ_lt_succ hd)⟩

private theorem shallow_map {n : Nat} {entries : Assoc Value}
    (h : Shallow (n + 1) (.map entries)) : ∀ e ∈ entries, Shallow n e.2 := by
  intro e he
  have hd : depthEntries entries + 1 < n + 1 := h.2
  exact ⟨(everywhere_map.mp h.1).2 e he,
    Nat.lt_of_le_of_lt (depth_le_depthEntries he) (Nat.lt_of_succ_lt_succ hd)⟩

private theorem congruence_succ {n : Nat} (ih : Congruence (Shallow n) equals) :
    Congruence (Shallow (n + 1)) equals where
  refl {v} hv := by
    -- numbers, lists, sets and maps each have their own congruence
    cases v with
    | null => rfl
    | unknown => rfl
    | bool b => exact equals_bool_iff.mpr rfl
    | string s => exact equals_string_iff.mpr rfl
    | number x => exact Number.equals_congruence.refl fun hx => hv.1.here (hx ▸ rfl)
    | list items => rw [equals_list]; exact ih.allPairs.refl (shallow_list hv)
    | set items => rw [equals_set]; exact ih.sameMembers.refl (shallow_set hv)
    | map entries => rw [equals_map]; exact ih.sameEntries.refl (shallow_map hv)
  congr {v w} hv hw h c := by
    have hk := kindName_eq_of_equals h
    by_cases hc : v.kindName = c.kindName
    · cases v with
      | null => rw [equals_null_iff.mp h]; exact ⟨rfl, rfl⟩
      | unknown => rw [equals_unknown_iff.mp h]; exact ⟨rfl, rfl⟩
      | bool b => rw [equals_bool_iff.mp h]; exact ⟨rfl, rfl⟩
      | string s => rw [equals_string_iff.mp h]; exact ⟨rfl, rfl⟩
      | number x =>
          obtain ⟨y, rfl, hxy⟩ := equals_number_iff.mp h
          cases c with
          | number z =>
              exact Number.equals_congruence.congr (fun hx => hv.1.here (hx ▸ rfl))
                (fun hy => hw.1.here (hy ▸ rfl)) hxy z
          | _ => simp [kindName] at hc
      | list xs =>
          obtain ⟨ys, rfl, hxy⟩ := equals_list_iff.mp h
          cases c with
          | list zs =>
              rw [equals_list, equals_list, equals_list, equals_list]
              exact ih.allPairs.congr (shallow_list hv) (shallow_list hw)
                (allPairs_iff.mpr hxy) zs
          | _ => simp [kindName] at hc
      | set xs =>
          obtain ⟨ys, rfl, hxy⟩ := equals_set_iff.mp h
          cases c with
          | set zs =>
              rw [equals_set, equals_set, equals_set, equals_set]
              exact ih.sameMembers.congr (shallow_set hv) (shallow_set hw) hxy zs
          | _ => simp [kindName] at hc
      | map es =>
          obtain ⟨fs, rfl, hxy⟩ := equals_map_iff.mp h
          cases c with
          | map gs =>
              rw [equals_map, equals_map, equals_map, equals_map]
              exact ih.sameEntries.congr (shallow_map hv) (shallow_map hw) hxy gs
          | _ => simp [kindName] at hc
    · -- against a value of another kind both are false, on either side
      have hc' : w.kindName ≠ c.kindName := hk ▸ hc
      rw [equals_of_kindName_ne hc, equals_of_kindName_ne hc',
        equals_of_kindName_ne (Ne.symm hc),
        equals_of_kindName_ne (Ne.symm hc')]
      exact ⟨rfl, rfl⟩

private theorem congruence_shallow : ∀ n, Congruence (Shallow n) equals
  | 0 => ⟨fun h => absurd h.2 (Nat.not_lt_zero _), fun h => absurd h.2 (Nat.not_lt_zero _)⟩
  | n + 1 => congruence_succ (congruence_shallow n)

/-- On values without not-a-number, equality is reflexive and cannot tell equal values
    apart. -/
theorem equals_congruence : Congruence NaNFree equals where
  refl {v} hv := (congruence_shallow (v.depth + 1)).refl ⟨hv, Nat.lt_succ_self _⟩
  congr {v w} hv hw h := (congruence_shallow (max v.depth w.depth + 1)).congr
    ⟨hv, Nat.lt_succ_of_le (Nat.le_max_left ..)⟩ ⟨hw,
      Nat.lt_succ_of_le (Nat.le_max_right ..)⟩ h

/-- A value without a not-a-number equals itself. -/
theorem equals_refl {v : Value} (h : NaNFree v) : equals v v = true :=
  equals_congruence.refl h

/-- Equality of values without a not-a-number is symmetric. -/
theorem equals_symm {v w : Value} (hv : NaNFree v) (hw : NaNFree w)
    (h : equals v w = true) : equals w v = true :=
  equals_congruence.symm hv hw h

/-! ## Maps -/

/-- Values under one name in equal maps: none in both, or two equal ones. -/
theorem get?_rel_of_sameEntries {es fs : Assoc Value}
    (h : sameEntries equals es fs = true) (q : String) :
    Option.Rel (fun v w => equals v w = true) (Assoc.get? es q) (Assoc.get? fs q) := by
  have hm : Matching _ es fs := allPairs_iff.mp h
  clear h
  induction hm with
  | nil => exact .none
  | @cons e f es fs hef _ ih =>
      obtain ⟨k, v⟩ := e
      obtain ⟨k', w⟩ := f
      obtain ⟨rfl, hvw⟩ : k = k' ∧ equals v w = true := by simpa using hef
      rw [Assoc.get?_cons, Assoc.get?_cons]
      by_cases hq : k = q
      · rw [if_pos hq, if_pos hq]
        exact .some hvw
      · rw [if_neg hq, if_neg hq]
        exact ih

/-- Equal maps have the same keys in the same order. -/
theorem keys_eq_of_sameEntries {r : Value → Value → Bool} {es fs : Assoc Value}
    (h : sameEntries r es fs = true) : Assoc.keys es = Assoc.keys fs := by
  have hm : Matching _ es fs := allPairs_iff.mp h
  clear h
  induction hm with
  | nil => rfl
  | @cons e f es fs hef _ ih =>
      have hk : e.1 = f.1 := by
        rw [Bool.and_eq_true, beq_iff_eq] at hef
        exact hef.1
      rw [Assoc.keys, Assoc.keys, List.map_cons, List.map_cons, hk]
      exact congrArg (f.1 :: ·) ih

/-- Whether entries are in order depends on their keys alone. -/
theorem sorted_congr {es fs : Assoc Value} (h : Assoc.keys es = Assoc.keys fs)
    (hs : Assoc.Sorted es) : Assoc.Sorted fs := by
  have hk : (Assoc.keys es).Pairwise (· < ·) := List.pairwise_map.mpr hs
  rw [h] at hk
  exact List.pairwise_map.mp hk

private theorem get?_tail_eq_none {k : String} {v : Value} {es : Assoc Value}
    (h : Assoc.Sorted ((k, v) :: es)) : Assoc.get? es k = none :=
  Assoc.get?_eq_none_of_lt (List.pairwise_cons.mp h).1

/-- Sorted maps with equal values under every name are equal. -/
theorem sameEntries_of_get?_rel :
    ∀ {es fs : Assoc Value}, Assoc.Sorted es → Assoc.Sorted fs →
      (∀ q, Option.Rel (fun v w => equals v w = true) (Assoc.get? es q) (Assoc.get? fs q)) →
      sameEntries equals es fs = true
  | [], [], _, _, _ => rfl
  | [], (k, w) :: fs, _, _, h => by
    have hk := h k
    rw [Assoc.get?_nil, Assoc.get?_cons, if_pos rfl] at hk
    exact nomatch hk
  | (k, v) :: es, [], _, _, h => by
    have hk := h k
    rw [Assoc.get?_nil, Assoc.get?_cons, if_pos rfl] at hk
    exact nomatch hk
  | (k, v) :: es, (k', w) :: fs, hes, hfs, h => by
    have hes' := List.pairwise_cons.mp hes
    have hfs' := List.pairwise_cons.mp hfs
    have hkk : k = k' := by
      by_contra hne
      -- the smaller of the two first keys has a value on one side only
      rcases (by grind : k < k' ∨ k' < k) with hlt | hlt
      · have hk := h k
        rw [Assoc.get?_cons, if_pos rfl, Assoc.get?_cons, if_neg (Ne.symm hne),
          Assoc.get?_eq_none_of_lt fun e he => String.lt_trans hlt (hfs'.1 e he)] at hk
        exact nomatch hk
      · have hk := h k'
        rw [Assoc.get?_cons, if_neg hne, Assoc.get?_cons, if_pos rfl,
          Assoc.get?_eq_none_of_lt fun e he => String.lt_trans hlt (hes'.1 e he)] at hk
        exact nomatch hk
    subst hkk
    have hvw : equals v w = true := by
      have hk := h k
      rw [Assoc.get?_cons, if_pos rfl, Assoc.get?_cons, if_pos rfl] at hk
      cases hk with
      | some hvw => exact hvw
    -- behind the first key both maps hold what they held before
    have htail : ∀ q, Option.Rel (fun v w => equals v w = true) (Assoc.get? es q)
        (Assoc.get? fs q) := by
      intro q
      by_cases hq : k = q
      · subst hq
        rw [get?_tail_eq_none hes, get?_tail_eq_none hfs]
        exact .none
      · have hq' := h q
        rwa [Assoc.get?_cons, if_neg hq, Assoc.get?_cons, if_neg hq] at hq'
    have hrest := sameEntries_of_get?_rel hes'.2 hfs'.2 htail
    rw [sameEntries] at hrest ⊢
    rw [allPairs, hrest, beq_self_eq_true, hvw]
    rfl

/-- What equal maps hold under a name is equal, with a missing value read as null. -/
theorem equals_getOrNull {es fs : Assoc Value} (h : sameEntries equals es fs = true)
    (q : String) : equals (getOrNull es q) (getOrNull fs q) = true := by
  have hq := get?_rel_of_sameEntries h q
  simp only [getOrNull]
  cases he : Assoc.get? es q <;> cases hf :
    Assoc.get? fs q <;> rw [he, hf] at hq <;> cases hq
  · rfl
  · assumption

/-- A value under a name is null where nothing stands, and what stands there otherwise. -/
theorem getOrNull_congr {es fs : Assoc Value} {name : String}
    (h : Assoc.get? es name = Assoc.get? fs name) :
    getOrNull es name = getOrNull fs name := by
  rw [getOrNull, getOrNull, h]

/-- The value under a name is the entry with this name. -/
theorem getOrNull_of_get? {es : Assoc Value} {name : String} {v : Value}
    (h : Assoc.get? es name = some v) : getOrNull es name = v := by
  rw [getOrNull, h]
  rfl

/-- Under a name that does not read as null there is a value. -/
theorem get?_of_getOrNull {es : Assoc Value} {name : String} {v : Value}
    (h : getOrNull es name = v) (hv : v ≠ .null) : Assoc.get? es name = some v := by
  rw [getOrNull] at h
  cases hg : Assoc.get? es name with
  | none => rw [hg] at h; exact absurd h.symm hv
  | some w => rw [hg] at h; exact congrArg some h

/-! ## Unchanged values -/

/-- Values of one kind are absent together. -/
theorem isAbsent_eq_of_kindName {v w : Value} (h : v.kindName = w.kindName) :
    v.isAbsent = w.isAbsent := by
  cases v <;> cases w <;> first | rfl | simp [kindName] at h

/-- Equal values are absent together. -/
theorem isAbsent_eq_of_equals {v w : Value} (h : equals v w = true) :
    v.isAbsent = w.isAbsent :=
  isAbsent_eq_of_kindName (kindName_eq_of_equals h)

/-- Null is blank, and so are collections without elements. -/
theorem isBlank_iff {v : Value} :
    ChangeSet.isBlank v = true ↔ v = .null ∨ v = .list [] ∨ v = .set [] := by
  cases v with
  | list items => cases items <;> simp [ChangeSet.isBlank]
  | set items => cases items <;> simp [ChangeSet.isBlank]
  | _ => simp [ChangeSet.isBlank]

/-- Equal values are blank together. -/
theorem isBlank_eq_of_equals {v w : Value} (h : equals v w = true) :
    ChangeSet.isBlank v = ChangeSet.isBlank w := by
  cases v with
  | null => rw [equals_null_iff.mp h]
  | unknown => rw [equals_unknown_iff.mp h]
  | bool b => rw [equals_bool_iff.mp h]
  | string s => rw [equals_string_iff.mp h]
  | number x =>
      obtain ⟨y, rfl, -⟩ := equals_number_iff.mp h
      rfl
  | list xs =>
      obtain ⟨ys, rfl, hm⟩ := equals_list_iff.mp h
      cases hm <;> rfl
  | set xs =>
      obtain ⟨ys, rfl, hs⟩ := equals_set_iff.mp h
      have hl : xs.length = ys.length := by
        rw [sameMembers, Bool.and_eq_true, beq_iff_eq] at hs
        exact hs.1
      cases xs <;> cases ys <;> first | rfl | simp at hl
  | map es =>
      obtain ⟨fs, rfl, -⟩ := equals_map_iff.mp h
      rfl

/-- Values between which nothing changed: equal ones, and blank ones. -/
def Unchanged (v w : Value) : Prop :=
  equals v w = true ∨ (ChangeSet.isBlank v = true ∧ ChangeSet.isBlank w = true)

/-- Equal values are unchanged against the same values. -/
theorem unchanged_congr {u v : Value} (hu : NaNFree u) (hv : NaNFree v)
    (h : equals u v = true) (w : Value) : Unchanged u w ↔ Unchanged v w := by
  rw [Unchanged, Unchanged, equals_congruence.left hu hv h, isBlank_eq_of_equals h]

/-- A known value is unchanged exactly when it is not reported as changed. -/
theorem differs_eq_false_iff {v w : Value} (hw : w ≠ .unknown) :
    ChangeSet.differs v w = false ↔ Unchanged v w := by
  have hu : w.isUnknown = false := by cases w <;> first | rfl | exact absurd rfl hw
  rw [ChangeSet.differs, hu, Unchanged]
  cases equals v w with
  | true => simp
  | false => simp

/-! ## An equivalence -/

/-- **Where nothing is not-a-number, equality is an equivalence**, and two sets of such values
    are equal exactly when the elements of the second one can be put in an order in which they
    equal those of the first one, one by one. -/
theorem equality_without_nan :
    Equivalence (fun v w : { v : Value // NaNFree v } => equals v w = true) ∧
    ∀ xs ys : List Value, (∀ x ∈ xs, NaNFree x) → (∀ y ∈ ys, NaNFree y) →
      (equals (.set xs) (.set ys) = true ↔ ∃ zs, zs.Perm ys ∧ Matching equals xs zs) := by
  refine ⟨⟨?_, ?_, ?_⟩, ?_⟩
  · intro v
    exact equals_refl v.2
  · intro v w h
    exact equals_symm v.2 w.2 h
  · intro u v w huv hvw
    exact equals_congruence.trans u.2 v.2 huv hvw
  · intro xs ys hx hy
    rw [equals_set]
    exact equals_congruence.sameMembers_iff hx hy

/-- Sets in a set, and a zero. -/
private def mixedMembers : List Value :=
  [.set [.string "a", .bool true], .number .zero, .set [.string "b"]]

/-- The same in another order, with the other zero. -/
private def rearrangedMembers : List Value :=
  [.set [.string "b"], .set [.bool true, .string "a"], .number Number.zero.neg]

/-- Sets are equal in any order of what they hold, also of what the sets in them hold. -/
theorem nested_sets_equal : (∀ x ∈ mixedMembers, NaNFree x) ∧ (∀ y ∈ rearrangedMembers, NaNFree y) ∧
    equals (.set mixedMembers) (.set rearrangedMembers) = true := by
  have hmembers : ∀ x ∈ mixedMembers, NaNFree x := by decide
  have hagain : ∀ y ∈ rearrangedMembers, NaNFree y := by decide
  refine ⟨hmembers, hagain, ?_⟩
  refine (equality_without_nan.2 mixedMembers rearrangedMembers hmembers hagain).mpr
    ⟨[.set [.bool true, .string "a"], .number Number.zero.neg, .set [.string "b"]], ?_, ?_⟩
  · exact ((List.Perm.swap ..).cons _).trans (.swap ..)
  · exact .cons (by decide) (.cons (by decide) (.cons (by decide) .nil))

/-- A set with not-a-number in it may equal another one that does not equal it. -/
example : equals (.set [.number .nan]) (.set [.null]) = true ∧
    equals (.set [.null]) (.set [.number .nan]) = false := by
  decide

end Value

end TrafficConfig
