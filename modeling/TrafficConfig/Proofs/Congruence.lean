import Mathlib.Data.List.Forall2
import Mathlib.Data.List.Perm.Basic
import TrafficConfig.Value

/-!
# Comparisons that do not tell equal elements apart

A comparison of elements gives one of lists and one of sets. On a domain where it is
reflexive, and where no comparison tells two equal elements apart, so are the two that it
gives:

* **`Congruence D r`** — the two laws, for a comparison `r` on a domain `D`. The element
  that equal ones are compared with is arbitrary, so symmetry and transitivity follow, and
  elements outside the domain are covered too;
* **`Congruence.allPairs`**, **`Congruence.sameEntries`**, **`Congruence.sameMembers`** —
  lists, maps and sets of elements of the domain;
* **`sameMembers_iff`** — two sets are the same exactly when the second one can be
  rearranged to match the first element by element.
-/

namespace TrafficConfig.Value

variable {α : Type u} {D : α → Prop} {r : α → α → Bool}

/-- On a domain, every element equals itself, and equal elements compare alike with
    everything. -/
structure Congruence (D : α → Prop) (r : α → α → Bool) : Prop where
  refl : ∀ {a}, D a → r a a = true
  congr : ∀ {a b}, D a → D b → r a b = true → ∀ c, r a c = r b c ∧ r c a = r c b

namespace Congruence

/-- Equal values on the left compare alike. -/
theorem left (h : Congruence D r) {a b : α} (ha : D a) (hb : D b) (hab : r a b = true)
    (c : α) : r a c = r b c :=
  (h.congr ha hb hab c).1

/-- Equal values on the right compare alike. -/
theorem right (h : Congruence D r) {a b : α} (ha : D a) (hb : D b) (hab : r a b = true)
    (c : α) : r c a = r c b :=
  (h.congr ha hb hab c).2

/-- A congruence is symmetric on its domain. -/
theorem symm (h : Congruence D r) {a b : α} (ha : D a) (hb : D b) (hab : r a b = true) :
    r b a = true := by
  rw [← h.left ha hb hab a]
  exact h.refl ha

/-- A congruence is transitive on its domain. -/
theorem trans (h : Congruence D r) {a b c : α} (ha : D a) (hb : D b) (hab : r a b = true)
    (hbc : r b c = true) : r a c = true := by
  rw [h.left ha hb hab c]
  exact hbc

end Congruence

/-- Elements are related one by one. -/
abbrev Matching (r : α → α → Bool) (xs ys : List α) : Prop :=
  List.Forall₂ (fun a b => r a b = true) xs ys

/-- Lists are compared in pairs exactly when they match. -/
theorem allPairs_iff : ∀ {xs ys : List α}, allPairs r xs ys = true ↔ Matching r xs ys
  | [], [] => by simp [allPairs]
  | [], _ :: _ => by simp [allPairs]
  | _ :: _, [] => by simp [allPairs]
  | x :: xs, y :: ys => by
    simp only [allPairs, Bool.and_eq_true, List.forall₂_cons, allPairs_iff]

namespace Congruence

variable (h : Congruence D r)
include h

/-- A list of values in the domain matches itself. -/
theorem matching_refl {xs : List α} (hx : ∀ x ∈ xs, D x) : Matching r xs xs :=
  List.forall₂_same.mpr fun x hmem => h.refl (hx x hmem)

/-- Lists of values in the domain match either way. -/
theorem matching_symm {xs ys : List α} (hx : ∀ x ∈ xs, D x) (hy : ∀ y ∈ ys, D y)
    (hm : Matching r xs ys) : Matching r ys xs := by
  induction hm with
  | nil => exact .nil
  | @cons x y xs ys hr _ ih =>
      exact .cons (h.symm (hx x List.mem_cons_self) (hy y List.mem_cons_self) hr)
        (ih (fun a ha => hx a (List.mem_cons_of_mem x ha))
          (fun a ha => hy a (List.mem_cons_of_mem y ha)))

/-- The comparison of lists does not tell matching lists apart either. -/
theorem allPairs : Congruence (fun xs : List α => ∀ x ∈ xs, D x) (allPairs r) where
  refl hx := allPairs_iff.mpr (h.matching_refl hx)
  congr := by
    intro xs ys hx hy hxy
    have hm : Matching r xs ys := allPairs_iff.mp hxy
    -- the third list is arbitrary, so the induction is on the matching of the first two
    clear hxy
    induction hm with
    | nil => intro c; exact ⟨rfl, rfl⟩
    | @cons x y xs ys hr _ ih =>
        intro c
        cases c with
        | nil => exact ⟨rfl, rfl⟩
        | cons z zs =>
            obtain ⟨hl, hr'⟩ := ih (fun a ha => hx a (List.mem_cons_of_mem x ha))
              (fun a ha => hy a (List.mem_cons_of_mem y ha)) zs
            obtain ⟨hzl, hzr⟩ :=
              h.congr (hx x List.mem_cons_self) (hy y List.mem_cons_self) hr z
            constructor
            · rw [Value.allPairs, Value.allPairs, hl, hzl]
            · rw [Value.allPairs, Value.allPairs, hr', hzr]

private theorem entry :
    Congruence (fun e : String × α => D e.2) (fun a b => a.1 == b.1 && r a.2 b.2) where
  refl he := by simp [h.refl he]
  congr := by
    rintro ⟨k, a⟩ ⟨k', b⟩ ha hb hab ⟨q, c⟩
    obtain ⟨hk, hab⟩ : k = k' ∧ r a b = true := by simpa using hab
    rw [hk, h.left ha hb hab c, h.right ha hb hab c]
    exact ⟨rfl, rfl⟩

/-- The comparison of maps does not tell equal maps apart either. -/
theorem sameEntries :
    Congruence (fun es : Assoc α => ∀ e ∈ es, D e.2) (sameEntries r) := h.entry.allPairs

/-! ## Counting -/

/-- Matching lists hold equally many elements that an arbitrary one is compared with. -/
theorem countP_matching {xs ys : List α} (hm : Matching r xs ys) (hx : ∀ x ∈ xs, D x)
    (hy : ∀ y ∈ ys, D y) (c : α) : xs.countP (r · c) = ys.countP (r · c) := by
  induction hm with
  | nil => rfl
  | @cons x y xs ys hr _ ih =>
      have hxs := ih (fun a ha => hx a (List.mem_cons_of_mem x ha))
          (fun a ha => hy a (List.mem_cons_of_mem y ha))
      rw [List.countP_cons, List.countP_cons, hxs,
        h.left (hx x List.mem_cons_self) (hy y List.mem_cons_self) hr c]

/-- Equal elements are met equally often in any list. -/
theorem countP_congr {a b : α} (ha : D a) (hb : D b) (hab : r a b = true) (zs : List α) :
    zs.countP (r · a) = zs.countP (r · b) := by
  refine List.countP_congr ?_
  intro z _
  rw [h.right ha hb hab z]

end Congruence

private theorem sameMembers_eq_true {xs ys : List α} : sameMembers r xs ys = true ↔
    xs.length = ys.length ∧ ∀ x ∈ xs, xs.countP (r · x) = ys.countP (r · x) := by
  simp [sameMembers]

private theorem sameMembers_perm_left {xs ys zs : List α} (hp : xs.Perm ys) :
    sameMembers r xs zs = sameMembers r ys zs := by
  rw [Bool.eq_iff_iff, sameMembers_eq_true, sameMembers_eq_true, hp.length_eq]
  refine and_congr_right fun _ => forall_congr' fun x => ?_
  rw [hp.mem_iff, hp.countP_eq]

private theorem sameMembers_perm_right {xs ys zs : List α} (hp : zs.Perm ys) :
    sameMembers r xs zs = sameMembers r xs ys := by
  rw [Bool.eq_iff_iff, sameMembers_eq_true, sameMembers_eq_true, hp.length_eq]
  refine and_congr_right fun _ => forall_congr' fun x => imp_congr_right fun _ => ?_
  rw [hp.countP_eq]

namespace Congruence

variable (h : Congruence D r)
include h

/-- Every element of a set is met in an equal one, so the elements can be paired off one
    after the other. -/
theorem exists_perm_of_sameMembers {xs ys : List α} (hx : ∀ x ∈ xs, D x)
    (hy : ∀ y ∈ ys, D y) (hs : Value.sameMembers r xs ys = true) :
    ∃ zs, zs.Perm ys ∧ Matching r xs zs := by
  induction xs generalizing ys with
  | nil =>
    have hl : ys.length = 0 := (sameMembers_eq_true.mp hs).1.symm
    rw [List.length_eq_zero_iff] at hl
    exact ⟨[], hl ▸ .refl _, .nil⟩
  | cons x xs ih =>
    obtain ⟨hl, hc⟩ := sameMembers_eq_true.mp hs
    have hDx : D x := hx x List.mem_cons_self
    -- the first element is met among its own, so it is met on the other side too
    have hpos : 0 < ys.countP (r · x) := by
      rw [← hc x List.mem_cons_self, List.countP_cons, h.refl hDx]
      simp
    obtain ⟨y, hmem, hyx⟩ := List.countP_pos_iff.mp hpos
    obtain ⟨s, t, rfl⟩ := List.append_of_mem hmem
    have hDy : D y := hy y hmem
    have hperm : (y :: (s ++ t)).Perm (s ++ y :: t) := List.perm_middle.symm
    -- the two partners leave equally many of everything behind
    have hrest : Value.sameMembers r xs (s ++ t) = true := by
      refine sameMembers_eq_true.mpr ⟨?_, ?_⟩
      · have := hperm.length_eq
        simp only [List.length_cons] at hl this
        omega
      · intro a ha
        have hca := hc a (List.mem_cons_of_mem x ha)
        rw [← hperm.countP_eq, List.countP_cons, List.countP_cons,
          h.left hDy hDx hyx a] at hca
        exact Nat.add_right_cancel hca
    obtain ⟨zs, hzs, hm⟩ := ih (fun a ha => hx a (List.mem_cons_of_mem x ha))
      (fun b hb => hy b (hperm.mem_iff.mp (List.mem_cons_of_mem y hb))) hrest
    exact ⟨y :: zs, (hzs.cons y).trans hperm, .cons (h.symm hDy hDx hyx) hm⟩

/-- Lists that match have the same members. -/
theorem sameMembers_of_matching {xs ys : List α} (hx : ∀ x ∈ xs, D x) (hy : ∀ y ∈ ys, D y)
    (hm : Matching r xs ys) : Value.sameMembers r xs ys = true :=
  sameMembers_eq_true.mpr ⟨hm.length_eq, fun x _ => h.countP_matching hm hx hy x⟩

/-- Two sets are the same exactly when the second one can be rearranged to match the
    first. -/
theorem sameMembers_iff {xs ys : List α} (hx : ∀ x ∈ xs, D x) (hy : ∀ y ∈ ys, D y) :
    Value.sameMembers r xs ys = true ↔ ∃ zs, zs.Perm ys ∧ Matching r xs zs := by
  constructor
  · exact h.exists_perm_of_sameMembers hx hy
  · rintro ⟨zs, hp, hm⟩
    rw [← sameMembers_perm_right hp]
    exact h.sameMembers_of_matching hx (fun z hz => hy z (hp.mem_iff.mp hz)) hm

private theorem sameMembers_of_matching_left {xs ys zs : List α} (hm : Matching r xs ys)
    (hx : ∀ x ∈ xs, D x) (hy : ∀ y ∈ ys, D y) (hs : Value.sameMembers r xs zs = true) :
    Value.sameMembers r ys zs = true := by
  -- an element and its partner are met equally often on both sides
  obtain ⟨hl, hc⟩ := sameMembers_eq_true.mp hs
  refine sameMembers_eq_true.mpr ⟨hm.length_eq ▸ hl, ?_⟩
  intro y hmem
  obtain ⟨i, hi, rfl⟩ := List.getElem_of_mem hmem
  have hi' : i < xs.length := by rw [hm.length_eq]; exact hi
  have hr : r xs[i] ys[i] = true := hm.get hi' hi
  have hDx : D xs[i] := hx _ (List.getElem_mem hi')
  have hDy : D ys[i] := hy _ (List.getElem_mem hi)
  calc ys.countP (r · ys[i])
      = xs.countP (r · ys[i]) := (h.countP_matching hm hx hy _).symm
    _ = xs.countP (r · xs[i]) := (h.countP_congr hDx hDy hr xs).symm
    _ = zs.countP (r · xs[i]) := hc _ (List.getElem_mem hi')
    _ = zs.countP (r · ys[i]) := h.countP_congr hDx hDy hr zs

/-- The comparison of sets does not tell equal sets apart either. -/
theorem sameMembers : Congruence (fun xs : List α => ∀ x ∈ xs, D x) (sameMembers r) where
  refl hx := h.sameMembers_of_matching hx hx (h.matching_refl hx)
  congr := by
    intro xs ys hx hy hxy zs
    -- rearranged, the second set matches the first one element by element
    obtain ⟨ws, hp, hm⟩ := h.exists_perm_of_sameMembers hx hy hxy
    have hw : ∀ w ∈ ws, D w := fun w hwm => hy w (hp.mem_iff.mp hwm)
    constructor
    · rw [← sameMembers_perm_left hp, Bool.eq_iff_iff]
      exact ⟨h.sameMembers_of_matching_left hm hx hw,
        h.sameMembers_of_matching_left (h.matching_symm hx hw hm) hw hx⟩
    · rw [← sameMembers_perm_right hp, Bool.eq_iff_iff, sameMembers_eq_true,
        sameMembers_eq_true, hm.length_eq]
      refine and_congr_right fun _ => forall_congr' fun z => imp_congr_right fun _ => ?_
      rw [h.countP_matching hm hx hw z]

end Congruence

end TrafficConfig.Value
