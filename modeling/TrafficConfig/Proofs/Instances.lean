import TrafficConfig.Proofs.Equality
import TrafficConfig.Proofs.Payload

/-!
# Blocks and their instances

A block may be missing, null, empty, a map, or a list or a set with one map in it:

* **`Section.entriesOf`** — the entries of the one instance, whatever holds it; a block
  without one has none;
* **`instance?_eq_none_iff`**, **`instance?_eq_some_iff`** — which values of a block have
  no instance, and which have one;
* **`valueIn_eq_of_inBlock`** — a field of a block reads its value from these entries, so
  it does not change when the block does not (**`unchanged_valueIn_of_block`**).
-/

namespace TrafficConfig.Section

open Value ChangeSet

/-- The entries of the one instance of a block with a value. -/
def entriesOf : Value → Assoc Value
  | .map entries => entries
  | .list [.map entries] => entries
  | .set [.map entries] => entries
  | _ => []

/-- Which values of a block have no instance. -/
theorem instance?_eq_none_iff {root : Assoc Value} {block : String} :
    instance? root block = .ok none ↔
      getOrNull root block = .null ∨ getOrNull root block = .unknown ∨
        getOrNull root block = .list [] ∨
        getOrNull root block = .set [] := by
  rw [instance?, getOrNull]
  cases Assoc.get? root block with
  | none => simp
  | some v =>
      cases v with
      | list items =>
          rcases items with _ | ⟨x, _ | ⟨y, rest⟩⟩
          · simp
          · cases x <;> simp
          · simp
      | set items =>
          rcases items with _ | ⟨x, _ | ⟨y, rest⟩⟩
          · simp
          · cases x <;> simp
          · simp
      | _ => simp

/-- Which values of a block have an instance. -/
theorem instance?_eq_some_iff {root : Assoc Value} {block : String}
    {entries : Assoc Value} : instance? root block = .ok (some entries) ↔
      getOrNull root block = .map entries ∨ getOrNull root block = .list [.map entries] ∨
        getOrNull root block = .set [.map entries] := by
  rw [instance?, getOrNull]
  cases Assoc.get? root block with
  | none => simp
  | some v =>
      cases v with
      | list items =>
          rcases items with _ | ⟨x, _ | ⟨y, rest⟩⟩
          · simp
          · cases x <;> simp
          · simp
      | set items =>
          rcases items with _ | ⟨x, _ | ⟨y, rest⟩⟩
          · simp
          · cases x <;> simp
          · simp
      | _ => simp

/-- The entries of a block are those of its instance. -/
theorem entriesOf_of_instance? {root : Assoc Value} {block : String}
    {found : Option (Assoc Value)} (h : instance? root block = .ok found) :
    entriesOf (getOrNull root block) = found.getD [] := by
  cases found with
  | none => rcases instance?_eq_none_iff.mp h with hv | hv | hv | hv <;> rw [hv] <;> rfl
  | some entries => rcases instance?_eq_some_iff.mp h with hv | hv | hv <;> rw [hv] <;> rfl

/-- A block that has no instance, and is not absent either, is malformed: nothing is read
    from it. -/
theorem entriesOf_of_error {root : Assoc Value} {block : String} {e : ConfigError}
    (h : instance? root block = .error e) : entriesOf (getOrNull root block) = [] := by
  have hnone : ∀ entries,
      ¬(getOrNull root block = .map entries ∨ getOrNull root block = .list [.map entries] ∨
      getOrNull root block = .set [.map entries]) := by
    intro entries hv
    rw [instance?_eq_some_iff.mpr hv] at h
    exact nomatch h
  simp only [entriesOf]
  split
  · next entries hv => exact absurd (.inl hv) (hnone entries)
  · next entries hv => exact absurd (.inr (.inl hv)) (hnone entries)
  · next entries hv => exact absurd (.inr (.inr hv)) (hnone entries)
  · rfl

variable {s : Section} {root : Assoc Value}

/-- The value of a top-level field stands in the root. -/
theorem valueIn_eq_of_topLevel (hb : s.block = none) (f : Field) :
    s.valueIn root f = getOrNull root f.name := by
  rw [valueIn, valuesIn_topLevel hb]

/-- A field of a block reads its value from the one instance. -/
theorem valueIn_eq_of_inBlock {block : String} (hb : s.block = some block) (f : Field) :
    s.valueIn root f = getOrNull (entriesOf (getOrNull root block)) f.name := by
  cases hi : instance? root block with
  | ok found => rw [valueIn_of_ok (valuesIn_inBlock hb hi), entriesOf_of_instance? hi]
  | error e =>
      have hv : s.valuesIn root = .error e := by
        rw [valuesIn, hb]
        show (instance? root block).map _ = _
        rw [hi]
        rfl
      rw [valueIn, hv, entriesOf_of_error hi]
      rfl

/-! ## Properties that hold everywhere -/

section Everywhere

variable {p : Value → Prop}

/-- What holds everywhere in a block holds everywhere in its entries. -/
theorem everywhere_entriesOf {v : Value} (h : Everywhere p v) :
    ∀ e ∈ entriesOf v, Everywhere p e.2 := by
  simp only [entriesOf]
  split
  · exact (everywhere_map.mp h).2
  · exact (everywhere_map.mp ((everywhere_list.mp h).2 _ List.mem_cons_self)).2
  · exact (everywhere_map.mp ((everywhere_set.mp h).2 _ List.mem_cons_self)).2
  · exact fun _ he => nomatch he

/-- What holds everywhere in a root holds everywhere in the value of a field. -/
theorem everywhere_valueIn (h : Everywhere p (.map root)) (hnull : p .null) (f : Field) :
    Everywhere p (s.valueIn root f) := by
  have hroot := (everywhere_map.mp h).2
  cases hb : s.block with
  | none =>
      rw [valueIn_eq_of_topLevel hb]
      exact everywhere_getOrNull hroot hnull f.name
  | some block =>
      rw [valueIn_eq_of_inBlock hb]
      exact everywhere_getOrNull
        (everywhere_entriesOf (everywhere_getOrNull hroot hnull block)) hnull f.name

end Everywhere

/-- A root without a not-a-number has none in its fields. -/
theorem nanFree_valueIn (h : NaNFree (.map root)) (f : Field) :
    NaNFree (s.valueIn root f) :=
  everywhere_valueIn h (fun hn => nomatch hn) f

/-- A root without unknown values has none in its fields. -/
theorem valueIn_ne_unknown (h : UnknownFree (.map root)) (f : Field) :
    s.valueIn root f ≠ .unknown :=
  (everywhere_valueIn h (fun hn => nomatch hn) f).here

/-! ## Unchanged blocks -/

/-- A blank block has no entries. -/
theorem entriesOf_of_isBlank {v : Value} (h : isBlank v = true) : entriesOf v = [] := by
  rcases isBlank_iff.mp h with rfl | rfl | rfl <;> rfl

private theorem entriesOf_list_of_several (x y : Value) (rest : List Value) :
    entriesOf (.list (x :: y :: rest)) = [] := by
  cases x <;> rfl

private theorem entriesOf_set_of_several (x y : Value) (rest : List Value) :
    entriesOf (.set (x :: y :: rest)) = [] := by
  cases x <;> rfl

private theorem entriesOf_singleton {x y : Value} (h : equals x y = true) :
    sameEntries equals (entriesOf (.list [x])) (entriesOf (.list [y])) = true := by
  have hk := kindName_eq_of_equals h
  cases x with
  | map es =>
      obtain ⟨fs, rfl, he⟩ := equals_map_iff.mp h
      exact he
  | _ => cases y <;> first | rfl | simp [kindName] at hk

private theorem entriesOf_set (x : Value) :
    entriesOf (.set [x]) = entriesOf (.list [x]) := by
  cases x <;> rfl

/-- Equal blocks have equal instances. -/
theorem sameEntries_entriesOf {v w : Value} (hv : NaNFree v) (hw : NaNFree w)
    (h : equals v w = true) : sameEntries equals (entriesOf v) (entriesOf w) = true := by
  cases v with
  | map es =>
      obtain ⟨fs, rfl, he⟩ := equals_map_iff.mp h
      exact he
  | list xs =>
      obtain ⟨ys, rfl, hm⟩ := equals_list_iff.mp h
      cases hm with
      | nil => rfl
      | cons hxy hrest =>
          cases hrest with
          | nil => exact entriesOf_singleton hxy
          | cons => rw [entriesOf_list_of_several, entriesOf_list_of_several]; rfl
  | set xs =>
      obtain ⟨ys, rfl, hs⟩ := equals_set_iff.mp h
      obtain ⟨zs, hp, hm⟩ := equals_congruence.exists_perm_of_sameMembers
          (everywhere_set.mp hv).2 (everywhere_set.mp hw).2 hs
      cases hm with
      | nil => rw [← hp.nil_eq]; rfl
      | cons hxy hrest =>
          cases hrest with
          | nil =>
              -- a set with one element has nothing to rearrange
              rw [← List.singleton_perm.mp hp, entriesOf_set, entriesOf_set]
              exact entriesOf_singleton hxy
          | cons =>
              have hl := hp.length_eq
              match ys, hl with
              | _ :: _ :: _, _ =>
                  rw [entriesOf_set_of_several, entriesOf_set_of_several]; rfl
  | null => rw [equals_null_iff.mp h]; rfl
  | unknown => rw [equals_unknown_iff.mp h]; rfl
  | bool b => rw [equals_bool_iff.mp h]; rfl
  | string t => rw [equals_string_iff.mp h]; rfl
  | number x =>
      obtain ⟨y, rfl, -⟩ := equals_number_iff.mp h
      rfl

/-- A field of a block does not change when the block does not. -/
theorem unchanged_valueIn_of_block {before after : Assoc Value} {block : String}
    (hb : s.block = some block) (hbefore : NaNFree (.map before))
    (hafter : NaNFree (.map after))
    (h : Unchanged (getOrNull before block) (getOrNull after block)) (f : Field) :
    Unchanged (s.valueIn before f) (s.valueIn after f) := by
  rw [valueIn_eq_of_inBlock hb, valueIn_eq_of_inBlock hb]
  have hnan : ∀ {r : Assoc Value}, NaNFree (.map r) → NaNFree (getOrNull r block) := by
    intro r hr
    exact everywhere_getOrNull (everywhere_map.mp hr).2 (fun hn => nomatch hn) block
  left
  rcases h with h | ⟨hv, hw⟩
  · exact equals_getOrNull (sameEntries_entriesOf (hnan hbefore) (hnan hafter) h) f.name
  · rw [entriesOf_of_isBlank hv, entriesOf_of_isBlank hw]
    rfl

end TrafficConfig.Section
