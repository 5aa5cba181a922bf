import TrafficConfig.Proofs.Declared
import TrafficConfig.Proofs.Tables

/-!
# Rows that are known again

Rows with distinct strings as keys are told apart by their keys:

* **`Rows.find?_of_mem`** — the row that is found by a key is the row with this key;
* **`Rows.position_eq`** — a row with the key of the `i`th row has the position `i`. So
  rows that arrive in the order of the earlier ones stay in it
  (**`Rows.arrange_of_ordered`**);
* **`Rows.pairwise_sortBy`** — sorting puts a list into order. What stood in no order keeps
  the order of its arrival (**`Rows.filter_sortBy`**), and otherwise the order of arrival does
  not matter (**`Rows.sortBy_eq_of_perm`**). So the earlier rows that arrive again in another
  order are put back into their places (**`Rows.arrange_of_perm`**).
-/

namespace TrafficConfig.Rows

open Value

/-- Sorting leaves a list alone that is in order. -/
theorem sortBy_of_pairwise {α : Type} {le : α → α → Bool} {xs : List α}
    (h : xs.Pairwise fun a b => le a b = true) : sortBy le xs = xs := by
  induction xs with
  | nil => rfl
  | cons x rest ih =>
      obtain ⟨hx, hrest⟩ := List.pairwise_cons.mp h
      rw [sortBy, ih hrest]
      cases rest with
      | nil => rfl
      | cons y rest => rw [insertBy, if_pos (hx y List.mem_cons_self)]

section Stable

variable {α : Type} {le : α → α → Bool} {p : α → Bool}

private theorem filter_insertBy {x : α} {ys : List α}
    (h : ∀ y ∈ ys, p x = true → p y = true → le x y = true) :
    (insertBy le x ys).filter p = (x :: ys).filter p := by
  induction ys with
  | nil => rfl
  | cons y rest ih =>
      rw [List.forall_mem_cons] at h
      rw [insertBy]
      by_cases hle : le x y = true
      · rw [if_pos hle]
      · rw [if_neg hle, List.filter_cons, ih h.2]
        -- an element that is passed by is not to be kept together with the new one
        by_cases hx : p x = true
        · have hy : ¬ p y = true := fun hy => hle (h.1 hx hy)
          rw [if_neg hy, List.filter_cons_of_pos hx, List.filter_cons_of_pos hx,
            List.filter_cons_of_neg hy]
        · rw [List.filter_cons_of_neg hx, List.filter_cons_of_neg hx, List.filter_cons]

/-- **Elements that may precede each other keep their order.** -/
theorem filter_sortBy {xs : List α}
    (h : ∀ x ∈ xs, ∀ y ∈ xs, p x = true → p y = true → le x y = true) :
    (sortBy le xs).filter p = xs.filter p := by
  induction xs with
  | nil => rfl
  | cons x rest ih =>
      have hrest := ih fun a ha b hb =>
        h a (List.mem_cons_of_mem x ha) b (List.mem_cons_of_mem x hb)
      rw [sortBy, filter_insertBy, List.filter_cons, List.filter_cons, hrest]
      intro y hy
      exact h x List.mem_cons_self y
        (List.mem_cons_of_mem x ((sortBy_perm le rest).mem_iff.mp hy))

end Stable

section Sorting

variable {α : Type} {le : α → α → Bool} (htrans : ∀ a b c, le a b → le b c → le a c)
  (htotal : ∀ a b, ¬le a b → le b a)
include htrans htotal

/-- A list in order stays in order when an element is put into its place. -/
theorem pairwise_insertBy {x : α} {ys : List α} (h : ys.Pairwise fun a b => le a b) :
    (insertBy le x ys).Pairwise fun a b => le a b := by
  induction ys with
  | nil => exact List.pairwise_singleton _ _
  | cons y rest ih =>
      obtain ⟨hy, hrest⟩ := List.pairwise_cons.mp h
      rw [insertBy]
      split
      · next hxy =>
          refine List.pairwise_cons.mpr ⟨?_, h⟩
          exact List.forall_mem_cons.mpr ⟨hxy, fun b hb => htrans x y b hxy (hy b hb)⟩
      · next hxy =>
          refine List.pairwise_cons.mpr ⟨fun b hb => ?_, ih hrest⟩
          rcases List.mem_cons.mp ((insertBy_perm le x rest).mem_iff.mp hb) with rfl | hb
          · exact htotal b y hxy
          · exact hy b hb

/-- **Sorting puts a list into order.** -/
theorem pairwise_sortBy (xs : List α) : (sortBy le xs).Pairwise fun a b => le a b := by
  induction xs with
  | nil => exact .nil
  | cons x rest ih => exact pairwise_insertBy htrans htotal ih

/-- **The order of arrival does not matter**, if no two elements may precede each other. -/
theorem sortBy_eq_of_perm {xs ys : List α}
    (hanti : ∀ a ∈ xs, ∀ b ∈ xs, le a b → le b a → a = b) (h : ys.Perm xs) :
    sortBy le ys = sortBy le xs := by
  have hys := (sortBy_perm le ys).trans h
  refine List.Perm.eq_of_pairwise ?_ (pairwise_sortBy htrans htotal ys)
    (pairwise_sortBy htrans htotal xs) (hys.trans (sortBy_perm le xs).symm)
  intro a b ha hb
  exact hanti a (hys.mem_iff.mp ha) b ((sortBy_perm le xs).mem_iff.mp hb)

end Sorting

/-- The text of a row's key is its key. -/
theorem key?_of_keyOf {key id : String} {row : Assoc Value} (h : keyOf key row = some id) :
    key? row key = some id := by
  obtain ⟨v, hv, hid⟩ := Option.bind_eq_some_iff.mp h
  rw [key?]
  rw [hv]
  cases v with
  | string s => exact hid
  | _ => exact nomatch hid

/-- The row that is found by a key has this key. -/
theorem key?_of_find? {rows : List (Assoc Value)} {key id : String} {row : Assoc Value}
    (h : find? rows key id = some row) : key? row key = some id := by
  rw [find?] at h
  have hmatch := List.find?_some h
  exact beq_iff_eq.mp hmatch

/-- The key is set in the row that is found by it. -/
theorem unsetIn_find? (rows : List (Assoc Value)) (key id : String) :
    unsetIn (find? rows key id) key = false := by
  cases hfound : find? rows key id with
  | none => rfl
  | some row =>
      have hkey := key?_of_find? hfound
      show (Assoc.get? row key).all isAbsent = false
      unfold key? at hkey
      split at hkey
      · next hv =>
          rw [hv]
          rfl
      · next hv =>
          rw [hv]
          rfl
      · cases hkey

section Keyed

variable {key : String} {rows : List (Assoc Value)}

private theorem exists_key (hkeyed : KeyedRows (some key) rows) {row : Assoc Value}
    (hrow : row ∈ rows) : ∃ id, keyOf key row = some id ∧ key? row key = some id := by
  obtain ⟨id, hid⟩ := Option.isSome_iff_exists.mp ((hkeyed key rfl).1 row hrow)
  exact ⟨id, hid, key?_of_keyOf hid⟩

private theorem keyOf_eq_of_key? (hkeyed : KeyedRows (some key) rows) {row : Assoc Value}
    (hrow : row ∈ rows) {id : String} (h : key? row key = some id) :
    keyOf key row = some id := by
  obtain ⟨id', hkey, hkey'⟩ := exists_key hkeyed hrow
  rw [hkey, ← hkey', h]

/-- **The row that is found by a key is the row with this key.** -/
theorem find?_of_mem (hkeyed : KeyedRows (some key) rows) {row : Assoc Value}
    (hrow : row ∈ rows) {id : String} (hid : keyOf key row = some id) :
    find? rows key id = some row := by
  rw [find?]
  cases hf : rows.find? fun row => key? row key == some id with
  | none =>
      have hnone := List.find?_eq_none.mp hf row hrow
      rw [key?_of_keyOf hid] at hnone
      exact absurd (beq_self_eq_true _) hnone
  | some r =>
      have hr := List.mem_of_find?_eq_some hf
      have hmatch := List.find?_some hf
      have hkey := keyOf_eq_of_key? hkeyed hr (beq_iff_eq.mp hmatch)
      exact congrArg some
        (List.inj_on_of_nodup_map (hkeyed key rfl).2 hr hrow (hkey.trans hid.symm))

/-- A row with the key of the `i`th row has the position `i`. -/
theorem position_eq (hkeyed : KeyedRows (some key) rows) {i : Nat} (hi : i < rows.length)
    {row : Assoc Value} (h : keyOf key row = keyOf key rows[i]) :
    position rows key row = i := by
  obtain ⟨id, hid, hkey⟩ := exists_key hkeyed (List.getElem_mem hi)
  have hfound : rows.findIdx? (fun r => key? r key == some id) = some i := by
    rw [List.findIdx?_eq_some_iff_getElem]
    refine ⟨hi, beq_iff_eq.mpr hkey, ?_⟩
    intro j hj hmatch
    have hj' : j < rows.length := by omega
    have hsame := keyOf_eq_of_key? hkeyed (List.getElem_mem hj') (beq_iff_eq.mp hmatch)
    -- two rows with one key stand at one place
    have hnodup := (hkeyed key rfl).2
    have hj'' : j < (rows.map (keyOf key)).length := by simpa using hj'
    have hi' : i < (rows.map (keyOf key)).length := by simpa using hi
    have heq : (rows.map (keyOf key))[j] = (rows.map (keyOf key))[i] := by
      rw [List.getElem_map, List.getElem_map, hsame, hid]
    have hindex := (List.Nodup.getElem_inj_iff hnodup).mp heq
    omega
  rw [position]
  rw [key?_of_keyOf (h.trans hid)]
  show (rows.findIdx? fun r => key? r key == some id).getD rows.length = i
  rw [hfound]
  rfl

/-- **Rows that arrive in the order of the earlier ones stay in it.** -/
theorem arrange_of_ordered {table : Table} (hkey : table.key = some key)
    (hordered : table.ordered = true) (hkeyed : KeyedRows (some key) rows)
    {arrived : List (Assoc Value)}
    (hkeys : arrived.map (keyOf key) = rows.map (keyOf key)) :
    arrange table rows arrived = arrived := by
  rw [arrange]
  rw [hkey, hordered]
  show sortBy _ arrived = arrived
  have hlength : arrived.length = rows.length := by simpa using congrArg List.length hkeys
  -- the rows that arrive have the positions 0, 1, 2 and so on
  have hposition : ∀ i (hi : i < arrived.length), position rows key arrived[i] = i := by
    intro i hi
    have hi' : i < rows.length := by omega
    refine position_eq hkeyed hi' ?_
    have h := congrArg (fun ks => ks[i]?) hkeys
    simpa [List.getElem?_eq_getElem hi, List.getElem?_eq_getElem hi'] using h
  refine sortBy_of_pairwise (List.pairwise_iff_getElem.mpr ?_)
  intro i j hi hj hij
  rw [hposition i hi, hposition j hj, decide_eq_true_iff]
  omega

/-- **Rows that arrive again in another order are put back into their places.** -/
theorem arrange_of_perm {table : Table} (hkey : table.key = some key)
    (hordered : table.ordered = true) (hkeyed : KeyedRows (some key) rows)
    {arrived : List (Assoc Value)} (hperm : arrived.Perm rows) :
    arrange table rows arrived = rows := by
  rw [arrange]
  rw [hkey, hordered]
  show sortBy (fun a b => decide (position rows key a ≤ position rows key b)) arrived = rows
  have hposition : ∀ i (hi : i < rows.length), position rows key rows[i] = i :=
    fun i hi => position_eq hkeyed hi rfl
  have hrows : rows.Pairwise fun a b => decide (position rows key a ≤ position rows key b) := by
    refine List.pairwise_iff_getElem.mpr fun i j hi hj hij => ?_
    rw [hposition i hi, hposition j hj, decide_eq_true_iff]
    exact Nat.le_of_lt hij
  rw [sortBy_eq_of_perm (by simp only [decide_eq_true_eq]; omega)
    (by simp only [decide_eq_true_eq]; omega) ?_ hperm, sortBy_of_pairwise hrows]
  -- two rows with one position are one row
  intro a ha b hb hab hba
  obtain ⟨i, hi, rfl⟩ := List.getElem_of_mem ha
  obtain ⟨j, hj, rfl⟩ := List.getElem_of_mem hb
  rw [hposition i hi, hposition j hj, decide_eq_true_iff] at hab hba
  obtain rfl : i = j := Nat.le_antisymm hab hba
  rfl

end Keyed

end TrafficConfig.Rows
