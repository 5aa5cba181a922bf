/-!
# Maps with string keys

A map from strings is the list of its entries. Writing puts a new key at its place in ascending
order, reading answers with the first entry of a key:

* **`get?`** is the view of a map, and `get?_insert`, `get?_erase` say what writing does to it,
  for every list;
* **`Sorted`** says that the keys are strictly ascending; `sorted_insert` keeps it, and
  `ext_of_sorted` makes two sorted maps with the same view equal.

The order of strings is that of their code points, which is also the order of their UTF-8 bytes.
-/

namespace TrafficConfig

/-- A map from strings: its entries, in ascending order of the keys when it was built by
`insert`. -/
abbrev Assoc (α : Type u) := List (String × α)

namespace Assoc

variable {α : Type u} {β : Type v}

/-- The value under a key: that of the first entry with this key. -/
def get? : Assoc α → String → Option α
  | [], _ => none
  | (k, v) :: rest, q => if k = q then some v else get? rest q

/-- Put a value under a key: in the place of the key's entry, or before the first greater key. -/
def insert : Assoc α → String → α → Assoc α
  | [], q, x => [(q, x)]
  | (k, v) :: rest, q, x =>
    if q < k then (q, x) :: (k, v) :: rest
    else if k = q then (q, x) :: rest
    else (k, v) :: insert rest q x

/-- Remove a key. -/
def erase (m : Assoc α) (q : String) : Assoc α := m.filter fun e => e.1 ≠ q

/-- The keys, in stored order. -/
def keys (m : Assoc α) : List String := m.map Prod.fst

/-- Write entries one after the other over a map; of two entries with one key the later one
stays. -/
def insertAll (m : Assoc α) (entries : List (String × α)) : Assoc α :=
  entries.foldl (fun acc e => insert acc e.1 e.2) m

/-- The map of a list of entries; of two entries with one key the later one stays. -/
def ofEntries (entries : List (String × α)) : Assoc α := insertAll [] entries

/-- The keys are strictly ascending. -/
def Sorted (m : Assoc α) : Prop := m.Pairwise fun a b => a.1 < b.1

@[simp] theorem get?_nil (q : String) : get? ([] : Assoc α) q = none := rfl

theorem get?_cons (k : String) (v : α) (rest : Assoc α) (q : String) :
    get? ((k, v) :: rest) q = if k = q then some v else get? rest q := rfl

/-- Reading after writing one key, whatever the order of the entries. -/
theorem get?_insert (m : Assoc α) (k : String) (x : α) (q : String) :
    get? (insert m k x) q = if k = q then some x else get? m q := by
  induction m with
  | nil => simp [insert, get?]
  | cons e rest ih =>
    obtain ⟨k', v'⟩ := e
    by_cases h1 : k < k'
    · simp [insert, get?, h1]
    · by_cases h2 : k' = k
      · subst h2
        by_cases h3 : k' = q <;> simp [insert, get?, h3]
      · by_cases h3 : k' = q
        · subst h3
          simp [insert, get?, h1, h2, Ne.symm h2]
        · simp [insert, get?, h1, h2, h3, ih]

/-- What was put under a key stands there. -/
@[simp] theorem get?_insert_self (m : Assoc α) (k : String) (x : α) :
    get? (insert m k x) k = some x := by
  simp [get?_insert]

/-- Reading after removing one key. -/
theorem get?_erase (m : Assoc α) (k q : String) :
    get? (erase m k) q = if k = q then none else get? m q := by
  induction m with
  | nil => simp [erase]
  | cons e rest ih =>
    obtain ⟨k', v'⟩ := e
    simp only [erase] at ih
    by_cases h1 : k' = k
    · subst h1
      by_cases h2 : k' = q <;> simp_all [erase, get?]
    · by_cases h2 : k' = q
      · subst h2
        simp [erase, get?, h1, Ne.symm h1]
      · have hrest : get? (List.filter (fun e => !decide (e.fst = k)) rest) q =
            if k = q then none else get? rest q := by
          simpa using ih
        simp [erase, get?, h1, h2, hrest]

/-- A key has a value exactly when some entry has this key. -/
theorem get?_isSome (m : Assoc α) (q : String) : (get? m q).isSome = true ↔ q ∈ keys m := by
  induction m with
  | nil => simp [keys]
  | cons e rest ih =>
    obtain ⟨k, v⟩ := e
    simp only [keys] at ih
    by_cases h : k = q
    · simp [get?, keys, h]
    · simp [get?, keys, h, ih, Ne.symm h]

/-- A value found under a key is that of an entry. -/
theorem mem_of_get? {m : Assoc α} {q : String} {x : α} (h : get? m q = some x) : (q, x) ∈ m := by
  induction m with
  | nil => simp at h
  | cons e rest ih =>
    obtain ⟨k, v⟩ := e
    by_cases hk : k = q
    · simp_all [get?]
    · simp only [get?, hk, if_false] at h
      exact List.mem_cons_of_mem _ (ih h)

/-- The keys after a write: the old ones and the written one. -/
theorem mem_keys_insert (m : Assoc α) (k : String) (x : α) (q : String) :
    q ∈ keys (insert m k x) ↔ q = k ∨ q ∈ keys m := by
  rw [← get?_isSome, ← get?_isSome, get?_insert]
  by_cases h : k = q
  · simp [h]
  · simp [h, Ne.symm h]

/-- Writing keeps the keys strictly ascending. -/
theorem sorted_insert {m : Assoc α} (h : Sorted m) (k : String) (x : α) :
    Sorted (insert m k x) := by
  induction m with
  | nil => simp [insert, Sorted]
  | cons e rest ih =>
    obtain ⟨k', v'⟩ := e
    have hr : Sorted rest := (List.pairwise_cons.mp h).2
    have hb : ∀ e ∈ rest, k' < e.1 := (List.pairwise_cons.mp h).1
    by_cases h1 : k < k'
    · simp only [insert, h1, if_true, Sorted]
      refine List.pairwise_cons.mpr ⟨fun e he => ?_, h⟩
      rcases List.mem_cons.mp he with rfl | he
      · exact h1
      · exact String.lt_trans h1 (hb e he)
    · by_cases h2 : k' = k
      · subst h2
        simp only [insert, h1, if_false, if_true, Sorted]
        exact List.pairwise_cons.mpr ⟨fun e he => hb e he, hr⟩
      · simp only [insert, h1, h2, if_false, Sorted]
        refine List.pairwise_cons.mpr ⟨fun e he => ?_, ih hr⟩
        have hk : e.1 ∈ keys (insert rest k x) := List.mem_map_of_mem he
        rcases (mem_keys_insert rest k x e.1).mp hk with h3 | h3
        · have h4 : k' < k := by grind
          exact h3 ▸ h4
        · obtain ⟨e', he', h4⟩ := List.mem_map.mp h3
          exact h4 ▸ hb e' he'

/-- Writing many entries keeps the keys strictly ascending. -/
theorem sorted_insertAll {m : Assoc α} (h : Sorted m) (entries : List (String × α)) :
    Sorted (insertAll m entries) := by
  induction entries generalizing m with
  | nil => exact h
  | cons e rest ih => exact ih (sorted_insert h e.1 e.2)

/-- A map that is built from entries has its keys in order. -/
theorem sorted_ofEntries (entries : List (String × α)) : Sorted (ofEntries entries) :=
  sorted_insertAll List.Pairwise.nil entries

/-- A key below every key of a map has no value. -/
theorem get?_eq_none_of_lt {m : Assoc α} {q : String} (h : ∀ e ∈ m, q < e.1) : get? m q = none := by
  induction m with
  | nil => rfl
  | cons e rest ih =>
    obtain ⟨k, v⟩ := e
    have hk : k ≠ q := fun hq =>
      String.lt_irrefl q (by simpa [hq] using h (k, v) List.mem_cons_self)
    simp [get?, hk, ih fun e he => h e (List.mem_cons_of_mem _ he)]

/-- Two sorted maps with the same values under the same keys are equal. -/
theorem ext_of_sorted : ∀ {m n : Assoc α}, Sorted m → Sorted n → (∀ q, get? m q = get? n q) → m = n
  | [], [], _, _, _ => rfl
  | [], (k, v) :: n, _, _, h => by simpa [get?] using h k
  | (k, v) :: m, [], _, _, h => by simpa [get?] using h k
  | (k, v) :: m, (k', v') :: n, hm, hn, h => by
    have hm' := List.pairwise_cons.mp hm
    have hn' := List.pairwise_cons.mp hn
    have hk : k = k' := by
      rcases Classical.em (k = k') with h1 | h1
      · exact h1
      · have hlt : k < k' ∨ k' < k := by grind
        rcases hlt with h2 | h2
        · have h3 := h k
          rw [get?_cons, if_pos rfl, get?_cons, if_neg (Ne.symm h1),
            get?_eq_none_of_lt fun e he => String.lt_trans h2 (hn'.1 e he)] at h3
          exact absurd h3 (by simp)
        · have h3 := h k'
          rw [get?_cons, if_neg h1, get?_cons, if_pos rfl,
            get?_eq_none_of_lt fun e he => String.lt_trans h2 (hm'.1 e he)] at h3
          exact absurd h3 (by simp)
    subst hk
    have hv : v = v' := by simpa [get?] using h k
    subst hv
    have htail : ∀ q, get? m q = get? n q := fun q => by
      by_cases hq : k = q
      · subst hq
        rw [get?_eq_none_of_lt hm'.1, get?_eq_none_of_lt hn'.1]
      · simpa [get?, hq] using h q
    rw [ext_of_sorted hm'.2 hn'.2 htail]

end Assoc

end TrafficConfig
