import TrafficConfig.Assoc
import Mathlib.Data.List.Nodup

/-!
# Lists of entries

A map that is written entry by entry holds the last value of each key:

* **`get?_insertAll`** — the view of a map over which a list of entries was written;
* **`mem_of_get?_ofEntries`**, **`isSome_get?_ofEntries`** — what the map of a list of
  entries holds, in terms of membership. Proofs about tables of fields follow the list,
  and need not know which of two entries came later;
* **`get?_ofEntries_of_mem`** — with distinct keys an entry is what is found;
* **`get?_ofEntries_of_fields`** — the same when the entries are those of a list of fields:
  under the key of a field stands its value;
* **`insertAll_insertAll`** — entries with distinct keys that were written are not changed
  by writing them again, whatever the order of the map; **`updateAll_updateAll`** says this
  of values that are made of those that are there, and **`get?_updateAll`** what is found;
* **`map_ofEntries`** — the values of a map may be changed before or after it is made, and
  entries in order are a map already (**`ofEntries_of_sorted`**).
-/

namespace TrafficConfig.Assoc

variable {α : Type u}

/-- An entry of a map after a write is the written one or an old one. -/
theorem mem_insert {m : Assoc α} {k : String} {x : α} {e : String × α}
    (h : e ∈ insert m k x) : e = (k, x) ∨ e ∈ m := by
  induction m with
  | nil =>
      left
      simpa [insert] using h
  | cons f m ih =>
      obtain ⟨k', y⟩ := f
      rw [insert] at h
      by_cases h1 : k < k'
      · rw [if_pos h1] at h
        exact List.mem_cons.mp h
      · rw [if_neg h1] at h
        by_cases h2 : k' = k
        · rw [if_pos h2] at h
          exact (List.mem_cons.mp h).imp id (List.mem_cons_of_mem _)
        · rw [if_neg h2] at h
          rcases List.mem_cons.mp h with h | h
          · right
            rw [h]
            exact List.mem_cons_self
          · exact (ih h).imp id (List.mem_cons_of_mem _)

/-- The first of two lists of entries comes first. -/
theorem get?_append (es fs : Assoc α) (q : String) :
    get? (es ++ fs) q = (get? es q).or (get? fs q) := by
  induction es with
  | nil => rfl
  | cons e es ih =>
      obtain ⟨k, v⟩ := e
      rw [List.cons_append, get?_cons, get?_cons, ih]
      by_cases hk : k = q
      · rw [if_pos hk, if_pos hk]
        rfl
      · rw [if_neg hk, if_neg hk]

/-- Reading after writing many entries: the last one of the key, else what was there. -/
theorem get?_insertAll (m : Assoc α) (es : List (String × α)) (q : String) :
    get? (insertAll m es) q = (get? es.reverse q).or (get? m q) := by
  induction es generalizing m with
  | nil => rfl
  | cons e es ih =>
      obtain ⟨k, v⟩ := e
      rw [show insertAll m ((k, v) :: es) = insertAll (insert m k v) es from rfl, ih,
        get?_insert, List.reverse_cons,
        get?_append, get?_cons, get?_nil]
      -- a later entry of the key wins over this one
      cases get? es.reverse q with
      | some x => rfl
      | none =>
          by_cases hk : k = q
          · rw [if_pos hk, if_pos hk]
            rfl
          · rw [if_neg hk, if_neg hk]
            rfl

/-- Of entries with one key the last one stays. -/
theorem get?_ofEntries (es : List (String × α)) (q : String) :
    get? (ofEntries es) q = get? es.reverse q := by
  rw [ofEntries, get?_insertAll, get?_nil, Option.or_none]

/-- What is found under a key is an entry of the list. -/
theorem mem_of_get?_ofEntries {es : List (String × α)} {q : String} {x : α}
    (h : get? (ofEntries es) q = some x) : (q, x) ∈ es := by
  rw [get?_ofEntries] at h
  exact List.mem_reverse.mp (mem_of_get? h)

/-- Something is found under the keys of the list. -/
theorem isSome_get?_ofEntries {es : List (String × α)} {q : String} :
    (get? (ofEntries es) q).isSome = true ↔ ∃ x, (q, x) ∈ es := by
  rw [get?_ofEntries, get?_isSome, keys, List.mem_map]
  constructor
  · rintro ⟨⟨k, x⟩, hmem, rfl⟩
    exact ⟨x, List.mem_reverse.mp hmem⟩
  · rintro ⟨x, hmem⟩
    exact ⟨(q, x), List.mem_reverse.mpr hmem, rfl⟩

/-- A map that is built from entries has nothing under a key that none of them has. -/
theorem get?_ofEntries_eq_none {es : List (String × α)} {q : String} :
    get? (ofEntries es) q = none ↔ ∀ x, (q, x) ∉ es := by
  rw [← Option.not_isSome_iff_eq_none, isSome_get?_ofEntries, not_exists]

/-- Entries with distinct keys are told apart by their keys. -/
theorem eq_of_mem_of_nodup {es : List (String × α)} (hn : (keys es).Nodup) {q : String}
    {x y : α} (hx : (q, x) ∈ es) (hy : (q, y) ∈ es) : x = y := by
  have h := List.inj_on_of_nodup_map hn hx hy rfl
  exact congrArg Prod.snd h

/-- With distinct keys an entry is found under its key. -/
theorem get?_of_mem {es : Assoc α} (hn : (keys es).Nodup) {q : String} {x : α}
    (h : (q, x) ∈ es) : get? es q = some x := by
  cases hq : get? es q with
  | none =>
      have hkey : q ∈ keys es := List.mem_map_of_mem h
      rw [← get?_isSome, hq] at hkey
      exact Bool.noConfusion hkey
  | some y => rw [eq_of_mem_of_nodup hn (mem_of_get? hq) h]

/-- With distinct keys every entry is found in the map that is built from them. -/
theorem get?_ofEntries_of_mem {es : List (String × α)} (hn : (keys es).Nodup) {q : String}
    {x : α} (h : (q, x) ∈ es) : get? (ofEntries es) q = some x := by
  rw [get?_ofEntries]
  refine get?_of_mem ?_ (List.mem_reverse.mpr h)
  rw [keys, List.map_reverse]
  exact List.nodup_reverse.mpr hn

/-- Keys in order are distinct. -/
theorem nodup_keys_of_sorted {m : Assoc α} (h : Sorted m) : (keys m).Nodup := by
  refine List.pairwise_map.mpr (h.imp ?_)
  intro a b hlt heq
  rw [heq] at hlt
  exact String.lt_irrefl _ hlt

/-- Maps in ascending order have the same keys when the same keys have values. -/
theorem keys_eq_of_sorted {β : Type v} {m : Assoc α} {n : Assoc β} (hm : Sorted m)
    (hn : Sorted n) (h : ∀ q, (get? m q).isSome = (get? n q).isSome) : keys m = keys n := by
  have hperm : (keys m).Perm (keys n) := by
    refine (List.perm_ext_iff_of_nodup (nodup_keys_of_sorted hm)
      (nodup_keys_of_sorted hn)).mpr ?_
    intro q
    rw [← get?_isSome, ← get?_isSome, h]
  have hascending : ∀ a b : String, a ∈ keys m → b ∈ keys n → a < b → b < a → a = b :=
    fun _ _ _ _ hab hba => absurd (String.lt_trans hab hba) (String.lt_irrefl _)
  exact List.Perm.eq_of_pairwise hascending (List.pairwise_map.mpr hm)
    (List.pairwise_map.mpr hn) hperm

/-- Writing one map over another one: what the written one has is found, else what was
    there. -/
theorem get?_insertAll_of_sorted (m : Assoc α) {es : Assoc α} (hs : Sorted es)
    (q : String) : get? (insertAll m es) q = (get? es q).or (get? m q) := by
  rw [get?_insertAll, ← get?_ofEntries]
  congr 1
  cases hq : get? es q with
  | none =>
      rw [get?_ofEntries_eq_none]
      intro x hx
      rw [get?_of_mem (nodup_keys_of_sorted hs) hx] at hq
      exact nomatch hq
  | some x => exact get?_ofEntries_of_mem (nodup_keys_of_sorted hs) (mem_of_get? hq)

/-! ## Entries of fields -/

section Fields

variable {ι : Type v} {fields : List ι} {key : ι → String} {value : ι → Option α}
  {es : List (String × α)}
  (h : ∀ q x, (q, x) ∈ es ↔ ∃ f ∈ fields, key f = q ∧ value f = some x)
include h

/-- **Entries that are those of fields with distinct keys**: under the key of a field stands
    its value. -/
theorem get?_ofEntries_of_fields (hn : (fields.map key).Nodup) {f : ι} (hf : f ∈ fields) :
    get? (ofEntries es) (key f) = value f := by
  cases hv : value f with
  | none =>
      refine get?_ofEntries_eq_none.mpr ?_
      intro x hx
      obtain ⟨g, hg, hkey, hgx⟩ := (h _ _).mp hx
      obtain rfl := List.inj_on_of_nodup_map hn hg hf hkey
      exact nomatch hv.symm.trans hgx
  | some x =>
      have hmem : (key f, x) ∈ es := (h _ _).mpr ⟨f, hf, rfl, hv⟩
      obtain ⟨y, hy⟩ := Option.isSome_iff_exists.mp (isSome_get?_ofEntries.mpr ⟨x, hmem⟩)
      obtain ⟨g, hg, hkey, hgy⟩ := (h _ _).mp (mem_of_get?_ofEntries hy)
      obtain rfl := List.inj_on_of_nodup_map hn hg hf hkey
      rw [hy, ← hgy, hv]

/-- Nothing stands under other keys. -/
theorem get?_ofEntries_of_no_field {q : String} (hq : q ∉ fields.map key) :
    get? (ofEntries es) q = none := by
  refine get?_ofEntries_eq_none.mpr ?_
  intro x hx
  obtain ⟨f, hf, rfl, -⟩ := (h _ _).mp hx
  exact hq (List.mem_map_of_mem hf)

end Fields

/-! ## Writing again -/

theorem insertAll_append (m : Assoc α) (es fs : List (String × α)) :
    insertAll m (es ++ fs) = insertAll (insertAll m es) fs :=
  List.foldl_append

/-- A written entry is not changed by writing it again. -/
theorem insert_insert_self (m : Assoc α) (k : String) (x : α) :
    insert (insert m k x) k x = insert m k x := by
  induction m with
  | nil => simp [insert]
  | cons e m ih =>
      obtain ⟨k', v⟩ := e
      rw [insert]
      by_cases h1 : k < k'
      · simp [h1, insert]
      · by_cases h2 : k' = k
        · simp [h2, insert]
        · simp [h1, h2, insert, ih]

private theorem insert_cons_eq_self {m : Assoc α} {k k' : String} {x v : α}
    (h : insert ((k', v) :: m) k x = (k', v) :: m) :
    ¬k < k' ∧ (k' = k ∧ v = x ∨ k' ≠ k ∧ insert m k x = m) := by
  rw [insert] at h
  by_cases h1 : k < k'
  · rw [if_pos h1] at h
    exact absurd (congrArg List.length h) (Nat.succ_ne_self _)
  · rw [if_neg h1] at h
    refine ⟨h1, ?_⟩
    by_cases h2 : k' = k
    · rw [if_pos h2, List.cons.injEq, Prod.mk.injEq] at h
      exact .inl ⟨h2, h.1.2.symm⟩
    · rw [if_neg h2, List.cons.injEq] at h
      exact .inr ⟨h2, h.2⟩

/-- An entry that is written stays so when another key is written. -/
theorem insert_insert_of_ne {m : Assoc α} {k q : String} {x : α} (y : α)
    (h : insert m k x = m) (hne : k ≠ q) :
    insert (insert m q y) k x = insert m q y := by
  induction m with
  | nil => exact nomatch h
  | cons e m ih =>
      obtain ⟨k', v⟩ := e
      obtain ⟨hfirst, hhead⟩ := insert_cons_eq_self h
      by_cases h1 : q < k'
      · have hlate : ¬k < q := fun hlt => hfirst (String.lt_trans hlt h1)
        rw [insert, if_pos h1, insert, if_neg hlate, if_neg (Ne.symm hne), h]
      · rw [insert, if_neg h1]
        by_cases h2 : k' = q
        · subst h2
          rcases hhead with ⟨hk, -⟩ | ⟨hk, hrest⟩
          · exact absurd hk.symm hne
          · rw [if_pos rfl, insert, if_neg hfirst, if_neg hk, hrest]
        · rw [if_neg h2, insert, if_neg hfirst]
          rcases hhead with ⟨hk, rfl⟩ | ⟨hk, hrest⟩
          · rw [if_pos hk, hk]
          · rw [if_neg hk, ih hrest]

/-- An entry that is written stays so when other keys are written. -/
theorem insert_insertAll_of_not_mem {m : Assoc α} {k : String} {x : α}
    {es : List (String × α)} (h : insert m k x = m) (hk : k ∉ keys es) :
    insert (insertAll m es) k x = insertAll m es := by
  induction es generalizing m with
  | nil => exact h
  | cons e es ih =>
      rw [keys, List.map_cons, List.mem_cons, not_or] at hk
      exact ih (insert_insert_of_ne e.2 h hk.1) hk.2

/-- **Entries with distinct keys that were written are not changed by writing them
    again.** -/
theorem insertAll_insertAll (m : Assoc α) {es : List (String × α)} (hn : (keys es).Nodup) :
    insertAll (insertAll m es) es = insertAll m es := by
  have hwritten : ∀ e ∈ es, insert (insertAll m es) e.1 e.2 = insertAll m es := by
    induction es generalizing m with
    | nil => exact fun _ he => nomatch he
    | cons e es ih =>
        obtain ⟨hhead, hrest⟩ := List.nodup_cons.mp hn
        refine List.forall_mem_cons.mpr ⟨?_, ih (insert m e.1 e.2) hrest⟩
        show insert (insertAll (insert m e.1 e.2) es) e.1 e.2 = _
        exact insert_insertAll_of_not_mem (insert_insert_self m e.1 e.2) hhead
  generalize insertAll m es = written at hwritten
  clear hn
  induction es with
  | nil => rfl
  | cons e es ih =>
      rw [List.forall_mem_cons] at hwritten
      rw [insertAll, List.foldl_cons, hwritten.1]
      exact ih hwritten.2

/-! ## Updates -/

/-- Write under a key what a function makes of the value there, if it makes anything. -/
def update (m : Assoc α) (k : String) (change : Option α → Option α) : Assoc α :=
  match change (get? m k) with
  | some x => insert m k x
  | none => m

/-- Updates one after the other. -/
def updateAll (m : Assoc α) (changes : List (String × (Option α → Option α))) : Assoc α :=
  changes.foldl (fun acc u => update acc u.1 u.2) m

/-- What a change has made, it makes again or leaves. -/
def Settles (change : Option α → Option α) : Prop :=
  ∀ v? x, change v? = some x → ∀ y, change (some x) = some y → y = x

section Updates

variable {m : Assoc α} {k q : String} {change other : Option α → Option α}

/-- An update changes nothing, or puts something under the key. -/
theorem update_cases (m : Assoc α) (k : String) (change : Option α → Option α) :
    (change (get? m k) = none ∧ update m k change = m) ∨
      ∃ x, change (get? m k) = some x ∧ update m k change = insert m k x := by
  rw [update]
  cases h : change (get? m k) with
  | none => exact .inl ⟨rfl, rfl⟩
  | some x => exact .inr ⟨x, rfl, rfl⟩

/-- An update is seen under its key, and nowhere else. -/
theorem get?_update (m : Assoc α) (k : String) (change : Option α → Option α) (q : String) :
    get? (update m k change) q =
      if k = q then (change (get? m q)).or (get? m q) else get? m q := by
  rcases update_cases m k change with ⟨hnone, hsame⟩ | ⟨x, hx, hwritten⟩
  · rw [hsame]
    split
    · next hq => rw [← hq, hnone, Option.none_or]
    · rfl
  · rw [hwritten, get?_insert]
    split
    · next hq => rw [← hq, hx, Option.some_or]
    · rfl

/-- Updates leave other keys alone. -/
theorem get?_updateAll_of_not_mem {changes : List (String × (Option α → Option α))}
    (h : q ∉ changes.map Prod.fst) (m : Assoc α) :
    get? (updateAll m changes) q = get? m q := by
  induction changes generalizing m with
  | nil => rfl
  | cons u rest ih =>
      rw [List.map_cons, List.mem_cons, not_or] at h
      show get? (updateAll (update m u.1 u.2) rest) q = _
      rw [ih h.2, get?_update, if_neg (Ne.symm h.1)]

/-- **Of updates of distinct keys, each finds the value that was there before all of them.** -/
theorem get?_updateAll {changes : List (String × (Option α → Option α))}
    (hn : (changes.map Prod.fst).Nodup) (hmem : (k, change) ∈ changes) (m : Assoc α) :
    get? (updateAll m changes) k = (change (get? m k)).or (get? m k) := by
  induction changes generalizing m with
  | nil => exact nomatch hmem
  | cons u rest ih =>
      obtain ⟨hhead, hrest⟩ := List.nodup_cons.mp hn
      show get? (updateAll (update m u.1 u.2) rest) k = _
      rcases List.mem_cons.mp hmem with rfl | hmem
      · rw [get?_updateAll_of_not_mem hhead, get?_update, if_pos rfl]
      · have hne : u.1 ≠ k := fun hk => hhead (hk ▸ List.mem_map_of_mem hmem)
        rw [ih hrest hmem, get?_update, if_neg hne]

/-- An update by a change that settles does nothing the second time. -/
theorem update_update_self (h : Settles change) (m : Assoc α) (k : String) :
    update (update m k change) k change = update m k change := by
  rcases update_cases m k change with ⟨-, hsame⟩ | ⟨x, hx, hwritten⟩
  · rw [hsame, hsame]
  · rw [hwritten]
    rcases update_cases (insert m k x) k change with ⟨-, hsame⟩ | ⟨y, hy, hagain⟩
    · exact hsame
    · rw [get?_insert_self] at hy
      rw [hagain, h _ x hx y hy, insert_insert_self]

/-- An update that does nothing still does nothing when another key was updated. -/
theorem update_update_of_ne (h : update m k change = m) (hne : k ≠ q) :
    update (update m q other) k change = update m q other := by
  rcases update_cases m q other with ⟨-, hsame⟩ | ⟨y, -, hwritten⟩
  · rw [hsame, h]
  · rw [hwritten, update, get?_insert, if_neg (Ne.symm hne)]
    rcases update_cases m k change with ⟨hnone, -⟩ | ⟨x, hx, hinsert⟩
    · rw [hnone]
    · rw [hx]
      exact insert_insert_of_ne y (hinsert.symm.trans h) hne

private theorem update_updateAll_of_not_mem
    {changes : List (String × (Option α → Option α))} (h : update m k change = m)
    (hk : k ∉ changes.map Prod.fst) :
    update (updateAll m changes) k change = updateAll m changes := by
  induction changes generalizing m with
  | nil => exact h
  | cons u rest ih =>
      rw [List.map_cons, List.mem_cons, not_or] at hk
      exact ih (update_update_of_ne h hk.1) hk.2

/-- **Updates of distinct keys by changes that settle do nothing the second time**,
    whatever the order of the map. -/
theorem updateAll_updateAll {changes : List (String × (Option α → Option α))}
    (hn : (changes.map Prod.fst).Nodup) (h : ∀ u ∈ changes, Settles u.2) (m : Assoc α) :
    updateAll (updateAll m changes) changes = updateAll m changes := by
  have hdone : ∀ u ∈ changes, update (updateAll m changes) u.1 u.2 = updateAll m changes := by
    induction changes generalizing m with
    | nil => exact fun _ hu => nomatch hu
    | cons u rest ih =>
        obtain ⟨hhead, hrest⟩ := List.nodup_cons.mp hn
        rw [List.forall_mem_cons] at h
        refine List.forall_mem_cons.mpr ⟨?_, ih hrest h.2 (update m u.1 u.2)⟩
        show update (updateAll (update m u.1 u.2) rest) u.1 u.2 = _
        exact update_updateAll_of_not_mem (update_update_self h.1 m u.1) hhead
  generalize updateAll m changes = done at hdone
  clear hn h
  induction changes with
  | nil => rfl
  | cons u rest ih =>
      rw [List.forall_mem_cons] at hdone
      rw [updateAll, List.foldl_cons, hdone.1]
      exact ih hdone.2

end Updates

/-! ## Entries in order -/

/-- Entries in order are a map already. -/
theorem ofEntries_of_sorted {es : Assoc α} (h : Sorted es) : ofEntries es = es := by
  refine ext_of_sorted (sorted_ofEntries es) h fun q => ?_
  rw [ofEntries, get?_insertAll_of_sorted [] h, get?_nil, Option.or_none]

/-- A map holds no other entries than those that it is made of. -/
theorem mem_of_mem_ofEntries {es : List (String × α)} {e : String × α} (h : e ∈ ofEntries es) :
    e ∈ es :=
  mem_of_get?_ofEntries (get?_of_mem (nodup_keys_of_sorted (sorted_ofEntries es)) h)

section Values

variable {β : Type v} (change : α → β)

/-- Changing all values changes the one under a key. -/
theorem get?_map (m : Assoc α) (q : String) :
    get? (m.map fun e => (e.1, change e.2)) q = (get? m q).map change := by
  induction m with
  | nil => rfl
  | cons e rest ih =>
      obtain ⟨k, x⟩ := e
      rw [List.map_cons, get?_cons, get?_cons, ih]
      split <;> rfl

/-- So it does when the map is built from the changed entries. -/
theorem get?_ofEntries_map (es : List (String × α)) (q : String) :
    get? (ofEntries (es.map fun e => (e.1, change e.2))) q = (get? es.reverse q).map change := by
  rw [get?_ofEntries, ← List.map_reverse, get?_map]

/-- The values of a map may be changed before or after it is made of its entries. -/
theorem map_ofEntries (es : List (String × α)) :
    (ofEntries es).map (fun e => (e.1, change e.2)) =
      ofEntries (es.map fun e => (e.1, change e.2)) := by
  have hsorted : Sorted ((ofEntries es).map fun e => (e.1, change e.2)) :=
    List.pairwise_map.mpr (sorted_ofEntries es)
  refine ext_of_sorted hsorted (sorted_ofEntries _) fun q => ?_
  rw [get?_map, get?_ofEntries, get?_ofEntries_map]

end Values

end TrafficConfig.Assoc
