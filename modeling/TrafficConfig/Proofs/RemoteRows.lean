import TrafficConfig.Proofs.Rows

/-!
# Remote rows

What the remote side holds for the fields of a table, whoever wrote it:

* **`FieldKind.HeldThroughout`** — a condition on the remote values of kinds, on all
  levels; **`FieldsHeldThroughout`** says it of the fields of a section or a row;
* **`FieldKind.KeyedRemote`** — the rows of a keyed table carry distinct strings as keys;
* **`FieldKind.toValue_rows`**, **`FieldKind.toValue_rows_cases`** — a table is read from
  objects, one by one;
* **`keyOf_of_read`** — a row is read with the key that the remote row carries, whichever
  prior row it is read over. So rows with distinct keys are read as keyed rows
  (**`keyedRows_of_read`**).
-/

namespace TrafficConfig

open Value

/-- The rows of a remote value: the elements of an array that are objects. -/
def Json.rows : Json → List (Assoc Json)
  | .array items => items.filterMap asObject?
  | _ => []

/-- The rows of an array of objects are these objects. -/
theorem Json.rows_array (objects : List (Assoc Json)) :
    (Json.array (objects.map .object)).rows = objects := by
  show (objects.map Json.object).filterMap asObject? = objects
  rw [List.filterMap_map]
  exact List.filterMap_some

/-! ## Conditions on all levels -/

mutual

/-- A condition on the remote values of kinds holds of a remote value, and of all values
    in the rows of its tables. -/
def FieldKind.HeldThroughout (p : FieldKind → Json → Prop) : FieldKind → Json → Prop
  | .table ⟨fields, key, ordered⟩, j =>
    p (.table ⟨fields, key, ordered⟩) j ∧ ∀ row ∈ j.rows, FieldsHeldThroughout p fields row
  | kind, j => p kind j

/-- A condition on the remote values of kinds holds of the values that are held for all
    fields, on all levels. -/
def FieldsHeldThroughout (p : FieldKind → Json → Prop) : List Field → Assoc Json → Prop
  | [], _ => True
  | ⟨_, remote, kind, _, _⟩ :: rest, held =>
    (∀ j ∈ Assoc.get? held remote, kind.HeldThroughout p j) ∧ FieldsHeldThroughout p rest held

end

mutual

/-- A condition that can be decided can be decided on all levels. -/
def FieldKind.decideHeldThroughout {p : FieldKind → Json → Prop}
    (hp : ∀ kind j, Decidable (p kind j)) :
    ∀ (kind : FieldKind) (j : Json), Decidable (kind.HeldThroughout p j)
  | .table ⟨fields, key, ordered⟩, j =>
    have := hp (.table ⟨fields, key, ordered⟩) j
    have := fun row => decideFieldsHeldThroughout hp fields row
    inferInstanceAs (Decidable (p (.table ⟨fields, key, ordered⟩) j ∧
      ∀ row ∈ j.rows, FieldsHeldThroughout p fields row))
  | .string, j => hp .string j
  | .bool, j => hp .bool j
  | .int, j => hp .int j
  | .list, j => hp .list j
  | .set, j => hp .set j

def decideFieldsHeldThroughout {p : FieldKind → Json → Prop}
    (hp : ∀ kind j, Decidable (p kind j)) :
    ∀ (fields : List Field) (held : Assoc Json), Decidable (FieldsHeldThroughout p fields held)
  | [], _ => isTrue trivial
  | ⟨_, remote, kind, _, _⟩ :: rest, held =>
    have := FieldKind.decideHeldThroughout hp kind
    have := decideFieldsHeldThroughout hp rest held
    inferInstanceAs (Decidable ((∀ j ∈ Assoc.get? held remote, kind.HeldThroughout p j) ∧
      FieldsHeldThroughout p rest held))

end

section HeldThroughout

variable {p : FieldKind → Json → Prop}

instance [∀ kind j, Decidable (p kind j)] (fields : List Field) (held : Assoc Json) :
    Decidable (FieldsHeldThroughout p fields held) :=
  decideFieldsHeldThroughout inferInstance fields held

theorem fieldsHeldThroughout_iff {fields : List Field} {held : Assoc Json} :
    FieldsHeldThroughout p fields held ↔
      ∀ f ∈ fields, ∀ j ∈ Assoc.get? held f.remote, f.kind.HeldThroughout p j := by
  induction fields with
  | nil => simp [FieldsHeldThroughout]
  | cons f rest ih =>
      obtain ⟨name, remote, kind, readOnly, alwaysSent⟩ := f
      rw [FieldsHeldThroughout, ih, List.forall_mem_cons]

/-- Something holds throughout a remote table when it holds of the table and in its rows. -/
theorem FieldKind.heldThroughout_table_iff {table : Table} {j : Json} :
    (FieldKind.table table).HeldThroughout p j ↔
      p (.table table) j ∧ ∀ row ∈ j.rows, FieldsHeldThroughout p table.fields row := by
  obtain ⟨fields, key, ordered⟩ := table
  rw [FieldKind.HeldThroughout]

end HeldThroughout

/-! ## Keys -/

/-- The key that a remote row carries, if it is a string. -/
def remoteKeyOf (fields : List Field) (key : String) (row : Assoc Json) : Option String :=
  (Assoc.get? row (remoteKey fields key)).bind Json.asString?

private theorem eq_string_of_asString? {j : Json} {s : String} (h : j.asString? = some s) :
    j = .string s := by
  unfold Json.asString? at h
  split at h
  · rw [Option.some.inj h]
  · cases h

/-- The rows of a keyed table carry distinct strings as keys. -/
def FieldKind.KeyedRemote : FieldKind → Json → Prop
  | .table t, j => ∀ k ∈ t.key, (∀ row ∈ j.rows, (remoteKeyOf t.fields k row).isSome = true) ∧
      (j.rows.map (remoteKeyOf t.fields k)).Nodup
  | _, _ => True

instance (kind : FieldKind) (j : Json) : Decidable (kind.KeyedRemote j) :=
  match kind with
  | .table t => inferInstanceAs (Decidable (∀ k ∈ t.key,
      (∀ row ∈ j.rows, (remoteKeyOf t.fields k row).isSome = true) ∧
        (j.rows.map (remoteKeyOf t.fields k)).Nodup))
  | .string | .bool | .int | .list | .set => isTrue trivial

/-- Remote rows are keyed when each has a key and no key is repeated. -/
theorem FieldKind.keyedRemote_objects_iff {table : Table} {objects : List (Assoc Json)} :
    (FieldKind.table table).KeyedRemote (.array (objects.map .object)) ↔
      ∀ k ∈ table.key,
        (∀ object ∈ objects, (remoteKeyOf table.fields k object).isSome = true) ∧
          (objects.map (remoteKeyOf table.fields k)).Nodup := by
  rw [FieldKind.KeyedRemote, Json.rows_array]

theorem matchingRow?_eq (fields : List Field) (key : String) (earlier : List (Assoc Value))
    (row : Assoc Json) : matchingRow? fields (some key) earlier row =
      (remoteKeyOf fields key row).bind fun id => Rows.find? earlier key id := rfl

/-! ## Reading rows -/

/-- A remote row is read over the prior row with its key, in a table that is read over
    earlier rows. -/
abbrev Table.ReadOver (table : Table) (earlier : List (Assoc Value)) (object : Assoc Json)
    (row : Assoc Value) : Prop :=
  (declaredEntries table.fields object (matchingRow? table.fields table.key earlier object)).map
    Assoc.ofEntries = .ok row

/-- A row is read exactly from an object, over its match among the earlier rows. -/
theorem Table.declaredRow_eq_ok_iff {table : Table} {name : String}
    {earlier : List (Assoc Value)} {j : Json} {row : Assoc Value} :
    table.declaredRow name earlier j = .ok row ↔
      ∃ object, j = .object object ∧ table.ReadOver earlier object row := by
  cases j with
  | object object =>
      have hrow : table.declaredRow name earlier (.object object) =
          (declaredEntries table.fields object
            (matchingRow? table.fields table.key earlier object)).map Assoc.ofEntries := by
        rw [declaredRow]
        cases declaredEntries table.fields object
          (matchingRow? table.fields table.key earlier object) <;> rfl
      rw [hrow]
      constructor
      · exact fun h => ⟨object, rfl, h⟩
      · rintro ⟨_, hobject, h⟩
        rwa [Json.object.inj hobject]
  | _ =>
      constructor
      · exact fun h => nomatch h
      · rintro ⟨_, hobject, -⟩
        exact nomatch hobject

namespace FieldKind

variable {table : Table} {name : String} {prior : Option Value}

/-- **A table is read row by row.** -/
theorem toValue_rows (name : String) (prior : Option Value) {objects : List (Assoc Json)}
    {rows : List (Assoc Value)}
    (h : List.Forall₂ (table.ReadOver (priorRows prior)) objects rows) :
    (FieldKind.table table).toValue name (.array (objects.map .object)) prior =
      .ok (table.valueOf (Rows.arrange table (priorRows prior) rows)) := by
  have hmapM : (objects.map Json.object).mapM (table.declaredRow name (priorRows prior)) =
      .ok rows := by
    refine Except.mapM_eq_ok_iff.mpr (List.forall₂_map_left_iff.mpr (h.imp ?_))
    exact fun object row hrow => Table.declaredRow_eq_ok_iff.mpr ⟨object, rfl, hrow⟩
  rw [toValue_table, hmapM]
  rfl

private theorem exists_objects {earlier : List (Assoc Value)} {items : List Json}
    {rows : List (Assoc Value)}
    (h : List.Forall₂ (fun i row => table.declaredRow name earlier i = .ok row) items rows) :
    ∃ objects, items = objects.map .object ∧
      List.Forall₂ (table.ReadOver earlier) objects rows := by
  induction h with
  | nil => exact ⟨[], rfl, .nil⟩
  | cons hrow _ ih =>
      obtain ⟨objects, rfl, hobjects⟩ := ih
      obtain ⟨object, rfl, hread⟩ := Table.declaredRow_eq_ok_iff.mp hrow
      exact ⟨object :: objects, rfl, .cons hread hobjects⟩

/-- **A table is read from objects only**, or from nothing. -/
theorem toValue_rows_cases {j : Json} {v : Value}
    (h : (FieldKind.table table).toValue name j prior = .ok v) :
    (j = .null ∧ v = .null) ∨ ∃ objects rows, j = .array (objects.map .object) ∧
      List.Forall₂ (table.ReadOver (priorRows prior)) objects rows ∧
        v = table.valueOf (Rows.arrange table (priorRows prior) rows) := by
  rcases toValue_table_cases h with hnull | ⟨items, rows, rfl, hrows, rfl⟩
  · exact .inl hnull
  · obtain ⟨objects, rfl, hobjects⟩ := exists_objects hrows
    exact .inr ⟨objects, rows, rfl, hobjects, rfl⟩

/-- A string is read as itself, if at all. -/
theorem toValue_of_string {kind : FieldKind} {s : String} {v : Value}
    (h : kind.toValue name (.string s) prior = .ok v) : v = .string s := by
  cases kind with
  | string => exact (Except.ok.inj h).symm
  | table table =>
      rcases toValue_table_cases h with ⟨hj, -⟩ | ⟨_, _, hj, -⟩ <;> exact nomatch hj
  | _ => exact nomatch h

end FieldKind

section Read

variable {table : Table} {earlier : List (Assoc Value)}
  (hn : (table.fields.map (·.name)).Nodup)
  (hkey : ∀ key ∈ table.key, ∃ f ∈ table.fields, f.name = key)
include hn hkey

/-- **A row is read with the key that the remote row carries.** -/
theorem keyOf_of_read {object : Assoc Json} {row : Assoc Value} {key id : String}
    (h : table.ReadOver earlier object row) (hk : table.key = some key)
    (hid : remoteKeyOf table.fields key object = some id) : keyOf key row = some id := by
  obtain ⟨f, hf, rfl⟩ := hkey key hk
  obtain ⟨entries, hentries, rfl⟩ := Except.map_eq_ok h
  have hread := get?_declared_of_mem hentries hn hf
  rw [hk, matchingRow?_eq, hid] at hread
  obtain ⟨j, hj, hstring⟩ := Option.bind_eq_some_iff.mp hid
  rw [remoteKey_of_mem hn hf] at hj
  obtain rfl := eq_string_of_asString? hstring
  rw [Field.declared?, hj, Option.bind_some, Rows.unsetIn_find?] at hread
  simp only [Bool.false_and, Bool.false_eq_true, if_false] at hread
  obtain ⟨v, hv, hget⟩ := Except.map_eq_ok hread
  rw [keyOf, ← hget, FieldKind.toValue_of_string hv]
  rfl

/-- The rows are read with the keys of the remote rows. -/
theorem map_keyOf_of_read {objects : List (Assoc Json)} {rows : List (Assoc Value)} {key : String}
    (h : List.Forall₂ (table.ReadOver earlier) objects rows) (hk : table.key = some key)
    (hsome : ∀ object ∈ objects, (remoteKeyOf table.fields key object).isSome = true) :
    rows.map (keyOf key) = objects.map (remoteKeyOf table.fields key) := by
  induction h with
  | nil => rfl
  | cons hread _ ih =>
      rw [List.forall_mem_cons] at hsome
      obtain ⟨id, hid⟩ := Option.isSome_iff_exists.mp hsome.1
      rw [List.map_cons, List.map_cons, ih hsome.2, hid, keyOf_of_read hn hkey hread hk hid]

/-- **Rows with distinct keys are read as keyed rows.** -/
theorem keyedRows_of_read {objects : List (Assoc Json)} {rows : List (Assoc Value)}
    (h : List.Forall₂ (table.ReadOver earlier) objects rows)
    (hkeyed : (FieldKind.table table).KeyedRemote (.array (objects.map .object))) :
    KeyedRows table.key rows := by
  intro key hk
  obtain ⟨hsome, hnodup⟩ := FieldKind.keyedRemote_objects_iff.mp hkeyed key hk
  have hkeys := map_keyOf_of_read hn hkey h hk hsome
  refine ⟨?_, hkeys ▸ hnodup⟩
  intro row hrow
  have hmem := List.mem_map_of_mem (f := keyOf key) hrow
  rw [hkeys] at hmem
  obtain ⟨object, hobject, hid⟩ := List.mem_map.mp hmem
  rw [← hid]
  exact hsome object hobject

end Read

end TrafficConfig
