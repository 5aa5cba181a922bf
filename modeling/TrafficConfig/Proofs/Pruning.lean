import TrafficConfig.Proofs.Filling

/-!
# Parts of values

What remains of a value when only some entries are kept in the rows of its tables:

* **`FieldKind.prune`** — the rows of a table keep the entries of its fields that are
  wanted, and these are pruned in turn; what is only read stays as it is. **`pruneRow`**
  is one row, and **`get?_pruneRow`** its view;
* **`FieldKind.known`** — the rows of a table keep the attributes of its fields, which is
  what fields know of a value. **`knownRow`** is one row, **`getOrNull_knownRow`** its view;
* **`FieldKind.plain_prune`**, **`Field.plain_known`** — a plain value stays plain.
-/

namespace TrafficConfig

open Value ChangeSet

/-! ## Rows -/

/-- A function on the rows of a table; a map is no table. -/
def Value.mapRows (f : Assoc Value → Assoc Value) : Value → Value
  | .map entries => .map entries
  | v => v.mapInstances f

section Rows

variable {f : Assoc Value → Assoc Value} {v : Value}

/-- Rows are changed as instances are, or not at all. -/
theorem Value.mapRows_eq_or (f : Assoc Value → Assoc Value) (v : Value) :
    v.mapRows f = v ∨ v.mapRows f = v.mapInstances f := by
  cases v with
  | map entries => exact .inl rfl
  | _ => exact .inr rfl

/-- The rows of a changed value are the changed rows. -/
theorem rows_mapRows (f : Assoc Value → Assoc Value) (v : Value) :
    (v.mapRows f).rows = v.rows.map f := by
  cases v with
  | list items => exact rows_mapInstances f (.list items)
  | set items => exact rows_mapInstances f (.set items)
  | _ => rfl

/-- Changing rows keeps a value plain if it keeps them plain. -/
theorem plain_mapRows
    (hf : ∀ entries, Plain (.map entries) → Plain (.map (f entries))) (h : Plain v) :
    Plain (v.mapRows f) := by
  rcases v.mapRows_eq_or f with heq | heq
  · rw [heq]
    exact h
  · rw [heq]
    exact plain_mapInstances hf h

/-- The instances are those from before, or come from them. -/
theorem mem_instances_mapRows {row : Assoc Value} (h : .map row ∈ (v.mapRows f).instances) :
    .map row ∈ v.instances ∨ ∃ before, .map before ∈ v.instances ∧ row = f before := by
  rcases v.mapRows_eq_or f with heq | heq
  · rw [heq] at h
    exact .inl h
  · rw [heq] at h
    exact .inr (mem_instances_mapInstances h)

/-- A change that changes no row changes nothing. -/
theorem mapRows_eq_self (h : ∀ row ∈ v.rows, f row = row) : v.mapRows f = v := by
  have hitems : ∀ items : List Value, (∀ row ∈ items.filterMap asMap?, f row = row) →
      (items.map fun
        | .map entries => .map (f entries)
        | v => v) = items := by
    intro items hrows
    refine (List.map_congr_left fun item hitem => ?_).trans (List.map_id items)
    cases item with
    | map entries =>
        exact congrArg Value.map (hrows entries (List.mem_filterMap.mpr ⟨_, hitem, rfl⟩))
    | _ => rfl
  cases v with
  | list items => exact congrArg Value.list (hitems items h)
  | set items => exact congrArg Value.set (hitems items h)
  | _ => rfl

/-- The rows of a table's value are changed one by one. -/
theorem mapRows_valueOf (table : Table) (rows : List (Assoc Value)) :
    (table.valueOf rows).mapRows f = table.valueOf (rows.map f) := by
  rw [Table.valueOf, Table.valueOf]
  split
  · show Value.list _ = _
    rw [List.map_map, List.map_map]
    rfl
  · show Value.set _ = _
    rw [List.map_map, List.map_map]
    rfl

end Rows

/-! ## Pruning -/

mutual

/-- What remains of a value when the rows of its tables keep only wanted entries. -/
def FieldKind.prune (wanted : Field → Value → Bool) : FieldKind → Value → Value
  | .table ⟨fields, _, _⟩, v =>
    v.mapRows fun row => Assoc.ofEntries (prunedEntries wanted fields row)
  | _, v => v

/-- The wanted entries of a row, in the order of the table. -/
def prunedEntries (wanted : Field → Value → Bool) :
    List Field → Assoc Value → List (String × Value)
  | [], _ => []
  | ⟨name, remote, kind, readOnly, alwaysSent⟩ :: rest, row =>
    match Assoc.get? row name with
    | none => prunedEntries wanted rest row
    | some v =>
      if wanted ⟨name, remote, kind, readOnly, alwaysSent⟩ v then
        (name, if readOnly then v else kind.prune wanted v) :: prunedEntries wanted rest row
      else prunedEntries wanted rest row

end

variable {wanted : Field → Value → Bool}

/-- What remains of the value of a field; what is only read stays as it is. -/
def Field.prune (wanted : Field → Value → Bool) (f : Field) (v : Value) : Value :=
  if f.readOnly then v else f.kind.prune wanted v

/-- What remains of a row. -/
def pruneRow (wanted : Field → Value → Bool) (fields : List Field) (row : Assoc Value) :
    Assoc Value :=
  Assoc.ofEntries (prunedEntries wanted fields row)

/-- A table is pruned row by row. -/
theorem FieldKind.prune_table (table : Table) (v : Value) :
    (FieldKind.table table).prune wanted v =
      v.mapRows (pruneRow wanted table.fields) := by
  obtain ⟨fields, key, ordered⟩ := table
  rw [FieldKind.prune]
  rfl

private theorem prunedEntries_cons (f : Field) (rest : List Field) (row : Assoc Value) :
    prunedEntries wanted (f :: rest) row =
      (((Assoc.get? row f.name).filter (wanted f)).toList.map fun v =>
        (f.name, f.prune wanted v)) ++ prunedEntries wanted rest row := by
  obtain ⟨name, remote, kind, readOnly, alwaysSent⟩ := f
  rw [prunedEntries]
  cases hv : Assoc.get? row name with
  | none => rfl
  | some v =>
      by_cases hw : wanted ⟨name, remote, kind, readOnly, alwaysSent⟩ v = true
      · simp only [hw, if_true, Option.filter_some]
        rfl
      · simp only [hw, Option.filter_some]
        rfl

/-- The entries that remain of a row are the wanted ones of its fields. -/
theorem mem_prunedEntries {fields : List Field} {row : Assoc Value} {q : String}
    {x : Value} : (q, x) ∈ prunedEntries wanted fields row ↔
      ∃ f ∈ fields, f.name = q ∧
        ((Assoc.get? row f.name).filter (wanted f)).map (f.prune wanted) = some x := by
  induction fields with
  | nil => simp [prunedEntries]
  | cons f rest ih =>
      rw [prunedEntries_cons, List.mem_append, ih]
      cases hv : (Assoc.get? row f.name).filter (wanted f) with
      | none => simp only [List.exists_mem_cons_iff, hv]; simp
      | some v =>
          simp only [List.exists_mem_cons_iff, hv]
          refine or_congr ?_ Iff.rfl
          simp [eq_comm]

section Row

variable {fields : List Field} {row : Assoc Value}

/-- **What remains of a row under the name of a field**: its value, as far as it is
    wanted. -/
theorem get?_pruneRow (hn : (fields.map (·.name)).Nodup) {f : Field} (hf : f ∈ fields) :
    Assoc.get? (pruneRow wanted fields row) f.name =
      ((Assoc.get? row f.name).filter (wanted f)).map (f.prune wanted) :=
  Assoc.get?_ofEntries_of_fields (fun _ _ => mem_prunedEntries) hn hf

/-- Nothing remains of a row under other names. -/
theorem get?_pruneRow_of_not_mem {q : String} (hq : q ∉ fields.map (·.name)) :
    Assoc.get? (pruneRow wanted fields row) q = none :=
  Assoc.get?_ofEntries_of_no_field (fun _ _ => mem_prunedEntries) hq

/-- A pruned row has its keys in order. -/
theorem sorted_pruneRow : Assoc.Sorted (pruneRow wanted fields row) :=
  Assoc.sorted_ofEntries _

/-- What remains of a row comes from a field. -/
theorem exists_of_mem_pruneRow {e : String × Value}
    (he : e ∈ pruneRow wanted fields row) :
    ∃ f ∈ fields, ∃ v, (f.name, v) ∈ row ∧ e = (f.name, f.prune wanted v) := by
  obtain ⟨q, x⟩ := e
  have hget := Assoc.get?_of_mem (Assoc.nodup_keys_of_sorted sorted_pruneRow) he
  obtain ⟨f, hf, rfl, hx⟩ := mem_prunedEntries.mp (Assoc.mem_of_get?_ofEntries hget)
  obtain ⟨v, hv, rfl⟩ := Option.map_eq_some_iff.mp hx
  exact ⟨f, hf, v, Assoc.mem_of_get? (Option.filter_eq_some_iff.mp hv).1, rfl⟩

end Row

/-! ## Plain values -/

private theorem Field.plain_prune {f : Field} {v : Value}
    (hkind : ∀ v, Plain v → Plain (f.kind.prune wanted v)) (hv : Plain v) :
    Plain (f.prune wanted v) := by
  unfold Field.prune
  split
  · exact hv
  · exact hkind v hv

private theorem plain_pruneRow_of {fields : List Field} {row : Assoc Value}
    (hkinds : ∀ f ∈ fields, ∀ v, Plain v → Plain (f.kind.prune wanted v))
    (h : Plain (.map row)) : Plain (.map (pruneRow wanted fields row)) := by
  refine plain_map_iff.mpr ⟨sorted_pruneRow, fun e he => ?_⟩
  obtain ⟨f, hf, v, hv, rfl⟩ := exists_of_mem_pruneRow he
  exact Field.plain_prune (hkinds f hf) ((plain_map_iff.mp h).2 _ hv)

/-- **What remains of a plain value is plain.** -/
theorem FieldKind.plain_prune (kind : FieldKind) :
    ∀ v, Plain v → Plain (kind.prune wanted v) := by
  induction kind using FieldKind.induction with
  | table table ih =>
      intro v hv
      rw [FieldKind.prune_table]
      exact plain_mapRows (fun row hrow => plain_pruneRow_of ih hrow) hv
  | string | bool | int | list | set => exact fun v hv => hv

/-- A pruned row is plain if the row is. -/
theorem plain_pruneRow {fields : List Field} {row : Assoc Value} (h : Plain (.map row)) :
    Plain (.map (pruneRow wanted fields row)) :=
  plain_pruneRow_of (fun f _ => f.kind.plain_prune) h

/-! ## What fields know -/

/-- What the fields of a kind know of a value: the rows of its tables keep the entries of
    fields, and no others. -/
def FieldKind.known (kind : FieldKind) (v : Value) : Value := kind.prune (fun _ _ => true) v

/-- What a field knows of a value; what is only read stays as it is. -/
def Field.known (f : Field) (v : Value) : Value := f.prune (fun _ _ => true) v

/-- What fields know of a row. -/
def knownRow (fields : List Field) (row : Assoc Value) : Assoc Value :=
  pruneRow (fun _ _ => true) fields row

/-- A table knows of a value what its fields know of the rows. -/
theorem FieldKind.known_table (table : Table) (v : Value) :
    (FieldKind.table table).known v = v.mapRows (knownRow table.fields) :=
  FieldKind.prune_table table v

/-- A field that is only read knows all of its value. -/
theorem Field.known_of_readOnly {f : Field} (h : f.readOnly = true) (v : Value) :
    f.known v = v :=
  if_pos h

theorem Field.known_of_writable {f : Field} (h : f.readOnly = false) (v : Value) :
    f.known v = f.kind.known v := by
  rw [Field.known, Field.prune, h, if_neg Bool.false_ne_true]
  rfl

/-- A field knows a value that its kind knows. -/
theorem Field.known_eq_of_kind {f : Field} {v : Value} (h : f.kind.known v = v) :
    f.known v = v := by
  cases hread : f.readOnly with
  | true => exact Field.known_of_readOnly hread v
  | false => rw [Field.known_of_writable hread, h]

/-- What is known of a plain value is plain. -/
theorem Field.plain_known (f : Field) {v : Value} (hv : Plain v) : Plain (f.known v) :=
  Field.plain_prune f.kind.plain_prune hv

section Known

variable {fields : List Field} {row : Assoc Value} {v : Value}

/-- Under the name of a field stands what the field knows of the entry. -/
theorem get?_knownRow (hn : (fields.map (·.name)).Nodup) {f : Field} (hf : f ∈ fields) :
    Assoc.get? (knownRow fields row) f.name = (Assoc.get? row f.name).map f.known := by
  rw [knownRow, get?_pruneRow hn hf]
  cases Assoc.get? row f.name <;> rfl

/-- Nothing is known under a name without a field. -/
theorem get?_knownRow_of_not_mem {q : String} (hq : q ∉ fields.map (·.name)) :
    Assoc.get? (knownRow fields row) q = none :=
  get?_pruneRow_of_not_mem hq

/-- What fields know of a value that is blank is the value. -/
theorem FieldKind.known_of_isBlank (kind : FieldKind) (h : isBlank v = true) :
    kind.known v = v := by
  cases kind with
  | table table =>
      rw [FieldKind.known_table]
      rcases isBlank_iff.mp h with rfl | rfl | rfl <;> rfl
  | _ => rfl

/-- The value under the name of a field is what the field knows of it. -/
theorem getOrNull_knownRow (hn : (fields.map (·.name)).Nodup) {f : Field} (hf : f ∈ fields) :
    getOrNull (knownRow fields row) f.name = f.known (getOrNull row f.name) := by
  rw [getOrNull, getOrNull, get?_knownRow hn hf]
  cases Assoc.get? row f.name with
  | none => exact (Field.known_eq_of_kind (f.kind.known_of_isBlank rfl)).symm
  | some v => rfl

/-- Fields know a row that holds nothing else, and whose values they know. -/
theorem knownRow_eq_self (hn : (fields.map (·.name)).Nodup) (hrow : Assoc.Sorted row)
    (hkeys : ∀ q ∈ Assoc.keys row, q ∈ fields.map (·.name))
    (h : ∀ f ∈ fields, f.kind.known (getOrNull row f.name) = getOrNull row f.name) :
    knownRow fields row = row := by
  refine Assoc.ext_of_sorted sorted_pruneRow hrow fun q => ?_
  by_cases hq : q ∈ fields.map (·.name)
  · obtain ⟨f, hf, rfl⟩ := List.mem_map.mp hq
    rw [get?_knownRow hn hf]
    cases hv : Assoc.get? row f.name with
    | none => rfl
    | some v =>
        have hknown := h f hf
        rw [getOrNull_of_get? hv] at hknown
        rw [Option.map_some, Field.known_eq_of_kind hknown]
  · rw [get?_knownRow_of_not_mem hq, eq_comm, ← Option.not_isSome_iff_eq_none,
      Assoc.get?_isSome]
    exact fun hmem => hq (hkeys q hmem)

/-- **Fields know a value that holds nothing else on all levels.** -/
theorem FieldKind.known_eq_self {kind : FieldKind} {name : String}
    (hnaming : kind.checkNaming name = .ok ()) (hv : Plain v)
    (h : kind.Throughout FieldKind.LaidOut v) : kind.known v = v := by
  induction kind using FieldKind.induction generalizing name v with
  | table table ih =>
      have hfields := checkNaming_table hnaming
      obtain ⟨hkeys, hrows⟩ := FieldKind.throughout_table_iff.mp h
      rw [FieldKind.known_table]
      refine mapRows_eq_self fun row hrow => ?_
      have hplain := hv.rows row hrow
      refine knownRow_eq_self (checkNaming_names hfields) hplain.sorted (hkeys row hrow) ?_
      intro f hf
      exact ih f hf (checkNaming_kinds hfields f hf) (hplain.getOrNull f.name)
        (fieldsThroughout_iff.mp (hrows row hrow) f hf)
  | string | bool | int | list | set => rfl

end Known

end TrafficConfig
