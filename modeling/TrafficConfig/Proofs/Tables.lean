import TrafficConfig.Proofs.Declared
import TrafficConfig.Proofs.Plain
import TrafficConfig.Section.Naming

/-!
# Values that fit their fields

What a plan may hold for a field, so that it can be told apart from what the remote side
brings back:

* **`checkNaming_names`**, **`checkNaming_remotes`** — a table of fields whose names
  correspond has no name twice, on either side. **`FieldKind.keySent`** says that the key
  of every table is sent, so that rows are known again;
* **`FieldKind.Fits`** — a collection has the kind of its field; the rows of a table have
  distinct strings as keys, and hold only attributes of the table. **`RowFits`** says this
  of one row, **`FieldsFit`** of the values of many fields;
* **`FieldKind.Throughout`** — a condition on the values of kinds, on all levels. What
  fits has the kinds, the keys and the layout of its fields throughout
  (**`FieldKind.fits_iff`**). Such conditions are shown by **`FieldKind.induction`**:
  kinds are nested finitely often;
* **`FieldKind.tablesWritten`** — no table is only read, so that no row is sent without
  the rows inside it;
* **`exists_matching_rows`** — equal tables have equal rows, up to the order of a set. So
  what equals fitting values fits (**`FieldsFit.of_sameEntries`**).
-/

namespace TrafficConfig

open Value

/-! ## Induction -/

mutual

/-- What holds of the kinds without fields, and of a table when it holds of its fields,
    holds of every kind. -/
@[elab_as_elim]
theorem FieldKind.induction {motive : FieldKind → Prop} (string : motive .string)
    (bool : motive .bool) (int : motive .int) (list : motive .list) (set : motive .set)
    (table : ∀ t : Table, (∀ f ∈ t.fields, motive f.kind) → motive (.table t)) :
    ∀ kind : FieldKind, motive kind
  | .table ⟨fields, key, ordered⟩ =>
      table ⟨fields, key, ordered⟩
        (FieldKind.fieldsInduction string bool int list set table fields)
  | .string => string
  | .bool => bool
  | .int => int
  | .list => list
  | .set => set

private theorem FieldKind.fieldsInduction {motive : FieldKind → Prop}
    (string : motive .string) (bool : motive .bool) (int : motive .int)
    (list : motive .list) (set : motive .set)
    (table : ∀ t : Table, (∀ f ∈ t.fields, motive f.kind) → motive (.table t)) :
    ∀ fields : List Field, ∀ f ∈ fields, motive f.kind
  | [], _, hf => nomatch hf
  | ⟨_, _, kind, _, _⟩ :: rest, f, hf => by
    rcases List.mem_cons.mp hf with rfl | hf
    · exact FieldKind.induction string bool int list set table kind
    · exact FieldKind.fieldsInduction string bool int list set table rest f hf

end

/-! ## Names -/

private theorem clash_ok {name remote : String} {fields : List Field}
    (h : clash name remote fields = .ok ()) :
    ∀ g ∈ fields, name ≠ g.name ∧ remote ≠ g.remote := by
  induction fields with
  | nil => exact fun _ hg => nomatch hg
  | cons f rest ih =>
      rw [clash] at h
      split at h
      · exact nomatch h
      · next hname =>
          split at h
          · exact nomatch h
          · next hremote =>
              intro g hg
              rcases List.mem_cons.mp hg with rfl | hg
              · exact ⟨hname, hremote⟩
              · exact ih h g hg

/-- Where names correspond, the first field clashes with no other one, and the names within it
    and those of the others correspond. -/
theorem checkNaming_cons {f : Field} {rest : List Field}
    (h : checkNaming (f :: rest) = .ok ()) :
    clash f.name f.remote rest = .ok () ∧ f.kind.checkNaming f.name = .ok () ∧
      checkNaming rest = .ok () := by
  obtain ⟨name, remote, kind, readOnly, alwaysSent⟩ := f
  rw [checkNaming] at h
  obtain ⟨⟨⟩, hclash, h⟩ := Except.bind_eq_ok h
  obtain ⟨⟨⟩, hkind, h⟩ := Except.bind_eq_ok h
  exact ⟨hclash, hkind, h⟩

/-- No declared name is used twice. -/
theorem checkNaming_names {fields : List Field} (h : checkNaming fields = .ok ()) :
    (fields.map (·.name)).Nodup := by
  induction fields with
  | nil => exact List.nodup_nil
  | cons f rest ih =>
      obtain ⟨hclash, -, hrest⟩ := checkNaming_cons h
      rw [List.map_cons, List.nodup_cons]
      refine ⟨?_, ih hrest⟩
      intro hmem
      obtain ⟨g, hg, hname⟩ := List.mem_map.mp hmem
      exact (clash_ok hclash g hg).1 hname.symm

/-- No remote name is used twice. -/
theorem checkNaming_remotes {fields : List Field} (h : checkNaming fields = .ok ()) :
    (fields.map (·.remote)).Nodup := by
  induction fields with
  | nil => exact List.nodup_nil
  | cons f rest ih =>
      obtain ⟨hclash, -, hrest⟩ := checkNaming_cons h
      rw [List.map_cons, List.nodup_cons]
      refine ⟨?_, ih hrest⟩
      intro hmem
      obtain ⟨g, hg, hremote⟩ := List.mem_map.mp hmem
      exact (clash_ok hclash g hg).2 hremote.symm

/-- The names in the tables of all fields correspond. -/
theorem checkNaming_kinds {fields : List Field} (h : checkNaming fields = .ok ()) :
    ∀ f ∈ fields, f.kind.checkNaming f.name = .ok () := by
  induction fields with
  | nil => exact fun _ hf => nomatch hf
  | cons f rest ih =>
      obtain ⟨-, hkind, hrest⟩ := checkNaming_cons h
      exact List.forall_mem_cons.mpr ⟨hkind, ih hrest⟩

/-- The names within a table correspond. -/
theorem checkNaming_table {table : Table} {name : String}
    (h : (FieldKind.table table).checkNaming name = .ok ()) :
    checkNaming table.fields = .ok () := by
  obtain ⟨fields, key, ordered⟩ := table
  cases key with
  | none =>
      rw [FieldKind.checkNaming] at h
      exact h
  | some key =>
      rw [FieldKind.checkNaming] at h
      split at h
      · exact h
      · exact nomatch h

mutual

/-- Every table inside a kind has a key, and its key is sent. -/
def FieldKind.keySent : FieldKind → Bool
  | .table ⟨fields, key, _⟩ =>
      fields.any (fun f => key == some f.name && !f.readOnly) && keysSent fields
  | _ => true

/-- Every table inside a table of fields has a key, and its key is sent. -/
def keysSent : List Field → Bool
  | [] => true
  | ⟨_, _, kind, _, _⟩ :: rest => kind.keySent && keysSent rest

end

/-- All keys are sent when those of every field are. -/
theorem keysSent_iff {fields : List Field} :
    keysSent fields = true ↔ ∀ f ∈ fields, f.kind.keySent = true := by
  induction fields with
  | nil => simp [keysSent]
  | cons f rest ih =>
      obtain ⟨name, remote, kind, readOnly, alwaysSent⟩ := f
      rw [keysSent, Bool.and_eq_true, ih, List.forall_mem_cons]

/-- The key of a table is one of its writable fields. -/
theorem keySent_table {table : Table} (h : (FieldKind.table table).keySent = true) :
    (∃ f ∈ table.fields, table.key = some f.name ∧ f.readOnly = false) ∧
      keysSent table.fields = true := by
  obtain ⟨fields, key, ordered⟩ := table
  rw [FieldKind.keySent, Bool.and_eq_true, List.any_eq_true] at h
  obtain ⟨⟨f, hf, hkey⟩, hrest⟩ := h
  exact ⟨⟨f, hf, by simpa using hkey⟩, hrest⟩

/-- A kind of rows. -/
def FieldKind.isTable : FieldKind → Bool
  | .table _ => true
  | _ => false

mutual

/-- No table inside a kind is only read. -/
def FieldKind.tablesWritten : FieldKind → Bool
  | .table ⟨fields, _, _⟩ => tablesWritten fields
  | _ => true

/-- No table in a table of fields is only read, on all levels. -/
def tablesWritten : List Field → Bool
  | [] => true
  | ⟨_, _, kind, readOnly, _⟩ :: rest =>
      !(readOnly && kind.isTable) && kind.tablesWritten && tablesWritten rest

end

theorem FieldKind.tablesWritten_table (table : Table) :
    (FieldKind.table table).tablesWritten = TrafficConfig.tablesWritten table.fields := by
  obtain ⟨fields, key, ordered⟩ := table
  rw [FieldKind.tablesWritten]

/-- No table is only read when this is so of every field. -/
theorem tablesWritten_iff {fields : List Field} :
    tablesWritten fields = true ↔
      ∀ f ∈ fields, (f.readOnly = true → f.kind.isTable = false) ∧
        f.kind.tablesWritten = true := by
  induction fields with
  | nil => simp [tablesWritten]
  | cons f rest ih =>
      obtain ⟨name, remote, kind, readOnly, alwaysSent⟩ := f
      rw [tablesWritten, Bool.and_eq_true, Bool.and_eq_true, ih, List.forall_mem_cons]
      refine and_congr_left' (and_congr_left' ?_)
      cases readOnly <;> simp

/-- The key of a table is the name of a field. -/
theorem checkNaming_key {table : Table} {name key : String}
    (h : (FieldKind.table table).checkNaming name = .ok ()) (hkey : table.key = some key) :
    ∃ f ∈ table.fields, f.name = key := by
  obtain ⟨fields, _, ordered⟩ := table
  obtain rfl : _ = some key := hkey
  rw [FieldKind.checkNaming] at h
  split at h
  · next hany =>
      obtain ⟨f, hf, hname⟩ := List.any_eq_true.mp hany
      exact ⟨f, hf, of_decide_eq_true hname⟩
  · exact nomatch h

/-! ## Rows -/

/-- The rows of a value: the elements that are maps. -/
abbrev Value.rows (v : Value) : List (Assoc Value) := (v.elements?.getD []).filterMap asMap?

/-- The key of a row, if it is a string. -/
def keyOf (key : String) (row : Assoc Value) : Option String :=
  (Assoc.get? row key).bind asString?

/-- Every row has a string as its key, and no two have the same. -/
def KeyedRows (key : Option String) (rows : List (Assoc Value)) : Prop :=
  ∀ k ∈ key, (∀ row ∈ rows, (keyOf k row).isSome = true) ∧ (rows.map (keyOf k)).Nodup

mutual

/-- A value may stand in a plan for a field of a kind. -/
def FieldKind.Fits : FieldKind → Value → Prop
  | .table ⟨fields, key, ordered⟩, v =>
    v.kindName ≠ (if ordered then "set" else "list") ∧ KeyedRows key v.rows ∧
      ∀ row ∈ v.rows, (∀ q ∈ Assoc.keys row, q ∈ fields.map (·.name)) ∧ FieldsFit fields row
  | .list, v => v.kindName ≠ "set"
  | .set, v => v.kindName ≠ "list"
  | _, v => v.kindName ≠ "list" ∧ v.kindName ≠ "set"

/-- The values of fields may stand in a plan. -/
def FieldsFit : List Field → Assoc Value → Prop
  | [], _ => True
  | ⟨name, _, kind, _, _⟩ :: rest, values => kind.Fits (getOrNull values name) ∧
      FieldsFit rest values

end

/-- A row of a table, or the instance of a block, may stand in a plan: it holds attributes
    of the table only, and they fit. -/
structure RowFits (fields : List Field) (row : Assoc Value) : Prop where
  keys : ∀ q ∈ Assoc.keys row, q ∈ fields.map (·.name)
  fields : FieldsFit fields row

/-- Fields fit values when each one fits the value under its name. -/
theorem fieldsFit_iff {fields : List Field} {values : Assoc Value} :
    FieldsFit fields values ↔ ∀ f ∈ fields, f.kind.Fits (getOrNull values f.name) := by
  induction fields with
  | nil => simp [FieldsFit]
  | cons f rest ih =>
      obtain ⟨name, remote, kind, readOnly, alwaysSent⟩ := f
      rw [FieldsFit, ih, List.forall_mem_cons]

/-- A table fits a collection of its kind, with keyed rows that fit its fields. -/
theorem FieldKind.fits_table_iff {table : Table} {v : Value} :
    (FieldKind.table table).Fits v ↔
      v.kindName ≠ (if table.ordered then "set" else "list") ∧ KeyedRows table.key v.rows ∧
        ∀ row ∈ v.rows, RowFits table.fields row := by
  obtain ⟨fields, key, ordered⟩ := table
  rw [FieldKind.Fits]
  refine and_congr_right fun _ => and_congr_right fun _ => forall_congr' fun row =>
    imp_congr_right fun _ => ?_
  exact ⟨fun h => ⟨h.1, h.2⟩, fun h => ⟨h.keys, h.fields⟩⟩

/-! ## Conditions on all levels -/

mutual

/-- A condition on the values of kinds holds of a value, and of all values in the rows of
    its tables. -/
def FieldKind.Throughout (p : FieldKind → Value → Prop) : FieldKind → Value → Prop
  | .table ⟨fields, key, ordered⟩, v =>
    p (.table ⟨fields, key, ordered⟩) v ∧ ∀ row ∈ v.rows, FieldsThroughout p fields row
  | kind, v => p kind v

/-- A condition on the values of kinds holds of the values of all fields, on all levels. -/
def FieldsThroughout (p : FieldKind → Value → Prop) : List Field → Assoc Value → Prop
  | [], _ => True
  | ⟨name, _, kind, _, _⟩ :: rest, values =>
    kind.Throughout p (getOrNull values name) ∧ FieldsThroughout p rest values

end

mutual

/-- A condition that can be decided can be decided on all levels. -/
def FieldKind.decideThroughout {p : FieldKind → Value → Prop}
    (hp : ∀ kind v, Decidable (p kind v)) :
    ∀ (kind : FieldKind) (v : Value), Decidable (kind.Throughout p v)
  | .table ⟨fields, key, ordered⟩, v =>
    have := hp (.table ⟨fields, key, ordered⟩) v
    have := fun row => decideFieldsThroughout hp fields row
    inferInstanceAs (Decidable (p (.table ⟨fields, key, ordered⟩) v ∧
      ∀ row ∈ v.rows, FieldsThroughout p fields row))
  | .string, v => hp .string v
  | .bool, v => hp .bool v
  | .int, v => hp .int v
  | .list, v => hp .list v
  | .set, v => hp .set v

def decideFieldsThroughout {p : FieldKind → Value → Prop}
    (hp : ∀ kind v, Decidable (p kind v)) :
    ∀ (fields : List Field) (values : Assoc Value), Decidable (FieldsThroughout p fields values)
  | [], _ => isTrue trivial
  | ⟨name, _, kind, _, _⟩ :: rest, values =>
    have := FieldKind.decideThroughout hp kind (getOrNull values name)
    have := decideFieldsThroughout hp rest values
    inferInstanceAs (Decidable (kind.Throughout p (getOrNull values name) ∧
      FieldsThroughout p rest values))

end

section Throughout

variable {p : FieldKind → Value → Prop}

instance [∀ kind v, Decidable (p kind v)] (fields : List Field) (values : Assoc Value) :
    Decidable (FieldsThroughout p fields values) :=
  decideFieldsThroughout inferInstance fields values

/-- Something holds throughout fields when it does throughout each one. -/
theorem fieldsThroughout_iff {fields : List Field} {values : Assoc Value} :
    FieldsThroughout p fields values ↔
      ∀ f ∈ fields, f.kind.Throughout p (getOrNull values f.name) := by
  induction fields with
  | nil => simp [FieldsThroughout]
  | cons f rest ih =>
      obtain ⟨name, remote, kind, readOnly, alwaysSent⟩ := f
      rw [FieldsThroughout, ih, List.forall_mem_cons]

/-- Something holds throughout a table when it holds of the table and throughout its rows. -/
theorem FieldKind.throughout_table_iff {table : Table} {v : Value} :
    (FieldKind.table table).Throughout p v ↔
      p (.table table) v ∧ ∀ row ∈ v.rows, FieldsThroughout p table.fields row := by
  obtain ⟨fields, key, ordered⟩ := table
  rw [FieldKind.Throughout]

/-- A condition on all levels holds of the value itself. -/
theorem FieldKind.Throughout.here {kind : FieldKind} {v : Value}
    (h : kind.Throughout p v) : p kind v := by
  cases kind with
  | table table => exact (FieldKind.throughout_table_iff.mp h).1
  | string | bool | int | list | set => exact h

end Throughout

/-- A collection has the kind of its field. -/
def FieldKind.Takes : FieldKind → Value → Prop
  | .table t, v => v.kindName ≠ (if t.ordered then "set" else "list")
  | .list, v => v.kindName ≠ "set"
  | .set, v => v.kindName ≠ "list"
  | _, v => v.kindName ≠ "list" ∧ v.kindName ≠ "set"

instance (kind : FieldKind) (v : Value) : Decidable (kind.Takes v) :=
  match kind with
  | .table t => inferInstanceAs (Decidable (v.kindName ≠ (if t.ordered then "set" else "list")))
  | .list => inferInstanceAs (Decidable (v.kindName ≠ "set"))
  | .set => inferInstanceAs (Decidable (v.kindName ≠ "list"))
  | .string | .bool | .int =>
    inferInstanceAs (Decidable (v.kindName ≠ "list" ∧ v.kindName ≠ "set"))

/-- The rows of a table have distinct strings as keys. -/
def FieldKind.Keyed : FieldKind → Value → Prop
  | .table t, v => KeyedRows t.key v.rows
  | _, _ => True

instance (key : Option String) (rows : List (Assoc Value)) : Decidable (KeyedRows key rows) :=
  match key with
  | none => isTrue fun k hk => absurd hk.symm (Option.some_ne_none k)
  | some k => decidable_of_iff
      ((∀ row ∈ rows, (keyOf k row).isSome = true) ∧ (rows.map (keyOf k)).Nodup)
      ⟨fun h _ hk => Option.some.inj hk ▸ h, fun h => h k rfl⟩

instance (kind : FieldKind) (v : Value) : Decidable (kind.Keyed v) :=
  match kind with
  | .table t => inferInstanceAs (Decidable (KeyedRows t.key v.rows))
  | .string | .bool | .int | .list | .set => isTrue trivial

/-- The rows of a table hold attributes of the table only. -/
def FieldKind.LaidOut : FieldKind → Value → Prop
  | .table t, v => ∀ row ∈ v.rows, ∀ q ∈ Assoc.keys row, q ∈ t.fields.map (·.name)
  | _, _ => True

mutual

/-- What fits has the kinds, the keys and the layout of its fields on all levels. -/
theorem FieldKind.fits_iff : ∀ (kind : FieldKind) (v : Value), kind.Fits v ↔
    kind.Throughout (fun kind v => kind.Takes v ∧ kind.Keyed v ∧ kind.LaidOut v) v
  | .table ⟨fields, key, ordered⟩, v => by
    rw [FieldKind.Fits, FieldKind.Throughout]
    constructor
    · rintro ⟨htakes, hkeyed, hrows⟩
      exact ⟨⟨htakes, hkeyed, fun row hrow => (hrows row hrow).1⟩,
        fun row hrow => (fieldsFit_iff_throughout fields row).mp (hrows row hrow).2⟩
    · rintro ⟨⟨htakes, hkeyed, hlaid⟩, hrows⟩
      exact ⟨htakes, hkeyed, fun row hrow => ⟨hlaid row hrow,
        (fieldsFit_iff_throughout fields row).mpr (hrows row hrow)⟩⟩
  | .string, _ | .bool, _ | .int, _ | .list, _ | .set, _ => by
    simp only [FieldKind.Fits, FieldKind.Throughout, FieldKind.Takes, FieldKind.Keyed,
      FieldKind.LaidOut, and_true]

/-- Fields fit when values are taken, keyed and laid out at every depth. -/
theorem fieldsFit_iff_throughout : ∀ (fields : List Field) (values : Assoc Value),
    FieldsFit fields values ↔
      FieldsThroughout (fun kind v => kind.Takes v ∧ kind.Keyed v ∧ kind.LaidOut v) fields
        values
  | [], _ => Iff.rfl
  | ⟨_, _, kind, _, _⟩ :: rest, values => by
    rw [FieldsFit, FieldsThroughout, FieldKind.fits_iff kind,
      fieldsFit_iff_throughout rest values]

end

/-- A collection has the kind of its field, and the rows of a table are told apart by
    their keys. -/
def FieldKind.Traceable (kind : FieldKind) (v : Value) : Prop := kind.Takes v ∧ kind.Keyed v

instance (kind : FieldKind) (v : Value) : Decidable (kind.Traceable v) :=
  inferInstanceAs (Decidable (kind.Takes v ∧ kind.Keyed v))

section Imp

variable {p q : FieldKind → Value → Prop} (h : ∀ kind v, p kind v → q kind v)
include h

/-- A weaker condition holds on all levels, too. -/
theorem FieldKind.Throughout.imp {kind : FieldKind} {v : Value} (hv : kind.Throughout p v) :
    kind.Throughout q v := by
  induction kind using FieldKind.induction generalizing v with
  | table table ih =>
      obtain ⟨hhere, hrows⟩ := FieldKind.throughout_table_iff.mp hv
      refine FieldKind.throughout_table_iff.mpr ⟨h _ v hhere, fun row hrow => ?_⟩
      refine fieldsThroughout_iff.mpr fun f hf => ih f hf ?_
      exact fieldsThroughout_iff.mp (hrows row hrow) f hf
  | string | bool | int | list | set => exact h _ v hv

/-- What follows holds throughout fields too. -/
theorem FieldsThroughout.imp {fields : List Field} {values : Assoc Value}
    (hv : FieldsThroughout p fields values) : FieldsThroughout q fields values :=
  fieldsThroughout_iff.mpr fun f hf => (fieldsThroughout_iff.mp hv f hf).imp h

end Imp

/-! ## Equal values -/

/-- Equal collections have equal elements, one by one; those of a set have to be
    rearranged first. -/
theorem exists_matching_elements {u v : Value} (hu : NaNFree u) (hv : NaNFree v)
    (h : u.equals v = true) :
    ∃ zs, zs.Perm (v.elements?.getD []) ∧ Matching equals (u.elements?.getD []) zs ∧
      (v.kindName ≠ "set" → zs = v.elements?.getD []) := by
  have hk := kindName_eq_of_equals h
  cases u with
  | list xs =>
      obtain ⟨ys, rfl, hm⟩ := equals_list_iff.mp h
      exact ⟨ys, .refl _, hm, fun _ => rfl⟩
  | set xs =>
      obtain ⟨ys, rfl, hs⟩ := equals_set_iff.mp h
      obtain ⟨zs, hp, hm⟩ := equals_congruence.exists_perm_of_sameMembers
          (everywhere_set.mp hu).2 (everywhere_set.mp hv).2 hs
      exact ⟨zs, hp, hm, fun hne => absurd rfl hne⟩
  | _ =>
      cases v with
      | list ys => exact absurd hk (by simp [kindName])
      | set ys => exact absurd hk (by simp [kindName])
      | _ => exact ⟨[], .refl _, .nil, fun _ => rfl⟩

private theorem matching_filterMap {xs ys : List Value} (h : Matching equals xs ys) :
    List.Forall₂ (fun row p => sameEntries equals row p = true) (xs.filterMap asMap?)
      (ys.filterMap asMap?) := by
  induction h with
  | nil => exact .nil
  | @cons x y xs ys hxy _ ih =>
      have hk := kindName_eq_of_equals hxy
      cases x with
      | map es =>
          obtain ⟨fs, rfl, hs⟩ := equals_map_iff.mp hxy
          show List.Forall₂ _ (es :: xs.filterMap asMap?) (fs :: ys.filterMap asMap?)
          exact .cons hs ih
      | _ =>
          cases y with
          | map fs => exact absurd hk (by simp [kindName])
          | _ =>
              rw [List.filterMap_cons_none rfl, List.filterMap_cons_none rfl]
              exact ih

/-- **Equal tables have equal rows**, one by one; those of a set have to be rearranged
    first. -/
theorem exists_matching_rows {u v : Value} (hu : NaNFree u) (hv : NaNFree v)
    (h : u.equals v = true) :
    ∃ ps, ps.Perm v.rows ∧
      List.Forall₂ (fun row p => sameEntries equals row p = true) u.rows ps ∧
      (v.kindName ≠ "set" → ps = v.rows) := by
  obtain ⟨zs, hp, hm, hlist⟩ := exists_matching_elements hu hv h
  refine ⟨zs.filterMap asMap?, hp.filterMap _, matching_filterMap hm, ?_⟩
  intro hne
  rw [hlist hne]

/-- A value that holds maps only has them as its rows. -/
theorem rows_of_elements? {v : Value} {rows : List (Assoc Value)}
    (h : v.elements? = some (rows.map .map)) : v.rows = rows := by
  show (v.elements?.getD []).filterMap asMap? = rows
  rw [h, Option.getD_some, List.filterMap_map]
  exact List.filterMap_some

private theorem map_filterMap_asMap? {items : List Value}
    (h : ∀ item ∈ items, ∃ p, item = .map p) :
    (items.filterMap asMap?).map Value.map = items := by
  induction items with
  | nil => rfl
  | cons item rest ih =>
      rw [List.forall_mem_cons] at h
      obtain ⟨⟨p, rfl⟩, hrest⟩ := h
      show Value.map p :: (rest.filterMap asMap?).map Value.map = _
      rw [ih hrest]

/-- What equals a collection of maps is one. -/
theorem elements?_of_equals {u v : Value} (hu : NaNFree u) (hv : NaNFree v)
    (h : u.equals v = true) {rows : List (Assoc Value)}
    (hrows : u.elements? = some (rows.map .map)) : v.elements? = some (v.rows.map .map) := by
  obtain ⟨zs, hperm, hm, -⟩ := exists_matching_elements hu hv h
  rw [hrows, Option.getD_some] at hm
  obtain ⟨items, hitems⟩ : ∃ items, v.elements? = some items := by
    cases u with
    | list xs =>
        obtain ⟨ys, rfl, -⟩ := equals_list_iff.mp h
        exact ⟨ys, rfl⟩
    | set xs =>
        obtain ⟨ys, rfl, -⟩ := equals_set_iff.mp h
        exact ⟨ys, rfl⟩
    | _ => exact nomatch hrows
  rw [hitems, Option.getD_some] at hperm
  have hmaps : ∀ item ∈ items, ∃ p, item = Value.map p := by
    intro item hitem
    obtain ⟨i, hi, rfl⟩ := List.getElem_of_mem (hperm.mem_iff.mpr hitem)
    have hi' : i < (rows.map Value.map).length := by rw [hm.length_eq]; exact hi
    have hpair : equals (rows.map Value.map)[i] zs[i] = true := hm.get hi' hi
    rw [List.getElem_map] at hpair
    obtain ⟨p, hp, -⟩ := equals_map_iff.mp hpair
    exact ⟨p, hp⟩
  show _ = some (((v.elements?.getD []).filterMap asMap?).map Value.map)
  rw [hitems, Option.getD_some, map_filterMap_asMap? hmaps]

/-- What holds everywhere in a value holds everywhere in its rows. -/
theorem everywhere_rows {p : Value → Prop} {v : Value} (h : Everywhere p v) :
    ∀ row ∈ v.rows, Everywhere p (.map row) := by
  intro row hrow
  obtain ⟨item, hitem, hmap⟩ := List.mem_filterMap.mp hrow
  have hall : ∀ item ∈ v.elements?.getD [], Everywhere p item := by
    cases v with
    | list items => exact (everywhere_list.mp h).2
    | set items => exact (everywhere_set.mp h).2
    | _ => exact fun _ hitem => nomatch hitem
  have hone := hall item hitem
  cases item with
  | map entries =>
      obtain rfl : entries = row := Option.some.inj hmap
      exact hone
  | _ => exact nomatch hmap

/-- The rows of a plain value are plain. -/
theorem Value.Plain.rows {v : Value} (h : Plain v) :
    ∀ row ∈ v.rows, Plain (.map row) := by
  intro row hrow
  exact ⟨everywhere_rows h.nanFree row hrow, everywhere_rows h.unknownFree row hrow,
    everywhere_rows h.ascending row hrow⟩

/-- Equal rows have the same key. -/
theorem keyOf_eq_of_sameEntries {row p : Assoc Value}
    (h : sameEntries equals row p = true) (key : String) : keyOf key row = keyOf key p := by
  have hrel := get?_rel_of_sameEntries h key
  simp only [keyOf]
  generalize Assoc.get? row key = v? at hrel
  generalize Assoc.get? p key = w? at hrel
  cases hrel with
  | none => rfl
  | @some v w heq =>
      have hk := kindName_eq_of_equals heq
      cases v with
      | string s => rw [equals_string_iff.mp heq]
      | _ => cases w <;> first | rfl | simp [kindName] at hk

/-- Rows that match have the same keys. -/
theorem map_keyOf_of_matching {rows ps : List (Assoc Value)}
    (hm : List.Forall₂ (fun row p => sameEntries equals row p = true) rows ps)
    (key : String) : rows.map (keyOf key) = ps.map (keyOf key) := by
  induction hm with
  | nil => rfl
  | cons hs _ ih => rw [List.map_cons, List.map_cons, keyOf_eq_of_sameEntries hs key, ih]

/-- Keyed rows stay keyed in another order. -/
theorem KeyedRows.of_perm {key : Option String} {rows others : List (Assoc Value)}
    (h : KeyedRows key rows) (hperm : others.Perm rows) : KeyedRows key others := by
  intro k hk
  obtain ⟨hsome, hnodup⟩ := h k hk
  exact ⟨fun row hrow => hsome row (hperm.mem_iff.mp hrow),
    (hperm.map (keyOf k)).nodup_iff.mpr hnodup⟩

private theorem KeyedRows.of_matching {key : Option String}
    {rows ps qs : List (Assoc Value)} (h : KeyedRows key qs) (hp : ps.Perm qs)
    (hm : List.Forall₂ (fun row p => sameEntries equals row p = true) rows ps) :
    KeyedRows key rows := by
  intro k hk
  obtain ⟨hsome, hnodup⟩ := h k hk
  have hkeys := map_keyOf_of_matching hm k
  have hperm : (rows.map (keyOf k)).Perm (qs.map (keyOf k)) := hkeys ▸ hp.map _
  constructor
  · intro row hrow
    obtain ⟨q, hq, heq⟩ := List.mem_map.mp (hperm.mem_iff.mp (List.mem_map_of_mem hrow))
    rw [← heq]
    exact hsome q hq
  · exact hperm.nodup_iff.mpr hnodup

section Equal

variable {p : FieldKind → Value → Prop}
  (hp : ∀ kind u v, NaNFree u → NaNFree v → u.equals v = true → p kind v → p kind u)
include hp

/-- **What equals a value that meets a condition on all levels meets it**, if equal values
    share the condition. -/
theorem FieldKind.Throughout.of_equals {kind : FieldKind} {u v : Value} (hu : NaNFree u)
    (hv : NaNFree v) (heq : u.equals v = true) (h : kind.Throughout p v) :
    kind.Throughout p u := by
  induction kind using FieldKind.induction generalizing u v with
  | table table ih =>
      obtain ⟨hhere, hrows⟩ := FieldKind.throughout_table_iff.mp h
      obtain ⟨ps, hperm, hm, -⟩ := exists_matching_rows hu hv heq
      refine FieldKind.throughout_table_iff.mpr ⟨hp _ u v hu hv heq hhere, ?_⟩
      intro row hrow
      obtain ⟨i, hi, rfl⟩ := List.getElem_of_mem hrow
      have hi' : i < ps.length := by rw [← hm.length_eq]; exact hi
      have hmem : ps[i] ∈ v.rows := hperm.mem_iff.mp (List.getElem_mem hi')
      have hsame : sameEntries equals u.rows[i] ps[i] = true := hm.get hi hi'
      have hall := fieldsThroughout_iff.mp (hrows _ hmem)
      have hnan : ∀ {es : Assoc Value}, NaNFree (.map es) → ∀ q,
          NaNFree (getOrNull es q) := by
        intro es hes q
        exact everywhere_getOrNull (everywhere_map.mp hes).2 nanFree_null q
      refine fieldsThroughout_iff.mpr fun f hf => ?_
      exact ih f hf (hnan (everywhere_rows hu _ hrow) f.name)
        (hnan (everywhere_rows hv _ hmem) f.name) (equals_getOrNull hsame f.name) (hall f hf)
  | string | bool | int | list | set => exact hp _ u v hu hv heq h

/-- What holds throughout a row holds throughout an equal one. -/
theorem FieldsThroughout.of_sameEntries {fields : List Field} {es fs : Assoc Value}
    (hes : NaNFree (.map es)) (hfs : NaNFree (.map fs))
    (hs : sameEntries equals es fs = true) (h : FieldsThroughout p fields fs) :
    FieldsThroughout p fields es := by
  rw [fieldsThroughout_iff] at h ⊢
  intro f hf
  exact (h f hf).of_equals hp
    (everywhere_getOrNull (everywhere_map.mp hes).2 nanFree_null f.name)
    (everywhere_getOrNull (everywhere_map.mp hfs).2 nanFree_null f.name)
    (equals_getOrNull hs f.name)

end Equal

section Levels

variable {kind : FieldKind} {u v : Value}

/-- A kind that takes a value takes an equal one. -/
theorem FieldKind.Takes.of_equals (h : kind.Takes v) (heq : u.equals v = true) :
    kind.Takes u := by
  cases kind with
  | table t =>
      show u.kindName ≠ _
      rw [kindName_eq_of_equals heq]
      exact h
  | list | set =>
      show u.kindName ≠ _
      rw [kindName_eq_of_equals heq]
      exact h
  | string | bool | int =>
      show u.kindName ≠ _ ∧ u.kindName ≠ _
      rw [kindName_eq_of_equals heq]
      exact h

/-- Rows that are keyed are so in an equal value. -/
theorem FieldKind.Keyed.of_equals (h : kind.Keyed v) (hu : NaNFree u) (hv : NaNFree v)
    (heq : u.equals v = true) : kind.Keyed u := by
  cases kind with
  | table t =>
      obtain ⟨ps, hperm, hm, -⟩ := exists_matching_rows hu hv heq
      exact KeyedRows.of_matching h hperm hm
  | _ => trivial

/-- Rows that are laid out are so in an equal value. -/
theorem FieldKind.LaidOut.of_equals (h : kind.LaidOut v) (hu : NaNFree u) (hv : NaNFree v)
    (heq : u.equals v = true) : kind.LaidOut u := by
  cases kind with
  | table t =>
      obtain ⟨ps, hperm, hm, -⟩ := exists_matching_rows hu hv heq
      intro row hrow
      obtain ⟨i, hi, rfl⟩ := List.getElem_of_mem hrow
      have hi' : i < ps.length := by rw [← hm.length_eq]; exact hi
      have hsame : sameEntries equals u.rows[i] ps[i] = true := hm.get hi hi'
      rw [keys_eq_of_sameEntries hsame]
      exact h _ (hperm.mem_iff.mp (List.getElem_mem hi'))
  | _ => trivial

end Levels

/-- **What equals fitting values fits.** -/
theorem FieldsFit.of_sameEntries {fields : List Field} {row p : Assoc Value}
    (hfits : FieldsFit fields p) (hrow : NaNFree (.map row)) (hp : NaNFree (.map p))
    (h : sameEntries equals row p = true) : FieldsFit fields row := by
  rw [fieldsFit_iff_throughout] at hfits ⊢
  refine hfits.of_sameEntries ?_ hrow hp h
  intro kind u v hu hv heq hall
  exact ⟨hall.1.of_equals heq, hall.2.1.of_equals hu hv heq, hall.2.2.of_equals hu hv heq⟩

end TrafficConfig
