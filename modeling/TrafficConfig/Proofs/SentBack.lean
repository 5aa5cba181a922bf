import TrafficConfig.Proofs.Sent

/-!
# What was read is sent back

A section that was read without a prior is sent as it was read, apart from what cannot be
written:

* **`FieldKind.writablePart`** — what is writable of a remote value: the rows of tables
  keep the writable fields that are not null. **`writableRow`** is one row, and
  **`get?_writableRow`** its view;
* **`FieldKind.Rearranges`** — a remote value is another one, up to the order of the rows
  of unordered tables with keys; **`RowRearranges`** says it of the fields of a row;
* **`FieldKind.ExactInt`** — an integer that a number can hold without rounding;
* **`FieldKind.sendsBack`** — a value that was read can be sent, as its writable part up
  to the order of rows. A table is sent row by row, in the order into which reading put
  the rows;
* **`Section.toRemote_of_toDeclared`** — so a section that was read is sent back.
-/

namespace TrafficConfig

open Value

/-! ## The writable part -/

mutual

/-- What is writable of a remote value. -/
def FieldKind.writablePart : FieldKind → Json → Json
  | .table ⟨fields, _, _⟩, j =>
    .array (j.rows.map fun row => .object (Assoc.ofEntries (writableEntries fields row)))
  | _, j => j

/-- The writable fields of a row that are not null, in the order of the table. -/
def writableEntries : List Field → Assoc Json → List (String × Json)
  | [], _ => []
  | ⟨_, remote, kind, readOnly, _⟩ :: rest, row =>
    match Assoc.get? row remote with
    | none => writableEntries rest row
    | some j =>
      if readOnly || j.isNull then writableEntries rest row
      else (remote, kind.writablePart j) :: writableEntries rest row

end

/-- What is writable of a row. -/
def writableRow (fields : List Field) (row : Assoc Json) : Assoc Json :=
  Assoc.ofEntries (writableEntries fields row)

/-- The writable part of a table is that of its rows. -/
theorem FieldKind.writablePart_table (table : Table) (objects : List (Assoc Json)) :
    (FieldKind.table table).writablePart (.array (objects.map .object)) =
      .array ((objects.map (writableRow table.fields)).map .object) := by
  obtain ⟨fields, key, ordered⟩ := table
  rw [FieldKind.writablePart, Json.rows_array, List.map_map]
  rfl

/-- What is writable of what a row holds for a field. -/
private def writable? (row : Assoc Json) (f : Field) : Option Json :=
  if f.readOnly then none
  else ((Assoc.get? row f.remote).filter fun j => !j.isNull).map f.kind.writablePart

/-- The writable entries of a row are those of its writable fields. -/
theorem mem_writableEntries {fields : List Field} {row : Assoc Json} {q : String}
    {i : Json} : (q, i) ∈ writableEntries fields row ↔
      ∃ f ∈ fields, f.remote = q ∧ writable? row f = some i := by
  induction fields with
  | nil => simp [writableEntries]
  | cons f rest ih =>
      obtain ⟨name, remote, kind, readOnly, alwaysSent⟩ := f
      rw [writableEntries, List.exists_mem_cons_iff, writable?]
      cases hj : Assoc.get? row remote with
      | none => simp [ih]
      | some j =>
          cases readOnly with
          | true => simp [ih]
          | false =>
              cases hnull : j.isNull with
              | true => simp [ih, hnull]
              | false => simp [ih, hnull, @eq_comm _ q, @eq_comm _ i]

section Row

variable {fields : List Field} {row : Assoc Json}

/-- **What is writable of a row under the remote name of a field.** -/
theorem get?_writableRow (hn : (fields.map (·.remote)).Nodup) {f : Field} (hf : f ∈ fields) :
    Assoc.get? (writableRow fields row) f.remote =
      if f.readOnly then none
      else ((Assoc.get? row f.remote).filter fun j => !j.isNull).map f.kind.writablePart :=
  Assoc.get?_ofEntries_of_fields (fun _ _ => mem_writableEntries) hn hf

/-- Nothing else is writable. -/
theorem get?_writableRow_of_not_mem {q : String} (hq : q ∉ fields.map (·.remote)) :
    Assoc.get? (writableRow fields row) q = none :=
  Assoc.get?_ofEntries_of_no_field (fun _ _ => mem_writableEntries) hq

/-- The writable part of a row has its keys in order. -/
theorem sorted_writableRow : Assoc.Sorted (writableRow fields row) := Assoc.sorted_ofEntries _

end Row

/-! ## Up to the order of rows -/

mutual

/-- A remote value is another one, up to the order of the rows of unordered tables with
    keys. -/
def FieldKind.Rearranges : FieldKind → Json → Json → Prop
  | .table ⟨fields, key, ordered⟩, i, j =>
    ∃ xs ys zs : List (Assoc Json), i = .array (xs.map .object) ∧ j = .array (ys.map .object) ∧
      zs.Perm ys ∧ (ordered = true ∨ key = none → zs = ys) ∧
        List.Forall₂ (fun x z => Assoc.keys x = Assoc.keys z ∧ FieldsRearrange fields x z) xs zs
  | _, i, j => i = j

/-- Remote fields are other ones, up to the order of the rows of their tables. -/
def FieldsRearrange : List Field → Assoc Json → Assoc Json → Prop
  | [], _, _ => True
  | ⟨_, remote, kind, _, _⟩ :: rest, x, y =>
    Option.Rel kind.Rearranges (Assoc.get? x remote) (Assoc.get? y remote) ∧
      FieldsRearrange rest x y

end

/-- A remote row is another one, up to the order of the rows of its tables. -/
structure RowRearranges (fields : List Field) (x y : Assoc Json) : Prop where
  names : Assoc.keys x = Assoc.keys y
  fields : FieldsRearrange fields x y

/-- Rows are other forms of each other when the values of each field are. -/
theorem fieldsRearrange_iff {fields : List Field} {x y : Assoc Json} :
    FieldsRearrange fields x y ↔ ∀ f ∈ fields,
      Option.Rel f.kind.Rearranges (Assoc.get? x f.remote) (Assoc.get? y f.remote) := by
  induction fields with
  | nil => simp [FieldsRearrange]
  | cons f rest ih =>
      obtain ⟨name, remote, kind, readOnly, alwaysSent⟩ := f
      rw [FieldsRearrange, ih, List.forall_mem_cons]

/-- Tables are other forms of each other when their rows are, in the same order where it matters.
    -/
theorem FieldKind.rearranges_table {table : Table} {xs ys zs : List (Assoc Json)}
    (hperm : zs.Perm ys) (hsame : table.ordered = true ∨ table.key = none → zs = ys)
    (h : List.Forall₂ (RowRearranges table.fields) xs zs) :
    (FieldKind.table table).Rearranges (.array (xs.map .object)) (.array (ys.map .object)) := by
  obtain ⟨fields, key, ordered⟩ := table
  rw [FieldKind.Rearranges]
  exact ⟨xs, ys, zs, rfl, rfl, hperm, hsame, h.imp fun _ _ hrow => ⟨hrow.names, hrow.fields⟩⟩

/-! ## Sending back -/

/-- An integer is null, or one that a number can hold without rounding. -/
def FieldKind.ExactInt : FieldKind → Json → Prop
  | .int, j => j = .null ∨ ∃ z, j = .int z ∧ z.natAbs ≤ 2 ^ 53
  | _, _ => True

instance (kind : FieldKind) (j : Json) : Decidable (kind.ExactInt j) :=
  match kind, j with
  | .int, .null => isTrue (.inl rfl)
  | .int, .int z => decidable_of_iff (z.natAbs ≤ 2 ^ 53)
      ⟨fun h => .inr ⟨z, rfl, h⟩, fun h => by
        rcases h with h | ⟨_, h, hz⟩
        · exact nomatch h
        · exact Json.int.inj h ▸ hz⟩
  | .int, .bool _ | .int, .float _ | .int, .string _ | .int, .array _ | .int, .object _ =>
    isFalse fun h => by rcases h with h | ⟨_, h, -⟩ <;> exact nomatch h
  | .string, _ | .bool, _ | .list, _ | .set, _ | .table _, _ => isTrue trivial

/-- What was read without a prior value is sent back as its writable part. -/
def FieldKind.SendsBack (kind : FieldKind) : Prop :=
  ∀ ⦃name label : String⦄ ⦃j : Json⦄ ⦃u : Value⦄, kind.HeldThroughout FieldKind.ExactInt j →
    j ≠ .null → kind.toValue name j none = .ok u →
      ∃ i, kind.toJson label u = .ok i ∧ kind.Rearranges i (kind.writablePart j)

/-! ### Kinds without fields -/

private theorem sendsBack_string : FieldKind.string.SendsBack := by
  intro name label j u _ hj h
  cases j with
  | null => exact absurd rfl hj
  | string s =>
      obtain rfl := Except.ok.inj h
      exact ⟨.string s, rfl, rfl⟩
  | _ => exact nomatch h

private theorem sendsBack_bool : FieldKind.bool.SendsBack := by
  intro name label j u _ hj h
  cases j with
  | null => exact absurd rfl hj
  | bool b =>
      obtain rfl := Except.ok.inj h
      exact ⟨.bool b, rfl, rfl⟩
  | _ => exact nomatch h

private theorem sendsBack_int : FieldKind.int.SendsBack := by
  intro name label j u hexact hj h
  rcases hexact with rfl | ⟨z, rfl, hz⟩
  · exact absurd rfl hj
  · obtain rfl := Except.ok.inj h
    refine ⟨.int z, ?_, rfl⟩
    have hbound : z.natAbs < Number.int64Bound := Nat.lt_of_le_of_lt hz (by decide)
    show (Value.number (Number.ofInt z)).toJsonInt = _
    rw [toJsonInt]
    simp only [Number.toInt?_ofInt hz, if_pos hbound]

/-- An array that is read as strings is one of strings. -/
theorem eq_of_toValueStrings {j : Json} {items : List Value}
    (h : j.toValueStrings = .ok items) :
    ∃ ss : List String, j = .array (ss.map .string) ∧ items = ss.map .string := by
  cases j with
  | array js =>
      have hall := Except.mapM_eq_ok_iff.mp h
      clear h
      induction hall with
      | nil => exact ⟨[], rfl, rfl⟩
      | @cons j item _ _ hitem _ ih =>
          obtain ⟨ss, hj, rfl⟩ := ih
          cases j with
          | string s =>
              obtain rfl := Except.ok.inj hitem
              exact ⟨s :: ss, by rw [Json.array.inj hj, List.map_cons], rfl⟩
          | _ => exact nomatch hitem
  | _ => exact nomatch h

private theorem sendsBack_list : FieldKind.list.SendsBack := by
  intro name label j u _ hj h
  rw [FieldKind.toValue_list hj] at h
  obtain ⟨items, hitems, rfl⟩ := Except.map_eq_ok h
  obtain ⟨ss, rfl, rfl⟩ := eq_of_toValueStrings hitems
  refine ⟨.array (ss.map .string), ?_, rfl⟩
  show (Value.list (ss.map .string)).toStrings.map _ = _
  rw [toStrings_of_elements rfl]
  rfl

private theorem sendsBack_set : FieldKind.set.SendsBack := by
  intro name label j u _ hj h
  rw [FieldKind.toValue_set hj] at h
  obtain ⟨items, hitems, rfl⟩ := Except.map_eq_ok h
  obtain ⟨ss, rfl, rfl⟩ := eq_of_toValueStrings hitems
  refine ⟨.array (ss.map .string), ?_, rfl⟩
  show (Value.set (ss.map .string)).toStrings.map _ = _
  rw [toStrings_of_elements rfl]
  rfl

/-! ### Fields -/

section Fields

variable {fields : List Field} {remote : Assoc Json} {values : Assoc Value}

/-- Fields can be sent when each of them can be. -/
theorem exists_remoteEntries
    (h : ∀ f ∈ fields, f.isSent (getOrNull values f.name) = true →
      ∃ j, f.kind.toJson f.name (getOrNull values f.name) = .ok j) :
    ∃ entries, remoteEntries fields values = .ok entries := by
  induction fields with
  | nil => exact ⟨[], rfl⟩
  | cons f rest ih =>
      rw [List.forall_mem_cons] at h
      obtain ⟨tail, htail⟩ := ih h.2
      rw [remoteEntries_cons, htail]
      split
      · next hsent =>
          obtain ⟨j, hj⟩ := h.1 (by rw [Field.isSent, hsent.1, hsent.2]; rfl)
          rw [hj]
          exact ⟨_, rfl⟩
      · exact ⟨tail, rfl⟩

/-- A value is sent as what is writable of a remote field; where nothing is, it is not sent. -/
private def Field.SentBack (f : Field) (remote : Assoc Json) (v : Value) : Prop :=
  if f.isSent v then
    ∃ i j, f.kind.toJson f.name v = .ok i ∧ writable? remote f = some j ∧ f.kind.Rearranges i j
  else writable? remote f = none

/-- **What a field brought without a prior is sent back.** -/
theorem Field.sendsBack {f : Field} {v? : Option Value} (hkind : f.kind.SendsBack)
    (hexact : ∀ j ∈ Assoc.get? remote f.remote, f.kind.HeldThroughout FieldKind.ExactInt j)
    (h : f.declared? remote none = .ok v?) : f.SentBack remote (v?.getD .null) := by
  rw [SentBack, isSent, writable?]
  cases hread : f.readOnly with
  | true => rfl
  | false =>
      rw [declared?] at h
      cases hj : Assoc.get? remote f.remote with
      | none =>
          rw [hj] at h
          obtain rfl := Except.ok.inj h
          rfl
      | some j =>
          rw [hj] at h
          obtain ⟨u, hu, rfl⟩ := Except.map_eq_ok h
          by_cases hnull : j = .null
          · rw [hnull, FieldKind.toValue_null] at hu
            obtain rfl := Except.ok.inj hu
            rw [hnull]
            rfl
          · obtain ⟨i, hi, hsame⟩ := hkind (hexact j hj) hnull hu
            rw [Option.getD_some, FieldKind.isAbsent_toValue hu hnull]
            refine ⟨i, f.kind.writablePart j, hi, ?_, hsame⟩
            cases j with
            | null => exact absurd rfl hnull
            | _ => rfl

private theorem Field.SentBack.rel {f : Field} {v : Value} {sent : Assoc Json}
    (h : f.SentBack remote v) (hheld : f.HeldAsSent v sent) :
    Option.Rel f.kind.Rearranges (Assoc.get? sent f.remote) (writable? remote f) := by
  unfold Field.SentBack at h
  unfold Field.HeldAsSent at hheld
  split at h
  · next hsent =>
      rw [if_pos hsent] at hheld
      obtain ⟨i, j, hi, hj, hsame⟩ := h
      obtain ⟨i', hi', hget⟩ := hheld
      obtain rfl := Except.ok.inj (hi.symm.trans hi')
      rw [hget, hj]
      exact .some hsame
  · next hsent =>
      rw [if_neg hsent] at hheld
      rw [hheld, h]
      exact .none

variable (hkinds : ∀ f ∈ fields, f.kind.SendsBack) (hnaming : checkNaming fields = .ok ())
  (hexact : FieldsHeldThroughout FieldKind.ExactInt fields remote)
  (h : (declaredEntries fields remote none).map Assoc.ofEntries = .ok values)
include hkinds hnaming hexact h

/-- **Fields that were read without a prior are sent back.** -/
theorem exists_sentBack :
    ∃ entries, remoteEntries fields values = .ok entries ∧
      RowRearranges fields (Assoc.ofEntries entries) (writableRow fields remote) := by
  have hremotes := checkNaming_remotes hnaming
  obtain ⟨declared, hdeclared, rfl⟩ := Except.map_eq_ok h
  have hback : ∀ f ∈ fields,
      f.SentBack remote (getOrNull (Assoc.ofEntries declared) f.name) := by
    intro f hf
    exact Field.sendsBack (hkinds f hf) (fieldsHeldThroughout_iff.mp hexact f hf)
      (get?_declared_of_mem hdeclared (checkNaming_names hnaming) hf)
  obtain ⟨entries, hentries⟩ := exists_remoteEntries fun f hf hsent => by
    have hsendable := hback f hf
    rw [Field.SentBack, if_pos hsent] at hsendable
    obtain ⟨i, -, hi, -⟩ := hsendable
    exact ⟨i, hi⟩
  have hfields : ∀ f ∈ fields, Option.Rel f.kind.Rearranges
      (Assoc.get? (Assoc.ofEntries entries) f.remote)
      (Assoc.get? (writableRow fields remote) f.remote) := by
    intro f hf
    rw [get?_writableRow hremotes hf]
    exact (hback f hf).rel (heldAsSent_of_sent hentries hremotes hf)
  refine ⟨entries, hentries, ?_, fieldsRearrange_iff.mpr hfields⟩
  refine Assoc.keys_eq_of_sorted (Assoc.sorted_ofEntries entries) sorted_writableRow ?_
  intro q
  by_cases hq : q ∈ fields.map (·.remote)
  · obtain ⟨f, hf, rfl⟩ := List.mem_map.mp hq
    have hrel := hfields f hf
    generalize Assoc.get? (Assoc.ofEntries entries) f.remote = x? at hrel
    generalize Assoc.get? (writableRow fields remote) f.remote = y? at hrel
    cases hrel <;> rfl
  · have hnone : Assoc.get? (Assoc.ofEntries entries) q = none := by
      refine Assoc.get?_ofEntries_eq_none.mpr ?_
      intro j hj
      obtain ⟨f, hf, rfl, -⟩ := (remoteEntries_spec hentries).1 q j hj
      exact hq (List.mem_map_of_mem hf)
    rw [hnone, get?_writableRow_of_not_mem hq]

end Fields

/-! ### Tables -/

section Table

variable {table : Table}

/-- Rows that can be sent make up a table that can be. -/
theorem FieldKind.toJson_rows (label : String) {rows : List (Assoc Value)}
    {sent : List (List (String × Json))}
    (h : List.Forall₂ (fun row entries => remoteEntries table.fields row = .ok entries)
      rows sent) :
    (FieldKind.table table).toJson label (table.valueOf rows) =
      .ok (.array (sent.map fun entries => .object (Assoc.ofEntries entries))) := by
  obtain ⟨fields, key, ordered⟩ := table
  have hmapM : ∀ next : Value → Except ConfigError Json,
      (∀ row entries, remoteEntries fields row = .ok entries →
        next (.map row) = .ok (.object (Assoc.ofEntries entries))) →
      (rows.map Value.map).mapM next =
        .ok (sent.map fun entries => .object (Assoc.ofEntries entries)) := by
    intro next hnext
    refine Except.mapM_eq_ok_iff.mpr ?_
    rw [List.forall₂_map_left_iff, List.forall₂_map_right_iff]
    exact h.imp hnext
  rw [FieldKind.toJson, Table.elements?_valueOf]
  simp only
  rw [hmapM]
  · rfl
  · intro row entries hentries
    simp only [hentries]
    rfl

private theorem exists_arranged {objects : List (Assoc Json)} {rows : List (Assoc Value)}
    (h : List.Forall₂ (table.ReadOver []) objects rows) :
    ∃ others, others.Perm objects ∧
      (table.ordered = true ∨ table.key = none → others = objects) ∧
        List.Forall₂ (table.ReadOver []) others (Rows.arrange table [] rows) := by
  by_cases hsame : table.ordered = true ∨ table.key = none
  · have harrange : Rows.arrange table [] rows = rows := by
      rcases hsame with hordered | hkey
      · exact Rows.arrange_nil hordered rows
      · rw [Rows.arrange, hkey]
    rw [harrange]
    exact ⟨objects, .refl _, fun _ => rfl, h⟩
  · obtain ⟨others, hothers, hperm⟩ := List.perm_comp_forall₂
      (Rows.arrange_perm table [] rows) h.flip
    exact ⟨others, hperm, fun h => absurd h hsame, hothers.flip⟩

variable (hkinds : ∀ f ∈ table.fields, f.kind.SendsBack)
  (hnaming : checkNaming table.fields = .ok ())
include hkinds hnaming

private theorem exists_sentRows {objects : List (Assoc Json)} {rows : List (Assoc Value)}
    (hexact : ∀ object ∈ objects,
      FieldsHeldThroughout FieldKind.ExactInt table.fields object)
    (h : List.Forall₂ (table.ReadOver []) objects rows) :
    ∃ sent, List.Forall₂ (fun row entries => remoteEntries table.fields row = .ok entries)
        rows sent ∧
      List.Forall₂ (RowRearranges table.fields) (sent.map Assoc.ofEntries)
        (objects.map (writableRow table.fields)) := by
  induction h with
  | nil => exact ⟨[], .nil, .nil⟩
  | @cons object row _ _ hread _ ih =>
      rw [List.forall_mem_cons] at hexact
      obtain ⟨sent, hsent, hsame⟩ := ih hexact.2
      unfold Table.ReadOver at hread
      rw [matchingRow?_nil] at hread
      obtain ⟨entries, hentries, hrow⟩ := exists_sentBack hkinds hnaming hexact.1 hread
      exact ⟨entries :: sent, .cons hentries hsent, .cons hrow hsame⟩

private theorem sendsBack_table : (FieldKind.table table).SendsBack := by
  intro name label j u hheld hj h
  obtain ⟨-, hobjects⟩ := FieldKind.heldThroughout_table_iff.mp hheld
  rcases FieldKind.toValue_rows_cases h with ⟨rfl, -⟩ | ⟨objects, rows, rfl, hread, rfl⟩
  · exact absurd rfl hj
  · rw [Json.rows_array] at hobjects
    obtain ⟨others, hperm, hsame, hothers⟩ := exists_arranged hread
    obtain ⟨sent, hsent, hrows⟩ := exists_sentRows hkinds hnaming
      (fun object hobject => hobjects object (hperm.mem_iff.mp hobject)) hothers
    refine ⟨_, FieldKind.toJson_rows label hsent, ?_⟩
    rw [FieldKind.writablePart_table]
    have h := FieldKind.rearranges_table (hperm.map (writableRow table.fields)) ?_ hrows
    · rw [List.map_map] at h
      exact h
    · intro hcase
      rw [hsame hcase]

end Table

/-- **What was read is sent back**, for every kind whose names correspond. -/
theorem FieldKind.sendsBack (kind : FieldKind) {name : String}
    (hnaming : kind.checkNaming name = .ok ()) : kind.SendsBack := by
  induction kind using FieldKind.induction generalizing name with
  | table table ih =>
      have hfields := checkNaming_table hnaming
      refine sendsBack_table ?_ hfields
      intro f hf
      exact ih f hf (checkNaming_kinds hfields f hf)
  | string => exact sendsBack_string
  | bool => exact sendsBack_bool
  | int => exact sendsBack_int
  | list => exact sendsBack_list
  | set => exact sendsBack_set

/-! ## Sections -/

/-- **A section that was read without a prior is sent back**: it can be sent, and what is
    sent is what is writable of the remote section, up to the order of the rows of unordered
    tables with keys. -/
theorem Section.toRemote_of_toDeclared {s : Section} {remote : Assoc Json}
    {values : Assoc Value} (hnaming : checkNaming s.fields = .ok ())
    (hexact : FieldsHeldThroughout FieldKind.ExactInt s.fields remote)
    (h : s.toDeclared remote none = .ok values) :
    ∃ sent, s.toRemote values = .ok sent ∧
      RowRearranges s.fields sent (writableRow s.fields remote) := by
  have hkinds : ∀ f ∈ s.fields, f.kind.SendsBack := by
    intro f hf
    exact f.kind.sendsBack (checkNaming_kinds hnaming f hf)
  obtain ⟨entries, hentries, hrow⟩ := exists_sentBack hkinds hnaming hexact h
  refine ⟨Assoc.ofEntries entries, ?_, hrow⟩
  rw [toRemote, hentries]
  rfl

/-! ## Locations -/

section Locations

open Catalog

/-- Two locations that are not in the order of their keys, the largest effect that is not
    rounded, and fields that cannot be written. -/
private def located : Assoc Json := [
  ("geo_effect", .int 9007199254740992),
  ("location_settings", .array [
    .object [("location", .string "south"), ("since", .int 1), ("weight", .int 3)],
    .object [("location", .string "north"), ("weight", .null)]]),
  ("status", .string "up"),
  ("ttl", .null)]

private def locatedValues : Assoc Value := [
  ("geo_effect", .number (Number.ofInt 9007199254740992)),
  ("location_settings", .set [
    .map [("location", .string "north"), ("weight", .null)],
    .map [("location", .string "south"), ("weight", .number (Number.ofInt 3))]]),
  ("ttl", .null)]

/-- The locations are sent back in the order of their keys, without what cannot be
    written. -/
theorem locations_sent_back :
    FieldsHeldThroughout FieldKind.ExactInt LoadBalancing.basic.fields located ∧
    LoadBalancing.basic.toDeclared located none = .ok locatedValues ∧
    ∃ sent, LoadBalancing.basic.toRemote locatedValues = .ok sent ∧
      RowRearranges LoadBalancing.basic.fields sent [
        ("geo_effect", .int 9007199254740992),
        ("location_settings", .array [
          .object [("location", .string "south"), ("weight", .int 3)],
          .object [("location", .string "north")]])] := by
  have hexact : FieldsHeldThroughout FieldKind.ExactInt LoadBalancing.basic.fields located := by
    decide +kernel
  have hread : LoadBalancing.basic.toDeclared located none = .ok locatedValues := rfl
  exact ⟨hexact, hread, Section.toRemote_of_toDeclared rfl hexact hread⟩

end Locations

end TrafficConfig
