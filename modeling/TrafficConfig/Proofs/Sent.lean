import TrafficConfig.Catalog.LoadBalancing
import TrafficConfig.Proofs.Readback

/-!
# What is sent, and what comes of it

The part of a value that is sent, and how it is read where nothing was read before:

* **`Field.isSent`** — a field is sent when it is writable and has a value;
* **`FieldKind.asSent`** — a value as it is sent: collections take the kind of their
  field, and the rows of tables keep the entries that are sent. **`sentRow`** is one row,
  and **`get?_sentRow`** its view;
* **`Field.HeldAsSent`** — a remote section holds what the value of a field is sent as. Its
  fields are read, and nothing else (**`exists_declared_of_held`**);
* **`FieldKind.readsSent`** — what a value is sent as is read, without a prior value, as
  a value that equals it as it is sent. Rows are read one by one; those of an ordered table
  stay in their order, and those of a set may change it;
* **`Section.toDeclared_of_toRemote`** — so a section that was sent is read as the fields
  that were sent.
-/

namespace TrafficConfig

open Value

/-! ## The part that is sent -/

/-- A field is sent: it is writable, and its value is not absent. -/
def Field.isSent (f : Field) (v : Value) : Bool := !f.readOnly && !v.isAbsent

mutual

/-- A value as it is sent: a collection of the kind of its field, with what is sent of its
    rows if these are records. -/
def FieldKind.asSent : FieldKind → Value → Value
  | .list, v => .list (v.elements?.getD [])
  | .set, v => .set (v.elements?.getD [])
  | .table ⟨fields, key, ordered⟩, v =>
    Table.valueOf ⟨fields, key, ordered⟩
      (v.rows.map fun row => Assoc.ofEntries (sentEntries fields row))
  | _, v => v

/-- The entries of a row that are sent, in the order of the table. -/
def sentEntries : List Field → Assoc Value → List (String × Value)
  | [], _ => []
  | ⟨name, _, kind, readOnly, _⟩ :: rest, row =>
    if !readOnly && !(getOrNull row name).isAbsent then
      (name, kind.asSent (getOrNull row name)) :: sentEntries rest row
    else sentEntries rest row

end

/-- What is sent of a row. -/
def sentRow (fields : List Field) (row : Assoc Value) : Assoc Value :=
  Assoc.ofEntries (sentEntries fields row)

theorem FieldKind.asSent_table (table : Table) (v : Value) :
    (FieldKind.table table).asSent v = table.valueOf (v.rows.map (sentRow table.fields)) := by
  obtain ⟨fields, key, ordered⟩ := table
  rw [FieldKind.asSent]
  rfl

/-- What is present is sent as something that is present. -/
theorem FieldKind.isAbsent_asSent {kind : FieldKind} {v : Value} (h : v.isAbsent = false) :
    (kind.asSent v).isAbsent = false := by
  cases kind with
  | table table =>
      rw [FieldKind.asSent_table, Table.valueOf]
      split <;> rfl
  | list => rfl
  | set => rfl
  | _ => exact h

/-- The value of a field as it is sent, if it is sent. -/
private def sent? (row : Assoc Value) (f : Field) : Option Value :=
  if f.isSent (getOrNull row f.name) then some (f.kind.asSent (getOrNull row f.name))
  else none

/-- The entries that are sent are those of the fields that are. -/
theorem mem_sentEntries {fields : List Field} {row : Assoc Value} {q : String}
    {x : Value} : (q, x) ∈ sentEntries fields row ↔
      ∃ f ∈ fields, f.name = q ∧ sent? row f = some x := by
  induction fields with
  | nil => simp [sentEntries]
  | cons f rest ih =>
      obtain ⟨name, remote, kind, readOnly, alwaysSent⟩ := f
      rw [sentEntries, List.exists_mem_cons_iff, sent?, Field.isSent]
      cases hsent : !readOnly && !(getOrNull row name).isAbsent with
      | false => simp [ih]
      | true =>
          rw [if_pos rfl, if_pos rfl, List.mem_cons, ih, Prod.mk.injEq, Option.some.injEq,
            @eq_comm _ q, @eq_comm _ x]

section Row

variable {fields : List Field} {row : Assoc Value}

/-- **What is sent of a row under the name of a field**: its value, if it is sent. -/
theorem get?_sentRow (hn : (fields.map (·.name)).Nodup) {f : Field} (hf : f ∈ fields) :
    Assoc.get? (sentRow fields row) f.name =
      if f.isSent (getOrNull row f.name) then some (f.kind.asSent (getOrNull row f.name))
      else none :=
  Assoc.get?_ofEntries_of_fields (fun _ _ => mem_sentEntries) hn hf

/-- Nothing is sent of a row under other names. -/
theorem get?_sentRow_of_not_mem {q : String} (hq : q ∉ fields.map (·.name)) :
    Assoc.get? (sentRow fields row) q = none :=
  Assoc.get?_ofEntries_of_no_field (fun _ _ => mem_sentEntries) hq

/-- A row as it is sent has its keys in order. -/
theorem sorted_sentRow : Assoc.Sorted (sentRow fields row) := Assoc.sorted_ofEntries _

end Row

/-! ## What a section holds -/

/-- A remote section holds what the value of a field is sent as. -/
def Field.HeldAsSent (f : Field) (v : Value) (remote : Assoc Json) : Prop :=
  if f.isSent v then
    ∃ j, f.kind.toJson f.name v = .ok j ∧ Assoc.get? remote f.remote = some j
  else Assoc.get? remote f.remote = none

/-- What fields were sent as holds their values as they were sent. -/
theorem heldAsSent_of_sent {fields : List Field} {row : Assoc Value}
    {entries : List (String × Json)} (h : remoteEntries fields row = .ok entries)
    (hremotes : (fields.map (·.remote)).Nodup) {f : Field} (hf : f ∈ fields) :
    f.HeldAsSent (getOrNull row f.name) (Assoc.ofEntries entries) := by
  unfold Field.HeldAsSent
  rcases get?_sent h hremotes hf with ⟨hnone, hnot⟩ | ⟨hwritten, j, hj, hget⟩
  · rw [if_neg]
    · exact hnone
    · rw [Field.isSent, Bool.and_eq_true, Bool.not_eq_true', Bool.not_eq_true']
      exact hnot
  · obtain ⟨hpresent, hj⟩ := Field.toJson?_eq_some_iff.mp hj
    rw [if_pos]
    · exact ⟨j, hj, hget⟩
    · rw [Field.isSent, hwritten, hpresent]
      rfl

/-! ## Reading without a prior -/

/-- A value that was read as another one is sent: it equals it as it is sent, and nothing of
    it would be left out if it were sent. -/
structure FieldKind.ReadAs (kind : FieldKind) (u w : Value) : Prop where
  equal : u.equals (kind.asSent w) = true
  sent : Plain (kind.asSent w)
  plain : Plain u
  whole : kind.prune Field.isSent u = u

/-- What a value is sent as is read, without a prior value, as this value. -/
def FieldKind.ReadsSent (kind : FieldKind) : Prop :=
  ∀ ⦃name : String⦄ ⦃w : Value⦄ ⦃j : Json⦄, kind.toJson name w = .ok j →
    ∃ u, kind.toValue name j none = .ok u ∧ kind.ReadAs u w

/-- What is read for a field is what was sent of its value. -/
def Field.ReadAsSent (f : Field) (v : Value) (u? : Option Value) : Prop :=
  if f.isSent v then ∃ u, u? = some u ∧ f.kind.ReadAs u v else u? = none

/-! ### Kinds without fields -/

private theorem readsSent_string : FieldKind.string.ReadsSent := by
  intro name w j hj
  cases w with
  | string s =>
      obtain rfl : Json.string s = j := Except.ok.inj hj
      exact ⟨.string s, rfl, equals_string_iff.mpr rfl, plain_string s, plain_string s, rfl⟩
  | _ => exact nomatch hj

private theorem readsSent_bool : FieldKind.bool.ReadsSent := by
  intro name w j hj
  cases w with
  | bool b =>
      obtain rfl : Json.bool b = j := Except.ok.inj hj
      exact ⟨.bool b, rfl, equals_bool_iff.mpr rfl, plain_bool b, plain_bool b, rfl⟩
  | _ => exact nomatch hj

private theorem readsSent_int : FieldKind.int.ReadsSent := by
  intro name w j hj
  cases w with
  | number x =>
      obtain ⟨z, hz, rfl⟩ := toJsonInt_eq_ok hj
      have heq := Number.equals_ofInt_of_toInt? hz
      have hsent : x ≠ .nan := by
        rintro rfl
        exact nomatch hz
      have hread : Number.ofInt z ≠ .nan := by
        intro hnan
        rw [hnan] at heq
        exact nomatch heq
      exact ⟨.number (Number.ofInt z), rfl, equals_number_iff.mpr ⟨x, rfl, heq⟩,
        plain_number hsent, plain_number hread, rfl⟩
  | _ => exact nomatch hj

private theorem readsSent_list : FieldKind.list.ReadsSent := by
  intro name w j hj
  obtain ⟨ss, hss, rfl⟩ := Except.map_eq_ok hj
  have hplain : Plain (.list (ss.map .string)) :=
    plain_list_iff.mpr (List.forall_mem_map.mpr fun s _ => plain_string s)
  have hsent : FieldKind.list.asSent w = .list (ss.map .string) := by
    rw [FieldKind.asSent, elements?_of_toStrings hss, Option.getD_some]
  refine ⟨.list (ss.map .string), ?_, ?_, ?_, hplain, rfl⟩
  · show (Json.array (ss.map .string)).toValueStrings.map Value.list = _
    rw [toValueStrings_strings]
    rfl
  · rw [hsent]
    exact equals_refl hplain.nanFree
  · rw [hsent]
    exact hplain

private theorem readsSent_set : FieldKind.set.ReadsSent := by
  intro name w j hj
  obtain ⟨ss, hss, rfl⟩ := Except.map_eq_ok hj
  have hplain : Plain (.set (ss.map .string)) :=
    plain_set_iff.mpr (List.forall_mem_map.mpr fun s _ => plain_string s)
  have hsent : FieldKind.set.asSent w = .set (ss.map .string) := by
    rw [FieldKind.asSent, elements?_of_toStrings hss, Option.getD_some]
  refine ⟨.set (ss.map .string), ?_, ?_, ?_, hplain, rfl⟩
  · show (Json.array (ss.map .string)).toValueStrings.map Value.set = _
    rw [toValueStrings_strings]
    rfl
  · rw [hsent]
    exact equals_refl hplain.nanFree
  · rw [hsent]
    exact hplain

/-! ### Fields -/

section Fields

variable {remote : Assoc Json}

/-- Without a prior, a field brings what is read of the value that was sent, and nothing if
    none was. -/
theorem Field.declared?_of_held {f : Field} {v : Value} {P : Value → Prop}
    (hread : ∀ j, f.kind.toJson f.name v = .ok j →
      ∃ u, f.kind.toValue f.name j none = .ok u ∧ P u) (h : f.HeldAsSent v remote) :
    ∃ u?, f.declared? remote none = .ok u? ∧
      if f.isSent v then ∃ u, u? = some u ∧ P u else u? = none := by
  unfold HeldAsSent at h
  cases hsent : f.isSent v with
  | false =>
      rw [hsent, if_neg Bool.false_ne_true] at h
      refine ⟨none, ?_, rfl⟩
      rw [declared?, h]
      rfl
  | true =>
      rw [hsent, if_pos rfl] at h
      obtain ⟨j, hj, hget⟩ := h
      obtain ⟨u, hu, hP⟩ := hread j hj
      refine ⟨some u, ?_, u, rfl, hP⟩
      rw [declared?, hget]
      show (f.kind.toValue f.name j none).map some = _
      rw [hu]
      rfl

variable {fields : List Field} {values read : Assoc Value}

/-- **Fields whose values are held as they were sent are read**, when there was nothing
    before: whatever reading brings of each kind is found for its fields. -/
theorem exists_declared_of_held {P : Field → Value → Prop}
    (hread : ∀ f ∈ fields, ∀ j, f.kind.toJson f.name (getOrNull values f.name) = .ok j →
      ∃ u, f.kind.toValue f.name j none = .ok u ∧ P f u)
    (hn : (fields.map (·.name)).Nodup)
    (h : ∀ f ∈ fields, f.HeldAsSent (getOrNull values f.name) remote) :
    ∃ entries, declaredEntries fields remote none = .ok entries ∧
      ∀ f ∈ fields, if f.isSent (getOrNull values f.name) then
        ∃ u, Assoc.get? (Assoc.ofEntries entries) f.name = some u ∧ P f u
        else Assoc.get? (Assoc.ofEntries entries) f.name = none := by
  have hfield : ∀ f ∈ fields, ∃ u?, f.declared? remote none = .ok u? ∧
      if f.isSent (getOrNull values f.name) then ∃ u, u? = some u ∧ P f u else u? = none := by
    intro f hf
    exact Field.declared?_of_held (hread f hf) (h f hf)
  obtain ⟨entries, hentries⟩ := exists_declaredEntries fun f hf =>
    (hfield f hf).imp fun _ hu => hu.1
  refine ⟨entries, hentries, ?_⟩
  intro f hf
  obtain ⟨u?, hu, hfound⟩ := hfield f hf
  rw [get?_declared_of_mem hentries hn hf] at hu
  obtain rfl := Except.ok.inj hu
  exact hfound

private theorem exists_declared_sent (hkinds : ∀ f ∈ fields, f.kind.ReadsSent)
    (hn : (fields.map (·.name)).Nodup)
    (h : ∀ f ∈ fields, f.HeldAsSent (getOrNull values f.name) remote) :
    ∃ entries, declaredEntries fields remote none = .ok entries ∧
      ∀ f ∈ fields, f.ReadAsSent (getOrNull values f.name)
        (Assoc.get? (Assoc.ofEntries entries) f.name) :=
  exists_declared_of_held (fun f hf _ hj => hkinds f hf hj) hn h

/-- A row that was read as another one is sent: it equals it as it is sent, and nothing of it
    would be left out if it were sent. -/
structure RowReadAs (fields : List Field) (read values : Assoc Value) : Prop where
  equal : sameEntries equals read (sentRow fields values) = true
  sent : Plain (.map (sentRow fields values))
  plain : Plain (.map read)
  whole : pruneRow Field.isSent fields read = read

section Read

variable (hn : (fields.map (·.name)).Nodup)
  (hother : ∀ q, q ∉ fields.map (·.name) → Assoc.get? read q = none)
  (h : ∀ f ∈ fields, f.ReadAsSent (getOrNull values f.name) (Assoc.get? read f.name))
include hn hother h

private theorem view_of_read (q : String) :
    (Assoc.get? read q = none ∧ Assoc.get? (sentRow fields values) q = none ∧
        Assoc.get? (pruneRow Field.isSent fields read) q = none) ∨
      ∃ (kind : FieldKind) (u v : Value), Assoc.get? read q = some u ∧
        Assoc.get? (sentRow fields values) q = some (kind.asSent v) ∧
        Assoc.get? (pruneRow Field.isSent fields read) q = some u ∧ kind.ReadAs u v := by
  by_cases hq : q ∈ fields.map (·.name)
  · obtain ⟨f, hf, rfl⟩ := List.mem_map.mp hq
    have hread := h f hf
    unfold Field.ReadAsSent at hread
    rw [get?_sentRow hn hf, get?_pruneRow hn hf]
    split at hread
    · next hsent =>
        right
        obtain ⟨u, hu, hread⟩ := hread
        refine ⟨f.kind, u, _, hu, if_pos hsent, ?_, hread⟩
        -- what was read is present, and so it would be sent
        rw [Field.isSent, Bool.and_eq_true, Bool.not_eq_true', Bool.not_eq_true'] at hsent
        have hpresent := isAbsent_eq_of_equals hread.equal
        rw [FieldKind.isAbsent_asSent hsent.2] at hpresent
        have hagain : f.isSent u = true := by rw [Field.isSent, hsent.1, hpresent]; rfl
        rw [hu, Option.filter_some, hagain, if_pos rfl, Option.map_some, Field.prune, hsent.1,
          if_neg Bool.false_ne_true, hread.whole]
    · next hsent =>
        left
        refine ⟨hread, if_neg hsent, ?_⟩
        rw [hread]
        rfl
  · exact .inl ⟨hother q hq, get?_sentRow_of_not_mem hq, get?_pruneRow_of_not_mem hq⟩

/-- **Fields that are read as they were sent make up the row that was sent.** -/
theorem rowReadAs (hsorted : Assoc.Sorted read) :
    RowReadAs fields read values := by
  have hview := view_of_read hn hother h
  refine ⟨?_, ?_, ?_, ?_⟩
  · refine sameEntries_of_get?_rel hsorted sorted_sentRow ?_
    intro q
    obtain ⟨hread, hsent, -⟩ | ⟨kind, u, v, hread, hsent, -, hu⟩ := hview q
    · rw [hread, hsent]
      exact .none
    · rw [hread, hsent]
      exact .some hu.equal
  · refine plain_map_iff.mpr ⟨sorted_sentRow, ?_⟩
    intro e he
    have hget := Assoc.get?_of_mem (Assoc.nodup_keys_of_sorted sorted_sentRow) he
    obtain ⟨-, hsent, -⟩ | ⟨kind, u, v, -, hsent, -, hu⟩ := hview e.1
    · exact nomatch hsent.symm.trans hget
    · rw [← Option.some.inj (hsent.symm.trans hget)]
      exact hu.sent
  · refine plain_map_iff.mpr ⟨hsorted, ?_⟩
    intro e he
    have hget := Assoc.get?_of_mem (Assoc.nodup_keys_of_sorted hsorted) he
    obtain ⟨hread, -⟩ | ⟨kind, u, v, hread, -, -, hu⟩ := hview e.1
    · exact nomatch hread.symm.trans hget
    · rw [← Option.some.inj (hread.symm.trans hget)]
      exact hu.plain
  · refine Assoc.ext_of_sorted sorted_pruneRow hsorted ?_
    intro q
    obtain ⟨hread, -, hagain⟩ | ⟨kind, u, v, hread, -, hagain, -⟩ := hview q
    · rw [hread, hagain]
    · rw [hread, hagain]

end Read

end Fields

/-! ### Tables -/

/-- Without earlier rows, none is found again. -/
theorem matchingRow?_nil (fields : List Field) (key : Option String)
    (remote : Assoc Json) : matchingRow? fields key [] remote = none := by
  rw [matchingRow?]
  cases key with
  | none => rfl
  | some key =>
      show ((Assoc.get? remote _).bind Json.asString?).bind (fun id => none) = none
      rw [Option.bind_fun_none]

/-- Without earlier rows, those of an ordered table stay as they arrive. -/
theorem Rows.arrange_nil {table : Table} (hordered : table.ordered = true)
    (rows : List (Assoc Value)) : arrange table [] rows = rows := by
  rw [arrange, hordered]
  cases table.key with
  | none => rfl
  | some key =>
      refine sortBy_of_pairwise (List.pairwise_of_forall fun a b => ?_)
      have hfirst : ∀ row : Assoc Value, position [] key row = 0 := by
        intro row
        rw [position]
        cases key? row key <;> rfl
      rw [hfirst, hfirst]
      rfl

/-- The value of plain rows is plain. -/
theorem plain_valueOf (table : Table) {rows : List (Assoc Value)}
    (h : ∀ row ∈ rows, Plain (.map row)) : Plain (table.valueOf rows) := by
  have hall : ∀ v ∈ rows.map Value.map, Plain v := List.forall_mem_map.mpr h
  rw [Table.valueOf]
  split
  · exact plain_list_iff.mpr hall
  · exact plain_set_iff.mpr hall

section Table

variable {table : Table} (hkinds : ∀ f ∈ table.fields, f.kind.ReadsSent)
  (hnaming : checkNaming table.fields = .ok ())
include hkinds hnaming

private theorem exists_readRow {row : Assoc Value} {entries : List (String × Json)}
    (h : remoteEntries table.fields row = .ok entries) :
    ∃ read, table.ReadOver [] (Assoc.ofEntries entries) read ∧
      RowReadAs table.fields read row := by
  have hnames := checkNaming_names hnaming
  obtain ⟨declared, hdeclared, hread⟩ := exists_declared_sent hkinds hnames
    fun f hf => heldAsSent_of_sent h (checkNaming_remotes hnaming) hf
  refine ⟨Assoc.ofEntries declared, ?_, ?_⟩
  · unfold Table.ReadOver
    rw [matchingRow?_nil, hdeclared]
    rfl
  · refine rowReadAs hnames ?_ hread (Assoc.sorted_ofEntries declared)
    intro q hq
    refine get?_declared_eq_none hdeclared ?_
    rintro f hf rfl
    exact hq (List.mem_map_of_mem hf)

private theorem exists_readRows {rows : List (Assoc Value)}
    {sent : List (List (String × Json))}
    (h : List.Forall₂ (fun row entries => remoteEntries table.fields row = .ok entries)
      rows sent) :
    ∃ read, List.Forall₂ (table.ReadOver []) (sent.map Assoc.ofEntries) read ∧
      List.Forall₂ (RowReadAs table.fields) read rows := by
  induction h with
  | nil => exact ⟨[], .nil, .nil⟩
  | cons hentries _ ih =>
      obtain ⟨read, hread, hrows⟩ := ih
      obtain ⟨first, hfirst, hrow⟩ := exists_readRow hkinds hnaming hentries
      exact ⟨first :: read, .cons hfirst hread, .cons hrow hrows⟩

private theorem readsSent_table : (FieldKind.table table).ReadsSent := by
  intro name w j hj
  obtain ⟨rows, sent, hitems, hsent, rfl⟩ := toJson_table_cases hj
  obtain ⟨read, hread, hrows⟩ := exists_readRows hkinds hnaming hsent
  have hperm := Rows.arrange_perm table [] read
  have hread' : ∀ row ∈ read, Plain (.map row) ∧
      pruneRow Field.isSent table.fields row = row := by
    intro row hrow
    obtain ⟨i, hi, rfl⟩ := List.getElem_of_mem hrow
    have hone := hrows.get hi (hrows.length_eq ▸ hi)
    exact ⟨hone.plain, hone.whole⟩
  have hsent' : ∀ row ∈ rows.map (sentRow table.fields), Plain (.map row) := by
    rw [List.forall_mem_map]
    intro row hrow
    obtain ⟨i, hi, rfl⟩ := List.getElem_of_mem hrow
    exact (hrows.get (hrows.length_eq ▸ hi) hi).sent
  have hasSent : (FieldKind.table table).asSent w =
      table.valueOf (rows.map (sentRow table.fields)) := by
    rw [FieldKind.asSent_table, rows_of_elements? hitems]
  refine ⟨table.valueOf (Rows.arrange table [] read), ?_, ?_, ?_, ?_, ?_⟩
  · have h := FieldKind.toValue_rows name none hread
    rw [List.map_map] at h
    exact h
  · rw [hasSent]
    refine (equals_valueOf hperm (.refl _) ?_ ?_ ?_ ?_).1
    · intro hordered
      exact ⟨Rows.arrange_nil hordered read, rfl⟩
    · exact List.forall₂_map_right_iff.mpr (hrows.imp fun _ _ hrow => hrow.equal)
    · intro row hrow
      exact (hread' row hrow).1.nanFree
    · intro row hrow
      exact (hsent' row hrow).nanFree
  · rw [hasSent]
    exact plain_valueOf table hsent'
  · refine plain_valueOf table ?_
    intro row hrow
    exact (hread' row (hperm.mem_iff.mp hrow)).1
  · rw [FieldKind.prune_table, mapRows_valueOf]
    congr 1
    refine (List.map_congr_left ?_).trans (List.map_id _)
    intro row hrow
    exact (hread' row (hperm.mem_iff.mp hrow)).2

end Table

/-- **What was sent is read as it was sent**, for every kind whose names correspond. -/
theorem FieldKind.readsSent (kind : FieldKind) {name : String}
    (hnaming : kind.checkNaming name = .ok ()) : kind.ReadsSent := by
  induction kind using FieldKind.induction generalizing name with
  | table table ih =>
      have hfields := checkNaming_table hnaming
      refine readsSent_table ?_ hfields
      intro f hf
      exact ih f hf (checkNaming_kinds hfields f hf)
  | string => exact readsSent_string
  | bool => exact readsSent_bool
  | int => exact readsSent_int
  | list => exact readsSent_list
  | set => exact readsSent_set

/-! ## Sections -/

/-- **A section that was sent is read as what was sent**: it can be read without a prior,
    and brings exactly the fields that are writable and have a value. Each of them equals
    the value as it was sent, whatever else the values hold. -/
theorem Section.toDeclared_of_toRemote {s : Section} {values : Assoc Value}
    {remote : Assoc Json} (hnaming : checkNaming s.fields = .ok ())
    (h : s.toRemote values = .ok remote) :
    ∃ read, s.toDeclared remote none = .ok read ∧
      (∀ f ∈ s.fields,
        if f.isSent (getOrNull values f.name) then
          ∃ u, Assoc.get? read f.name = some u ∧
            u.equals (f.kind.asSent (getOrNull values f.name)) = true
        else Assoc.get? read f.name = none) ∧
      ∀ q, (∀ f ∈ s.fields, f.name ≠ q) → Assoc.get? read q = none := by
  obtain ⟨entries, hentries, rfl⟩ := Except.map_eq_ok h
  have hkinds : ∀ f ∈ s.fields, f.kind.ReadsSent := by
    intro f hf
    exact f.kind.readsSent (checkNaming_kinds hnaming f hf)
  obtain ⟨declared, hdeclared, hread⟩ := exists_declared_sent hkinds
    (checkNaming_names hnaming)
    fun f hf => heldAsSent_of_sent hentries (checkNaming_remotes hnaming) hf
  refine ⟨Assoc.ofEntries declared, ?_, ?_, ?_⟩
  · rw [toDeclared, hdeclared]
    rfl
  · intro f hf
    have hone := hread f hf
    unfold Field.ReadAsSent at hone
    split
    · next hsent =>
        rw [if_pos hsent] at hone
        obtain ⟨u, hu, hone⟩ := hone
        exact ⟨u, hu, hone.equal⟩
    · next hsent =>
        rw [if_neg hsent] at hone
        exact hone
  · intro q hq
    exact get?_declared_eq_none hdeclared hq

/-! ## Locations -/

section Locations

open Catalog

/-- A list of locations where a set is expected, with a remark that no field takes and a
    weight that is not set; the effect of the location is not known yet. -/
private def listed : Assoc Value := [
  ("domains", .list [.string "a.example"]),
  ("geo_effect", .unknown),
  ("location_settings", .list [.map [("location", .string "north"),
    ("remark", .string "main"), ("weight", .null)]])]

private def listedRemote : Assoc Json := [
  ("domains", .array [.string "a.example"]),
  ("location_settings", .array [.object [("location", .string "north")]])]

/-- The locations come back as a set, without the remark and the weight, and the effect
    does not come back. -/
theorem locations_read_as_sent :
    LoadBalancing.basic.toRemote listed = .ok listedRemote ∧
      ∃ read, LoadBalancing.basic.toDeclared listedRemote none = .ok read ∧
        Assoc.get? read "geo_effect" = none ∧
        ∃ settings, Assoc.get? read "location_settings" = some settings ∧
          settings.equals (.set [.map [("location", .string "north")]]) = true := by
  have hsent : LoadBalancing.basic.toRemote listed = .ok listedRemote := rfl
  obtain ⟨read, hread, hfields, -⟩ :=
    Section.toDeclared_of_toRemote (s := LoadBalancing.basic) rfl hsent
  have heffect := hfields (.int "geo_effect") (by simp [LoadBalancing.basic, Section.topLevel])
  have hsettings := hfields (.table "location_settings" LoadBalancing.locationSettings)
    (by simp [LoadBalancing.basic, Section.topLevel])
  exact ⟨hsent, read, hread, heffect, hsettings⟩

end Locations

end TrafficConfig
