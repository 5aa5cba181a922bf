import TrafficConfig.Proofs.Instances
import TrafficConfig.Proofs.SentBack
import TrafficConfig.Proofs.Validated

/-!
# What cannot be sent

Validation and sending check the shape of a value each in its own way. Between them, few
values pass the first and fail the second:

* **`FieldKind.Unsendable`** — what a field may hold although it cannot be sent. What an
  attribute accepts is sent, or it is one of these
  (**`FieldKind.exists_toJson_iff_of_accepts`**);
* **`Held`** — what the writable fields of a table hold, those of its rows included;
* **`Section.Malformed`** — a block is neither absent, nor a map, nor a collection of maps.
  Otherwise a section is sent unless it holds something unsendable
  (**`Section.exists_toRemoteFromRoot_iff_of_clean`**);
* **`createPayload_fails_iff`** — the payload of a plan without errors fails if and only if
  a block is malformed or a writable field holds something unsendable.
-/

namespace TrafficConfig

open Value

/-! ## What can be sent -/

/-- A list or a set whose elements are all maps. -/
def Value.HasRows (v : Value) : Prop :=
  ∃ rows : List (Assoc Value), v.elements? = some (rows.map .map)

/-- What a field of a kind may hold in a clean plan although it cannot be sent: a number that
    is not whole, or has a magnitude of 2⁶³ or more; a list or a set of strings with an
    element that has no known value; for a table, anything present but rows. -/
def FieldKind.Unsendable : FieldKind → Value → Prop
  | .int, .number x =>
    x.isWhole = false ∨ ∃ z, x.toInt? = some z ∧ Number.int64Bound ≤ z.natAbs
  | .list, v | .set, v =>
    ∃ items, v.elements? = some items ∧ (.null ∈ items ∨ .unknown ∈ items)
  | .table _, v => v.isAbsent = false ∧ ¬ v.HasRows
  | _, _ => False

/-- A writable field of a table, or of the rows inside it, is of a kind and holds a value. -/
inductive Held : List Field → Assoc Value → FieldKind → Value → Prop
  | field {fields : List Field} {values : Assoc Value} {f : Field} (hf : f ∈ fields)
      (hwritable : f.readOnly = false) : Held fields values f.kind (getOrNull values f.name)
  | row {fields : List Field} {values row : Assoc Value} {f : Field} {table : Table}
      {kind : FieldKind} {v : Value} (hf : f ∈ fields) (hwritable : f.readOnly = false)
      (hkind : f.kind = .table table) (hrow : row ∈ (getOrNull values f.name).rows)
      (h : Held table.fields row kind v) : Held fields values kind v

/-- Nothing that is absent is unsendable. -/
theorem FieldKind.not_unsendable_of_isAbsent {kind : FieldKind} {v : Value}
    (h : v.isAbsent = true) : ¬ kind.Unsendable v := by
  cases kind <;> cases v <;> simp_all [Unsendable, isAbsent, elements?]

/-! ### Fields without rows -/

section Accepted

variable {v : Value} (hpresent : v.isAbsent = false)
include hpresent

private theorem exists_string_of_accepts (h : AttributeType.string.accepts v = true) :
    ∃ s, v = .string s := by
  cases v <;> simp_all [AttributeType.accepts, isAbsent]

private theorem exists_bool_of_accepts (h : AttributeType.bool.accepts v = true) :
    ∃ b, v = .bool b := by
  cases v <;> simp_all [AttributeType.accepts, isAbsent]

private theorem exists_number_of_accepts (h : AttributeType.number.accepts v = true) :
    ∃ x, v = .number x := by
  cases v <;> simp_all [AttributeType.accepts, isAbsent]

/-- What a type of strings accepts is a collection of strings and absent values. -/
theorem exists_items_of_accepts {t : AttributeType}
    (ht : t = .list .string ∨ t = .set .string) (h : t.accepts v = true) :
    ∃ items, v.elements? = some items ∧
      ∀ item ∈ items, AttributeType.string.accepts item = true := by
  rcases ht with rfl | rfl <;> cases v <;>
    simp_all [AttributeType.accepts, isAbsent, elements?]

end Accepted

private theorem exists_toJsonInt_iff (x : Number) :
    (∃ j, (Value.number x).toJsonInt = .ok j) ↔ ¬ FieldKind.int.Unsendable (.number x) := by
  rw [toJsonInt]
  simp only [FieldKind.Unsendable, Number.isWhole]
  cases x.toInt? with
  | none => simp
  | some z => by_cases hz : z.natAbs < Number.int64Bound <;> simp [hz]

private theorem exists_strings {items : List Value}
    (haccepts : ∀ item ∈ items, AttributeType.string.accepts item = true)
    (hknown : ¬ (.null ∈ items ∨ .unknown ∈ items)) :
    ∃ ss : List String, items = ss.map .string := by
  induction items with
  | nil => exact ⟨[], rfl⟩
  | cons item rest ih =>
      rw [List.forall_mem_cons] at haccepts
      simp only [List.mem_cons, not_or] at hknown
      obtain ⟨⟨hnull, hnulls⟩, hunknown, hunknowns⟩ := hknown
      obtain ⟨ss, rfl⟩ := ih haccepts.2 (not_or.mpr ⟨hnulls, hunknowns⟩)
      have hpresent : item.isAbsent = false := by
        cases item <;> first | rfl | contradiction
      obtain ⟨s, rfl⟩ := exists_string_of_accepts hpresent haccepts.1
      exact ⟨s :: ss, rfl⟩

private theorem exists_toJsonStrings_iff {v : Value} {items : List Value}
    (hitems : v.elements? = some items)
    (haccepts : ∀ item ∈ items, AttributeType.string.accepts item = true) :
    (∃ j, v.toJsonStrings = .ok j) ↔ ¬ (.null ∈ items ∨ .unknown ∈ items) := by
  constructor
  · rintro ⟨j, hj⟩
    obtain ⟨ss, hss, -⟩ := Except.map_eq_ok hj
    obtain rfl := Option.some.inj (hitems.symm.trans (elements?_of_toStrings hss))
    simp
  · intro hknown
    obtain ⟨ss, rfl⟩ := exists_strings haccepts hknown
    rw [toJsonStrings, toStrings_of_elements hitems]
    exact ⟨_, rfl⟩

/-- **What an attribute accepts is sent, unless it is unsendable.** -/
theorem FieldKind.exists_toJson_iff_of_accepts {kind : FieldKind} {t : AttributeType}
    (hadmits : kind.admits t = true) {v : Value} (haccepts : t.accepts v = true)
    (hpresent : v.isAbsent = false) (name : String) :
    (∃ j, kind.toJson name v = .ok j) ↔ ¬ kind.Unsendable v := by
  have hstrings : t = .list .string ∨ t = .set .string →
      ((∃ j, v.toJsonStrings = .ok j) ↔
        ¬ ∃ items, v.elements? = some items ∧ (.null ∈ items ∨ .unknown ∈ items)) := by
    intro ht
    obtain ⟨items, hitems, hall⟩ := exists_items_of_accepts hpresent ht haccepts
    rw [exists_toJsonStrings_iff hitems hall, hitems]
    simp
  unfold admits at hadmits
  split at hadmits
  · obtain ⟨s, rfl⟩ := exists_string_of_accepts hpresent haccepts
    exact ⟨fun _ h => h, fun _ => ⟨.string s, rfl⟩⟩
  · obtain ⟨b, rfl⟩ := exists_bool_of_accepts hpresent haccepts
    exact ⟨fun _ h => h, fun _ => ⟨.bool b, rfl⟩⟩
  · obtain ⟨x, rfl⟩ := exists_number_of_accepts hpresent haccepts
    exact exists_toJsonInt_iff x
  · exact hstrings (.inl rfl)
  · exact hstrings (.inr rfl)
  · exact hstrings (.inl rfl)
  · exact hstrings (.inr rfl)
  · exact nomatch hadmits

/-! ### Tables -/

private theorem exists_forall₂_iff {α β : Type} {R : α → β → Prop} {xs : List α} :
    (∃ ys, List.Forall₂ R xs ys) ↔ ∀ x ∈ xs, ∃ y, R x y := by
  induction xs with
  | nil => simp
  | cons x rest ih =>
      rw [List.forall_mem_cons, ← ih]
      constructor
      · rintro ⟨_, _ | ⟨hy, hys⟩⟩
        exact ⟨⟨_, hy⟩, _, hys⟩
      · rintro ⟨⟨y, hy⟩, ys, hys⟩
        exact ⟨y :: ys, .cons hy hys⟩

/-- A table is sent the same from a list and from a set of its rows. -/
theorem toJson_table_of_elements {table : Table} {v : Value} {rows : List (Assoc Value)}
    (h : v.elements? = some (rows.map .map)) (name : String) :
    (FieldKind.table table).toJson name v =
      (FieldKind.table table).toJson name (table.valueOf rows) := by
  obtain ⟨fields, key, ordered⟩ := table
  rw [FieldKind.toJson, FieldKind.toJson, h, Table.elements?_valueOf]

/-- **A table is sent if and only if it has rows, and each row is sent.** -/
theorem FieldKind.exists_toJson_table_iff {table : Table} {name : String} {v : Value} :
    (∃ j, (FieldKind.table table).toJson name v = .ok j) ↔
      v.HasRows ∧
        ∀ row ∈ v.rows, ∃ entries, remoteEntries table.fields row = .ok entries := by
  constructor
  · rintro ⟨j, hj⟩
    obtain ⟨rows, sent, hrows, hsent, -⟩ := toJson_table_cases hj
    rw [rows_of_elements? hrows]
    exact ⟨⟨rows, hrows⟩, exists_forall₂_iff.mp ⟨sent, hsent⟩⟩
  · rintro ⟨⟨rows, hrows⟩, hsent⟩
    rw [rows_of_elements? hrows] at hsent
    obtain ⟨sent, hsent⟩ := exists_forall₂_iff.mpr hsent
    rw [toJson_table_of_elements hrows]
    exact ⟨_, FieldKind.toJson_rows name hsent⟩

/-- **Fields are sent if and only if each of them that is writable and present is.** -/
theorem exists_remoteEntries_iff {fields : List Field} {values : Assoc Value} :
    (∃ entries, remoteEntries fields values = .ok entries) ↔
      ∀ f ∈ fields, f.isSent (getOrNull values f.name) = true →
        ∃ j, f.kind.toJson f.name (getOrNull values f.name) = .ok j := by
  refine ⟨?_, exists_remoteEntries⟩
  induction fields with
  | nil => exact fun _ => List.forall_mem_nil _
  | cons f rest ih =>
      rintro ⟨entries, h⟩
      rw [remoteEntries_cons] at h
      rw [List.forall_mem_cons]
      split at h
      · obtain ⟨j, hj, h⟩ := Except.bind_eq_ok h
        obtain ⟨tail, htail, -⟩ := Except.bind_eq_ok h
        exact ⟨fun _ => ⟨j, hj⟩, ih ⟨tail, htail⟩⟩
      · next hsent =>
          refine ⟨fun h => absurd ?_ hsent, ih ⟨entries, h⟩⟩
          simpa [Field.isSent] using h

private theorem mem_instances_of_mem_rows {v : Value} {row : Assoc Value} (h : row ∈ v.rows) :
    .map row ∈ v.instances := by
  obtain ⟨item, hitem, hrow⟩ := List.mem_filterMap.mp h
  cases item with
  | map entries =>
      obtain rfl := Option.some.inj hrow
      cases v with
      | list items | set items => exact hitem
      | _ => exact nomatch hitem
  | _ => exact nomatch hrow

private theorem isAbsent_of_mem_rows {v : Value} {row : Assoc Value} (h : row ∈ v.rows) :
    v.isAbsent = false := by
  cases v with
  | null | unknown => exact nomatch h
  | _ => rfl

/-- A declared field of a clean instance is sent, unless it holds something unsendable, or one
    of its rows does. -/
private def FieldKind.SentUnlessHeld (kind : FieldKind) : Prop :=
  ∀ {b : Block} {name : String} {values : Assoc Value}, kind.declaredIn b name = true →
    b.Clean values → (getOrNull values name).isAbsent = false →
      ((∃ j, kind.toJson name (getOrNull values name) = .ok j) ↔
        ¬ kind.Unsendable (getOrNull values name) ∧ ∀ table, kind = .table table →
          ∀ row ∈ (getOrNull values name).rows, ∀ k w, Held table.fields row k w →
            ¬ k.Unsendable w)

private theorem sentUnlessHeld_of_attribute {kind : FieldKind} (hk : kind.isTable = false) :
    kind.SentUnlessHeld := by
  intro b name values hdeclared hclean hpresent
  obtain ⟨a, ha, rfl, hadmits⟩ := FieldKind.declaredIn_attribute hk hdeclared
  rw [FieldKind.exists_toJson_iff_of_accepts hadmits (hclean.accepts ha) hpresent]
  refine ⟨fun h => ⟨h, ?_⟩, fun h => h.1⟩
  rintro table rfl
  exact nomatch hk

/-- **Declared fields of a clean instance are sent, unless something unsendable is held.** -/
theorem exists_remoteEntries_iff_of_clean {b : Block} {fields : List Field}
    (hkinds : ∀ f ∈ fields, f.kind.SentUnlessHeld)
    (hdeclared : fieldsDeclaredIn b fields = true) {values : Assoc Value}
    (hclean : b.Clean values) :
    (∃ entries, remoteEntries fields values = .ok entries) ↔
      ∀ kind v, Held fields values kind v → ¬ kind.Unsendable v := by
  have hdeclared := fieldsDeclaredIn_iff.mp hdeclared
  rw [exists_remoteEntries_iff]
  constructor
  · intro h kind v hheld
    have hfield : ∀ f ∈ fields, f.readOnly = false →
        (getOrNull values f.name).isAbsent = false → _ := fun f hf hw hpresent =>
      (hkinds f hf (hdeclared f hf hw) hclean hpresent).mp
        (h f hf (by rw [Field.isSent, hw, hpresent]; rfl))
    cases hheld with
    | @field _ _ f hf hw =>
        cases habsent : (getOrNull values f.name).isAbsent with
        | true => exact FieldKind.not_unsendable_of_isAbsent habsent
        | false => exact (hfield f hf hw habsent).1
    | row hf hw hkind hrow hheld =>
        exact (hfield _ hf hw (isAbsent_of_mem_rows hrow)).2 _ hkind _ hrow _ _ hheld
  · intro h f hf hsent
    obtain ⟨hw, hpresent⟩ :
        f.readOnly = false ∧ (getOrNull values f.name).isAbsent = false := by
      simpa [Field.isSent] using hsent
    refine (hkinds f hf (hdeclared f hf hw) hclean hpresent).mpr ⟨h _ _ (.field hf hw), ?_⟩
    intro table hkind row hrow k w hheld
    exact h k w (.row hf hw hkind hrow hheld)

private theorem sentUnlessHeld_table {table : Table}
    (ih : ∀ f ∈ table.fields, f.kind.SentUnlessHeld) :
    (FieldKind.table table).SentUnlessHeld := by
  intro b name values hdeclared hclean hpresent
  obtain ⟨n, hn, rfl, hfields⟩ := FieldKind.declaredIn_table hdeclared
  have hunsendable : ¬ (FieldKind.table table).Unsendable (getOrNull values n.name) ↔
      (getOrNull values n.name).HasRows := by
    rw [FieldKind.Unsendable, hpresent]
    simp
  have hrows : ∀ row ∈ (getOrNull values n.name).rows,
      (∃ entries, remoteEntries table.fields row = .ok entries) ↔
        ∀ k w, Held table.fields row k w → ¬ k.Unsendable w := fun row hrow =>
    exists_remoteEntries_iff_of_clean ih hfields
      (hclean.instances hn (mem_instances_of_mem_rows hrow))
  rw [FieldKind.exists_toJson_table_iff, hunsendable, forall₂_congr hrows]
  refine and_congr_right' ⟨?_, fun h => h table rfl⟩
  rintro h _ ⟨⟩
  exact h

private theorem sentUnlessHeld (kind : FieldKind) : kind.SentUnlessHeld := by
  induction kind using FieldKind.induction with
  | table table ih => exact sentUnlessHeld_table ih
  | _ => exact sentUnlessHeld_of_attribute rfl

/-! ## Payloads -/

namespace Section

/-- The block of a section is there, but neither a map nor a list or a set of maps. -/
def Malformed (s : Section) (root : Assoc Value) : Prop :=
  ∃ block, s.block = some block ∧ (getOrNull root block).isAbsent = false ∧
    (∀ entries, getOrNull root block ≠ .map entries) ∧ ¬ (getOrNull root block).HasRows

/-- A writable field of a section, or of the rows inside it, is of a kind and holds a value. -/
def Holds (s : Section) (root : Assoc Value) (kind : FieldKind) (v : Value) : Prop :=
  ∃ values, s.valuesIn root = .ok values ∧ Held s.fields values kind v

variable {root : Assoc Value} {block : String}

/-- A block that has one instance at most is read unless it is malformed. -/
theorem exists_instance?_iff (hone : (getOrNull root block).instances.length ≤ 1) :
    (∃ found, instance? root block = .ok found) ↔
      (getOrNull root block).isAbsent = true ∨
        (∃ entries, getOrNull root block = .map entries) ∨ (getOrNull root block).HasRows := by
  constructor
  · rintro ⟨_ | entries, h⟩
    · rcases instance?_eq_none_iff.mp h with hv | hv | hv | hv <;> rw [hv]
      · exact .inl rfl
      · exact .inl rfl
      · exact .inr (.inr ⟨[], rfl⟩)
      · exact .inr (.inr ⟨[], rfl⟩)
    · rcases instance?_eq_some_iff.mp h with hv | hv | hv <;> rw [hv]
      · exact .inr (.inl ⟨entries, rfl⟩)
      · exact .inr (.inr ⟨[entries], rfl⟩)
      · exact .inr (.inr ⟨[entries], rfl⟩)
  · rintro (habsent | ⟨entries, hv⟩ | ⟨rows, hrows⟩)
    · refine ⟨none, instance?_eq_none_iff.mpr ?_⟩
      cases hv : getOrNull root block <;> simp_all [isAbsent]
    · exact ⟨some entries, instance?_eq_some_iff.mpr (.inl hv)⟩
    · cases hv : getOrNull root block with
      | list items | set items =>
          rw [hv] at hone hrows
          obtain rfl := Option.some.inj hrows
          rcases rows with _ | ⟨entries, _ | ⟨_, _⟩⟩
          · exact ⟨none, instance?_eq_none_iff.mpr (by simp [hv])⟩
          · exact ⟨some entries, instance?_eq_some_iff.mpr (by simp [hv])⟩
          · simp [instances] at hone
      | _ =>
          rw [hv] at hrows
          cases hrows

private theorem not_unsendable_of_held_nil {fields : List Field} {kind : FieldKind} {v : Value}
    (h : Held fields [] kind v) : ¬ kind.Unsendable v := by
  cases h with
  | field => exact FieldKind.not_unsendable_of_isAbsent rfl
  | row _ _ _ hrow => exact nomatch hrow

variable {s : Section} {b : Block}

/-- A section is sent if and only if its values are found and sent. -/
theorem exists_toRemoteFromRoot_iff : (∃ fields, s.toRemoteFromRoot root = .ok fields) ↔
    ∃ values, s.valuesIn root = .ok values ∧
      ∃ entries, remoteEntries s.fields values = .ok entries := by
  simp only [toRemoteFromRoot_eq_ok_iff]
  constructor
  · rintro ⟨_, values, entries, hvalues, hentries, -⟩
    exact ⟨values, hvalues, entries, hentries⟩
  · rintro ⟨values, hvalues, entries, hentries⟩
    exact ⟨_, values, entries, hvalues, hentries, rfl⟩

private theorem malformed_iff (hb : s.block = some block) : s.Malformed root ↔
    (getOrNull root block).isAbsent = false ∧
      (∀ entries, getOrNull root block ≠ .map entries) ∧ ¬ (getOrNull root block).HasRows := by
  constructor
  · rintro ⟨other, hother, h⟩
    obtain rfl := Option.some.inj (hb.symm.trans hother)
    exact h
  · exact fun h => ⟨block, hb, h⟩

section Clean

variable (hdeclared : s.declaredIn b = true) (hclean : b.Clean root)
include hdeclared hclean

private theorem exists_nested {block : String} (hb : s.block = some block) :
    ∃ n : NestedBlock, fieldsDeclaredIn n.block s.fields = true ∧
      (getOrNull root block).instances.length ≤ 1 ∧
        ∀ row, .map row ∈ (getOrNull root block).instances → n.block.Clean row := by
  rw [declaredIn, hb] at hdeclared
  obtain ⟨n, hn, hmatch⟩ := List.any_eq_true.mp hdeclared
  simp only [Bool.and_eq_true, beq_iff_eq] at hmatch
  obtain ⟨⟨rfl, hmax⟩, hfields⟩ := hmatch
  have hcount := hclean.length_instances_le hn (by omega)
  exact ⟨n, hfields, by omega, fun row hrow => hclean.instances hn hrow⟩

/-- The values of a declared section are found unless its block is malformed. -/
theorem exists_valuesIn_iff : (∃ values, s.valuesIn root = .ok values) ↔
    ¬ s.Malformed root := by
  cases hb : s.block with
  | none =>
      refine iff_of_true ⟨root, valuesIn_topLevel hb root⟩ ?_
      rintro ⟨block, hblock, -⟩
      exact nomatch hb.symm.trans hblock
  | some block =>
      obtain ⟨n, -, hone, -⟩ := exists_nested hdeclared hclean hb
      have hfound : (∃ values, s.valuesIn root = .ok values) ↔
          ∃ found, instance? root block = .ok found := by
        rw [valuesIn, hb]
        constructor
        · rintro ⟨values, h⟩
          obtain ⟨found, hfound, -⟩ := Except.map_eq_ok h
          exact ⟨found, hfound⟩
        · rintro ⟨found, hfound⟩
          simp only [hfound]
          exact ⟨_, rfl⟩
      rw [hfound, exists_instance?_iff hone, malformed_iff hb]
      simp only [ne_eq, not_and_or, Bool.not_eq_false, not_forall, Classical.not_not]

private theorem exists_remoteEntries_iff_of_valuesIn {values : Assoc Value}
    (hvalues : s.valuesIn root = .ok values) :
    (∃ entries, remoteEntries s.fields values = .ok entries) ↔
      ∀ kind v, Held s.fields values kind v → ¬ kind.Unsendable v := by
  have hkinds : ∀ f ∈ s.fields, f.kind.SentUnlessHeld := fun f _ => sentUnlessHeld f.kind
  cases hb : s.block with
  | none =>
      rw [declaredIn, hb] at hdeclared
      rw [valuesIn_topLevel hb] at hvalues
      obtain rfl := Except.ok.inj hvalues
      exact exists_remoteEntries_iff_of_clean hkinds hdeclared hclean
  | some block =>
      obtain ⟨n, hfields, -, hinstances⟩ := exists_nested hdeclared hclean hb
      rw [valuesIn, hb] at hvalues
      obtain ⟨found, hfound, rfl⟩ := Except.map_eq_ok hvalues
      cases found with
      | none =>
          exact iff_of_true ⟨[], remoteEntries_nil s.fields⟩
            fun _ _ => not_unsendable_of_held_nil
      | some entries =>
          refine exists_remoteEntries_iff_of_clean hkinds hfields (hinstances entries ?_)
          rcases instance?_eq_some_iff.mp hfound with hv | hv | hv <;> rw [hv] <;>
            exact List.mem_singleton.mpr rfl

/-- **A declared section of a clean root is sent, unless its block is malformed or it holds
    something unsendable.** -/
theorem exists_toRemoteFromRoot_iff_of_clean :
    (∃ fields, s.toRemoteFromRoot root = .ok fields) ↔
      ¬ s.Malformed root ∧ ∀ kind v, s.Holds root kind v → ¬ kind.Unsendable v := by
  rw [exists_toRemoteFromRoot_iff, ← exists_valuesIn_iff hdeclared hclean]
  constructor
  · rintro ⟨values, hvalues, hentries⟩
    refine ⟨⟨values, hvalues⟩, ?_⟩
    rintro kind v ⟨_, hsame, hheld⟩
    obtain rfl := Except.ok.inj (hvalues.symm.trans hsame)
    exact (exists_remoteEntries_iff_of_valuesIn hdeclared hclean hvalues).mp hentries kind v hheld
  · rintro ⟨⟨values, hvalues⟩, h⟩
    refine ⟨values, hvalues, ?_⟩
    exact (exists_remoteEntries_iff_of_valuesIn hdeclared hclean hvalues).mpr
      fun kind v hheld => h kind v ⟨values, hvalues, hheld⟩

end Clean

end Section

private theorem exists_createSections_iff {root : Assoc Value} {sections : List Section}
    {properties : Assoc Json} :
    (∃ result, createSections root sections properties = .ok result) ↔
      ∀ s ∈ sections, ∃ fields, s.toRemoteFromRoot root = .ok fields := by
  induction sections generalizing properties with
  | nil => exact iff_of_true ⟨properties, rfl⟩ fun _ hs => nomatch hs
  | cons s rest ih =>
      rw [List.forall_mem_cons, createSections]
      cases s.toRemoteFromRoot root with
      | error e => exact iff_of_false (fun ⟨_, h⟩ => nomatch h) fun ⟨⟨_, h⟩, _⟩ => nomatch h
      | ok fields => exact ih.trans ⟨fun h => ⟨⟨fields, rfl⟩, h⟩, fun h => h.2⟩

/-- **The payload of a prepared plan can be built if and only if no block is malformed, and
    no writable field holds anything unsendable.** -/
theorem exists_createPayload_iff {schema : Schema} {sections : List Section}
    (hcovers : schema.block.covers sections = true) {config : Value}
    (hvalid : Diagnostic.anyError (schema.prepare config).2 = false) :
    (∃ payload, createPayload (schema.prepare config).1 sections = .ok payload) ↔
      ∀ s ∈ sections, ¬ s.Malformed (schema.prepare config).1.root ∧
        ∀ kind v, s.Holds (schema.prepare config).1.root kind v → ¬ kind.Unsendable v := by
  obtain ⟨root, hroot, hclean⟩ := Schema.exists_clean hcovers hvalid
  have hdeclared := List.all_eq_true.mp (Bool.and_eq_true_iff.mp hcovers).2
  have hpayload : (∃ payload, createPayload (.map root) sections = .ok payload) ↔
      ∃ result, createSections root sections [] = .ok result := by
    constructor
    · rintro ⟨payload, h⟩
      obtain ⟨_, ⟨⟩, h⟩ := Except.bind_eq_ok h
      obtain ⟨result, hresult, -⟩ := Except.bind_eq_ok h
      exact ⟨result, hresult⟩
    · rintro ⟨result, hresult⟩
      refine ⟨propertiesDocument result, ?_⟩
      show createSections root sections [] >>= _ = _
      rw [hresult]
      rfl
  rw [hroot, hpayload, exists_createSections_iff]
  exact forall₂_congr fun s hs =>
    Section.exists_toRemoteFromRoot_iff_of_clean (hdeclared s hs) hclean

/-- **A plan without errors has a payload, unless a block is there but is neither a map nor a
    collection of maps, or a writable field holds, on some level, a number that is no 64-bit
    integer, strings without a known value, or anything but rows for a table.** -/
theorem createPayload_fails_iff {r : Resource} (hr : r ∈ Catalog.resources)
    {sections : List Section} (hc : r.content = .document sections) {config : Value}
    (hvalid : Diagnostic.anyError (r.schema.prepare config).2 = false) :
    (∃ e, createPayload (r.schema.prepare config).1 sections = .error e) ↔
      ∃ s ∈ sections, s.Malformed (r.schema.prepare config).1.root ∨
        ∃ kind v, s.Holds (r.schema.prepare config).1.root kind v ∧ kind.Unsendable v := by
  have hok := exists_createPayload_iff (Catalog.covers hr hc) hvalid
  have hfails : (∃ e, createPayload (r.schema.prepare config).1 sections = .error e) ↔
      ¬ ∃ payload, createPayload (r.schema.prepare config).1 sections = .ok payload := by
    cases createPayload (r.schema.prepare config).1 sections <;> simp
  rw [hfails, hok]
  simp only [not_forall, not_and_or, Classical.not_not, exists_prop]

section NamelessMonitor

open Catalog

/-- A location with one monitor that has no name. -/
private def namelessMonitor : Assoc Value :=
  [("location", .string "here"), ("monitors", .list [.null])]

/-- A service with this location. -/
private def watchedService : Value :=
  .map [("location_settings", .list [.map namelessMonitor]), ("name", .string "service")]

/-- A monitor without a name passes validation, two levels down, but cannot be sent. -/
theorem nameless_monitor_is_not_sent :
    Diagnostic.anyError (loadBalancing.schema.prepare watchedService).2 = false ∧
      ∃ e, createPayload (loadBalancing.schema.prepare watchedService).1
        LoadBalancing.sections = .error e := by
  have hvalid :
      Diagnostic.anyError (loadBalancing.schema.prepare watchedService).2 = false := by
    decide +kernel
  have hlocations : Field.table "location_settings" LoadBalancing.locationSettings ∈
      LoadBalancing.basic.fields := by
    simp [LoadBalancing.basic, Section.topLevel]
  have hmonitors : Field.list "monitors" ∈ LoadBalancing.locationSettings.fields := by
    simp [LoadBalancing.locationSettings, Table.unorderedBy]
  have hheld : Held LoadBalancing.basic.fields
      (loadBalancing.schema.prepare watchedService).1.root .list (.list [.null]) :=
    .row hlocations rfl rfl (List.mem_cons_self : namelessMonitor ∈ _) (.field hmonitors rfl)
  refine ⟨hvalid, (createPayload_fails_iff (by simp [resources]) rfl hvalid).mpr ?_⟩
  exact ⟨LoadBalancing.basic, List.mem_cons_self,
    .inr ⟨.list, .list [.null], ⟨_, rfl, hheld⟩, _, rfl, .inl List.mem_cons_self⟩⟩

end NamelessMonitor

end TrafficConfig
