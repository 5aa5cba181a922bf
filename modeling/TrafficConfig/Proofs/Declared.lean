import TrafficConfig.Proofs.Entries
import TrafficConfig.Proofs.Payload
import TrafficConfig.Section.Declared

/-!
# What is read from a remote section

The declared values of a remote section, field by field:

* **`Field.declared?`** — what one field brings: its prior value, its remote value, or
  nothing;
* **`get?_declared`** — the view of the values that are read: a name has what the last of
  its fields brings. With distinct names it is the field itself
  (**`get?_declared_of_mem`**);
* **`FieldKind.toValue_table`** — the rows of a table are read one by one, each over the
  prior row with its key;
* **`FieldKind.toValue_ne_unknown`** — a remote value is never read as unknown.
-/

namespace TrafficConfig

/-! ## Running through lists -/

/-- A list is mapped without an error when each of its elements is. -/
theorem Except.mapM_eq_ok_iff {ε α β : Type} {next : α → Except ε β} {xs : List α}
    {ys : List β} :
    xs.mapM next = .ok ys ↔ List.Forall₂ (fun x y => next x = .ok y) xs ys := by
  induction xs generalizing ys with
  | nil =>
      rw [List.mapM_nil]
      constructor
      · intro h
        obtain rfl := Except.ok.inj h
        exact .nil
      · intro h
        cases h
        rfl
  | cons x xs ih =>
      rw [List.mapM_cons]
      constructor
      · intro h
        obtain ⟨y, hy, h⟩ := Except.bind_eq_ok h
        obtain ⟨tail, htail, h⟩ := Except.bind_eq_ok h
        obtain rfl := Except.ok.inj h
        exact .cons hy (ih.mp htail)
      · intro h
        cases h with
        | cons hy htail =>
            rw [hy, ih.mpr htail]
            rfl

/-- A result that was changed was there before. -/
theorem Except.map_eq_ok {ε α β : Type} {x : Except ε α} {change : α → β} {b : β}
    (h : x.map change = .ok b) : ∃ a, x = .ok a ∧ change a = b := by
  cases x with
  | error e => exact nomatch h
  | ok a => exact ⟨a, rfl, Except.ok.inj h⟩

/-! ## Fields -/

/-- What a field brings: its prior value when the remote side omits it, or has nothing to
    say about an unset one; else the remote value. -/
def Field.declared? (f : Field) (remote : Assoc Json) (prior : Option (Assoc Value)) :
    Except ConfigError (Option Value) :=
  match Assoc.get? remote f.remote with
  | none => .ok (priorValue? prior f.name)
  | some j =>
    if unsetIn prior f.name && f.kind.isCleared j then .ok (priorValue? prior f.name)
    else (f.kind.toValue f.name j (priorValue? prior f.name)).map some

/-- The entry of a field with a value. -/
private def entry (name : String) (v? : Option Value) : List (String × Value) :=
  v?.toList.map fun v => (name, v)

private theorem declaredEntries_eq (f : Field) (rest : List Field) (remote : Assoc Json)
    (prior : Option (Assoc Value)) :
    declaredEntries (f :: rest) remote prior = do
      let v? ← f.declared? remote prior
      return entry f.name v? ++ (← declaredEntries rest remote prior) := by
  obtain ⟨name, remoteName, kind, readOnly, alwaysSent⟩ := f
  rw [declaredEntries, Field.declared?]
  cases hj : Assoc.get? remote remoteName with
  | none => rfl
  | some j =>
      by_cases hkept : (unsetIn prior name && kind.isCleared j) = true
      · simp only [hkept, if_true]
        rfl
      · simp only [hkept, Bool.false_eq_true, if_false]
        cases kind.toValue name j (priorValue? prior name) <;> rfl

private theorem declaredEntries_cons {f : Field} {rest : List Field} {remote : Assoc Json}
    {prior : Option (Assoc Value)} {entries : List (String × Value)}
    (h : declaredEntries (f :: rest) remote prior = .ok entries) :
    ∃ v? tail, f.declared? remote prior = .ok v? ∧
      declaredEntries rest remote prior = .ok tail ∧
      entries = entry f.name v? ++ tail := by
  rw [declaredEntries_eq] at h
  obtain ⟨v?, hv, h⟩ := Except.bind_eq_ok h
  obtain ⟨tail, htail, h⟩ := Except.bind_eq_ok h
  exact ⟨v?, tail, hv, htail, (Except.ok.inj h).symm⟩

/-- What is read depends only on what each field brings. -/
theorem declaredEntries_congr {fields : List Field} {remote : Assoc Json}
    {prior next : Option (Assoc Value)}
    (h : ∀ f ∈ fields, f.declared? remote next = f.declared? remote prior) :
    declaredEntries fields remote next = declaredEntries fields remote prior := by
  induction fields with
  | nil => rfl
  | cons f rest ih =>
      rw [List.forall_mem_cons] at h
      rw [declaredEntries_eq, declaredEntries_eq, h.1, ih h.2]

/-- A field brings nothing only where there was nothing. -/
theorem priorValue?_of_declared?_none {f : Field} {remote : Assoc Json}
    {prior : Option (Assoc Value)} (h : f.declared? remote prior = .ok none) :
    priorValue? prior f.name = none := by
  rw [Field.declared?] at h
  split at h
  · exact Except.ok.inj h
  · split at h
    · exact Except.ok.inj h
    · obtain ⟨v, -, hv⟩ := Except.map_eq_ok h
      exact nomatch hv

/-- What a field brings, as far as it can be read. -/
def Field.brings? (f : Field) (remote : Assoc Json) (prior : Option (Assoc Value)) :
    Option Value :=
  (f.declared? remote prior).toOption.join

/-- A field that can be read brings what is read. -/
theorem Field.brings?_of_declared? {f : Field} {remote : Assoc Json}
    {prior : Option (Assoc Value)} {v? : Option Value}
    (h : f.declared? remote prior = .ok v?) : f.brings? remote prior = v? := by
  rw [brings?, h]
  rfl

private theorem get?_reverse_entry_append (name : String) (v? : Option Value)
    (tail : List (String × Value)) (q : String) :
    Assoc.get? (entry name v? ++ tail).reverse q = (Assoc.get? tail.reverse q).or
      (if name = q then v? else none) := by
  cases v? with
  | none => simp [entry]
  | some v =>
      rw [show entry name (some v) ++ tail = (name, v) :: tail from rfl,
        List.reverse_cons, Assoc.get?_append,
        Assoc.get?_cons, Assoc.get?_nil]

section View

variable {fields : List Field} {remote : Assoc Json} {prior : Option (Assoc Value)}
  {values : Assoc Value}

/-- Where all fields are read, each one is. -/
theorem exists_declared? {entries : List (String × Value)}
    (h : declaredEntries fields remote prior = .ok entries) {f : Field} (hf : f ∈ fields) :
    ∃ v?, f.declared? remote prior = .ok v? := by
  induction fields generalizing entries with
  | nil => exact nomatch hf
  | cons g rest ih =>
      obtain ⟨v?, tail, hv, htail, -⟩ := declaredEntries_cons h
      rcases List.mem_cons.mp hf with rfl | hf
      · exact ⟨v?, hv⟩
      · exact ih htail hf

/-- All fields are read when each of them can be. -/
theorem exists_declaredEntries (h : ∀ f ∈ fields, ∃ v?, f.declared? remote prior = .ok v?) :
    ∃ entries, declaredEntries fields remote prior = .ok entries := by
  induction fields with
  | nil => exact ⟨[], rfl⟩
  | cons f rest ih =>
      rw [List.forall_mem_cons] at h
      obtain ⟨v?, hv⟩ := h.1
      obtain ⟨tail, htail⟩ := ih h.2
      rw [declaredEntries_eq, hv, htail]
      exact ⟨_, rfl⟩

/-- **The view of what is read**: under a name stands what the last field of that name
    brings. -/
theorem get?_declared {entries : List (String × Value)}
    (h : declaredEntries fields remote prior = .ok entries) (q : String) :
    Assoc.get? (Assoc.ofEntries entries) q =
      fields.reverse.findSome? fun f =>
        if f.name = q then f.brings? remote prior else none := by
  rw [Assoc.get?_ofEntries]
  induction fields generalizing entries with
  | nil =>
      obtain rfl := Except.ok.inj h
      rfl
  | cons f rest ih =>
      obtain ⟨v?, tail, hv, htail, rfl⟩ := declaredEntries_cons h
      rw [get?_reverse_entry_append, ih htail, List.reverse_cons, List.findSome?_append,
        List.findSome?_singleton,
        Field.brings?_of_declared? hv]

/-- With distinct names, a name has what its field brings. -/
theorem get?_declared_of_mem {entries : List (String × Value)}
    (h : declaredEntries fields remote prior = .ok entries)
    (hnames : (fields.map (·.name)).Nodup) {f : Field} (hf : f ∈ fields) :
    f.declared? remote prior = .ok (Assoc.get? (Assoc.ofEntries entries) f.name) := by
  obtain ⟨v?, hv⟩ := exists_declared? h hf
  rw [hv, get?_declared h]
  have honly : ∀ g ∈ fields.reverse, g.name = f.name → g = f := by
    intro g hg hname
    exact List.inj_on_of_nodup_map hnames (List.mem_reverse.mp hg) hf hname
  have hmem : f ∈ fields.reverse := List.mem_reverse.mpr hf
  congr 1
  generalize fields.reverse = reversed at honly hmem
  induction reversed with
  | nil => exact nomatch hmem
  | cons g rest ih =>
      rw [List.findSome?_cons]
      by_cases hname : g.name = f.name
      · obtain rfl := honly g List.mem_cons_self hname
        rw [if_pos rfl, Field.brings?_of_declared? hv]
        cases v? with
        | some v => rfl
        | none =>
            -- a second occurrence of the field brings nothing either
            symm
            rw [List.findSome?_eq_none_iff]
            intro a ha
            by_cases hname : a.name = g.name
            · obtain rfl := honly a (List.mem_cons_of_mem g ha) hname
              rw [if_pos rfl, Field.brings?_of_declared? hv]
            · rw [if_neg hname]
      · rw [if_neg hname]
        have hne : f ≠ g := by
          rintro rfl
          exact hname rfl
        exact ih (fun a ha => honly a (List.mem_cons_of_mem g ha))
          ((List.mem_cons.mp hmem).resolve_left hne)

/-- Only the names of fields are read. -/
theorem get?_declared_eq_none {entries : List (String × Value)}
    (h : declaredEntries fields remote prior = .ok entries) {q : String}
    (hq : ∀ f ∈ fields, f.name ≠ q) : Assoc.get? (Assoc.ofEntries entries) q = none := by
  rw [get?_declared h, List.findSome?_eq_none_iff]
  intro f hf
  rw [if_neg (hq f (List.mem_reverse.mp hf))]

end View

/-! ## Rows -/

/-- Where keys are distinct, an element is found by its key and by nothing else. -/
theorem find?_eq_some_iff_of_nodup {α β : Type} [DecidableEq β] {key : α → β} {items : List α}
    (hn : (items.map key).Nodup) {k : β} {item : α} :
    items.find? (fun other => key other = k) = some item ↔ item ∈ items ∧ key item = k := by
  constructor
  · intro h
    have hkey := List.find?_some h
    exact ⟨List.mem_of_find?_eq_some h, of_decide_eq_true hkey⟩
  · rintro ⟨hmem, rfl⟩
    cases hfind : items.find? fun other => key other = key item with
    | none => exact absurd (decide_eq_true rfl) (List.find?_eq_none.mp hfind item hmem)
    | some other =>
        have hkey := List.find?_some hfind
        exact congrArg some (List.inj_on_of_nodup_map hn (List.mem_of_find?_eq_some hfind) hmem
          (of_decide_eq_true hkey))

/-- A key stands under the remote name of its field. -/
theorem remoteKey_of_mem {fields : List Field} (hn : (fields.map (·.name)).Nodup) {f : Field}
    (hf : f ∈ fields) : remoteKey fields f.name = f.remote := by
  rw [remoteKey, (find?_eq_some_iff_of_nodup hn).mpr ⟨hf, rfl⟩]

/-- A remote row is read over the prior row with its key. -/
def Table.declaredRow (table : Table) (name : String) (earlier : List (Assoc Value)) :
    Json → Except ConfigError (Assoc Value)
  | .object row => do
    return Assoc.ofEntries
      (← declaredEntries table.fields row (matchingRow? table.fields table.key earlier row))
  | other => .error (.typeMismatch s!"{name} row" other.kindName)

/-- Rows as the value of their table. -/
def Table.valueOf (table : Table) (rows : List (Assoc Value)) : Value :=
  if table.ordered then .list (rows.map .map) else .set (rows.map .map)

namespace FieldKind

variable {name : String} {j : Json} {prior : Option Value} {v : Value}

/-- Null is read as null, whatever the kind of the field. -/
theorem toValue_null (kind : FieldKind) : kind.toValue name .null prior = .ok .null := by
  cases kind <;> rfl

theorem toValue_string (hj : j ≠ .null) :
    FieldKind.string.toValue name j prior = j.toValueString := by
  cases j <;> first | rfl | exact absurd rfl hj

theorem toValue_bool (hj : j ≠ .null) :
    FieldKind.bool.toValue name j prior = j.toValueBool := by
  cases j <;> first | rfl | exact absurd rfl hj

theorem toValue_int (hj : j ≠ .null) :
    FieldKind.int.toValue name j prior = j.toValueInt := by
  cases j <;> first | rfl | exact absurd rfl hj

theorem toValue_list (hj : j ≠ .null) :
    FieldKind.list.toValue name j prior = j.toValueList := by
  cases j <;> first | rfl | exact absurd rfl hj

theorem toValue_set (hj : j ≠ .null) :
    FieldKind.set.toValue name j prior = j.toValueSet := by
  cases j <;> first | rfl | exact absurd rfl hj

/-- The rows of a table are read one by one, and put into the order of the table. -/
theorem toValue_table (table : Table) (rows : List Json) :
    (FieldKind.table table).toValue name (.array rows) prior =
      (rows.mapM (table.declaredRow name (priorRows prior))).map fun decoded =>
        table.valueOf (Rows.arrange table (priorRows prior) decoded) := by
  obtain ⟨fields, key, ordered⟩ := table
  -- each row is read over the earlier row with its key
  have hrow : Table.declaredRow ⟨fields, key, ordered⟩ name (priorRows prior) = fun
      | .object row => do
        return Assoc.ofEntries
          (← declaredEntries fields row (matchingRow? fields key (priorRows prior) row))
      | other => .error (.typeMismatch s!"{name} row" other.kindName) := by
    funext j
    cases j <;> rfl
  rw [hrow, FieldKind.toValue]
  have hbind : ∀ x : Except ConfigError (List (Assoc Value)),
      (x >>= fun decoded => pure (Table.valueOf ⟨fields, key, ordered⟩
        (Rows.arrange ⟨fields, key, ordered⟩ (priorRows prior) decoded))) =
      x.map fun decoded => Table.valueOf ⟨fields, key, ordered⟩
        (Rows.arrange ⟨fields, key, ordered⟩ (priorRows prior) decoded) := by
    intro x
    cases x <;> rfl
  exact hbind _

/-- A table is read from an array only. -/
theorem toValue_table_cases {table : Table}
    (h : (FieldKind.table table).toValue name j prior = .ok v) :
    (j = .null ∧ v = .null) ∨ ∃ rows decoded, j = .array rows ∧
      List.Forall₂
        (fun i row => table.declaredRow name (priorRows prior) i = .ok row) rows decoded ∧
        v = table.valueOf (Rows.arrange table (priorRows prior) decoded) := by
  cases j with
  | null =>
      rw [toValue_null] at h
      exact .inl ⟨rfl, (Except.ok.inj h).symm⟩
  | array rows =>
      rw [toValue_table] at h
      obtain ⟨decoded, hdecoded, rfl⟩ := Except.map_eq_ok h
      exact .inr ⟨rows, decoded, rfl, Except.mapM_eq_ok_iff.mp hdecoded, rfl⟩
  | _ =>
      obtain ⟨fields, key, ordered⟩ := table
      exact nomatch h

end FieldKind

/-- Arranging rows loses none of them and adds none. -/
theorem Rows.arrange_perm (table : Table) (earlier rows : List (Assoc Value)) :
    (arrange table earlier rows).Perm rows := by
  obtain ⟨fields, key, ordered⟩ := table
  rw [arrange]
  cases key with
  | none => exact .refl _
  | some key => cases ordered <;> exact sortBy_perm _ _

/-- The elements of a table's value are its rows. -/
theorem Table.elements?_valueOf (table : Table) (rows : List (Assoc Value)) :
    (table.valueOf rows).elements? = some (rows.map .map) := by
  rw [valueOf]
  split
  · rfl
  · rfl

/-- A remote value that is not null is read as one that is present. -/
theorem FieldKind.isAbsent_toValue {kind : FieldKind} {name : String} {j : Json}
    {prior : Option Value} {v : Value} (h : kind.toValue name j prior = .ok v)
    (hj : j ≠ .null) : v.isAbsent = false := by
  cases kind with
  | table table =>
      rcases toValue_table_cases h with ⟨hnull, -⟩ | ⟨rows, decoded, -, -, rfl⟩
      · exact absurd hnull hj
      · rw [Table.valueOf]
        split <;> rfl
  | string =>
      rw [toValue_string hj] at h
      cases j with
      | string s => rw [← Except.ok.inj h]; rfl
      | _ => exact nomatch h
  | bool =>
      rw [toValue_bool hj] at h
      cases j with
      | bool b => rw [← Except.ok.inj h]; rfl
      | _ => exact nomatch h
  | int =>
      rw [toValue_int hj, Json.toValueInt.eq_def] at h
      split at h
      · rw [← Except.ok.inj h]; rfl
      · split at h
        · rw [← Except.ok.inj h]; rfl
        · exact nomatch h
      · exact nomatch h
  | list =>
      rw [toValue_list hj, Json.toValueList] at h
      obtain ⟨items, -, rfl⟩ := Except.map_eq_ok h
      rfl
  | set =>
      rw [toValue_set hj, Json.toValueSet] at h
      obtain ⟨items, -, rfl⟩ := Except.map_eq_ok h
      rfl

/-- A remote value is never read as unknown. -/
theorem FieldKind.toValue_ne_unknown {kind : FieldKind} {name : String} {j : Json}
    {prior : Option Value} {v : Value} (h : kind.toValue name j prior = .ok v) :
    v ≠ .unknown := by
  rintro rfl
  by_cases hj : j = .null
  · rw [hj, toValue_null] at h
    exact nomatch h
  · exact Bool.noConfusion (isAbsent_toValue h hj)

end TrafficConfig
