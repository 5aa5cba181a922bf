import TrafficConfig.Catalog.TrafficManager.Sections
import TrafficConfig.Proofs.Instances
import TrafficConfig.Proofs.Tables

/-!
# What is withheld

The remote side learns nothing of fields that are only read, and nothing of attributes that no
table names:

* **`FieldKind.Agree`**, **`FieldsAgree`** — two values may differ in such places only, on all
  levels; **`Section.Agrees`** says it of two roots;
* **`FieldKind.Agree.toJson?_eq`** — values that agree are sent alike. So **`SentAlike`** values
  give the same entries of a create (**`remoteEntries_congr`**) and of an update
  (**`updateEntries_congr`**);
* **`Section.Agrees.valuesIn`** — the block of a section is found in both roots, or in neither;
* **`payloads_of_agreeing_roots`** — roots that agree give the same payloads.
-/

namespace TrafficConfig

open Value

/-! ## Agreement -/

/-- The elements of a list or a set; any other value has none. -/
abbrev Value.elements (v : Value) : List Value := v.elements?.getD []

/-- Two values have one shape: both are absent, or they are of one kind, and so are their
    elements, one by one. -/
def Value.SameShape (v w : Value) : Prop :=
  (v.isAbsent = true ∧ w.isAbsent = true) ∨
    (v.kindName = w.kindName ∧ v.elements.map kindName = w.elements.map kindName)

mutual

/-- Two values of a field agree: both are absent, or they are the same; tables have rows of one
    shape that agree one by one. -/
def FieldKind.Agree : FieldKind → Value → Value → Prop
  | .table ⟨fields, _, _⟩, v, w => v.SameShape w ∧
      List.Forall₂ (fun row other => FieldsAgree fields row.root other.root) v.elements w.elements
  | _, v, w => (v.isAbsent = true ∧ w.isAbsent = true) ∨ v = w

/-- Two rows agree: their values of every writable field do. Whatever else they hold may
    differ. -/
def FieldsAgree : List Field → Assoc Value → Assoc Value → Prop
  | [], _, _ => True
  | ⟨name, _, kind, readOnly, _⟩ :: rest, row, other =>
    (readOnly = false → kind.Agree (getOrNull row name) (getOrNull other name)) ∧
      FieldsAgree rest row other

end

/-- Rows agree when their writable fields do. -/
theorem fieldsAgree_iff {fields : List Field} {row other : Assoc Value} :
    FieldsAgree fields row other ↔ ∀ f ∈ fields, f.readOnly = false →
      f.kind.Agree (getOrNull row f.name) (getOrNull other f.name) := by
  induction fields with
  | nil => simp [FieldsAgree]
  | cons f rest ih =>
      obtain ⟨name, remote, kind, readOnly, alwaysSent⟩ := f
      rw [FieldsAgree, ih, List.forall_mem_cons]

/-- Tables agree when their rows do, one by one. -/
theorem FieldKind.agree_table_iff {table : Table} {v w : Value} :
    (FieldKind.table table).Agree v w ↔ v.SameShape w ∧ List.Forall₂
      (fun row other => FieldsAgree table.fields row.root other.root) v.elements w.elements := by
  obtain ⟨fields, key, ordered⟩ := table
  rw [FieldKind.Agree]

/-- Two roots agree on a section: its block has one shape in both, and the values of every
    writable field agree. -/
structure Section.Agrees (s : Section) (a b : Assoc Value) : Prop where
  shape : ∀ block ∈ s.block, (getOrNull a block).SameShape (getOrNull b block)
  fields : ∀ f ∈ s.fields, f.readOnly = false → f.kind.Agree (s.valueIn a f) (s.valueIn b f)

/-! ## Fields -/

/-- The writable fields of a table are sent alike from two rows, or two instances. -/
def SentAlike (fields : List Field) (values others : Assoc Value) : Prop :=
  ∀ f ∈ fields, f.readOnly = false →
    f.toJson? (getOrNull values f.name) = f.toJson? (getOrNull others f.name)

section SentAlike

variable {fields : List Field} {values others : Assoc Value}

/-- A writable field of a create is sent as its value, if that is present. -/
theorem remoteEntries_of_writable {f : Field} (hf : f.readOnly = false)
    (rest : List Field) (values : Assoc Value) : remoteEntries (f :: rest) values = (do
      match ← f.toJson? (getOrNull values f.name) with
      | some j => return (f.remote, j) :: (← remoteEntries rest values)
      | none => remoteEntries rest values) := by
  rw [remoteEntries_cons, Field.toJson?]
  cases hv : (getOrNull values f.name).isAbsent with
  | true => rw [if_neg fun h => Bool.noConfusion h.2, if_pos rfl]; rfl
  | false =>
      rw [if_pos ⟨hf, rfl⟩, if_neg Bool.false_ne_true]
      cases f.kind.toJson f.name (getOrNull values f.name) <;> rfl

/-- **A create depends on nothing else.** -/
theorem remoteEntries_congr (h : SentAlike fields values others) :
    remoteEntries fields values = remoteEntries fields others := by
  induction fields with
  | nil => rfl
  | cons f rest ih =>
      obtain ⟨hf, hrest⟩ := List.forall_mem_cons.mp h
      cases hread : f.readOnly with
      | true =>
          have hskip : ∀ values,
              remoteEntries (f :: rest) values = remoteEntries rest values := by
            intro values
            rw [remoteEntries_cons, if_neg fun h => Bool.noConfusion (hread.symm.trans h.1)]
          rw [hskip, hskip, ih hrest]
      | false =>
          rw [remoteEntries_of_writable hread, remoteEntries_of_writable hread, hf hread, ih hrest]

/-- **An update depends on nothing else.** -/
theorem updateEntries_congr (h : SentAlike fields values others) (changed : Field → Bool) :
    updateEntries values changed fields = updateEntries others changed fields := by
  induction fields with
  | nil => rfl
  | cons f rest ih =>
      obtain ⟨hf, hrest⟩ := List.forall_mem_cons.mp h
      rw [updateEntries, updateEntries, ih hrest]
      cases hread : f.readOnly with
      | true => rfl
      | false => rw [hf hread]

end SentAlike

/-! ## Tables -/

/-- The document of a row. -/
def Table.rowToJson (table : Table) (name : String) : Value → Except ConfigError Json
  | .map row => do return .object (Assoc.ofEntries (← remoteEntries table.fields row))
  | other => .error (.typeMismatch s!"{name} row" other.kindName)

/-- A table is sent row by row. -/
theorem FieldKind.toJson_table (table : Table) (name : String) (v : Value) :
    (FieldKind.table table).toJson name v = match v.elements? with
      | none => .error (.typeMismatch s!"{name} rows" v.kindName)
      | some rows => (rows.mapM (table.rowToJson name)).map .array := by
  obtain ⟨fields, key, ordered⟩ := table
  have hrow : Table.rowToJson ⟨fields, key, ordered⟩ name = fun
      | .map row => do return .object (Assoc.ofEntries (← remoteEntries fields row))
      | other => .error (.typeMismatch s!"{name} row" other.kindName) := by
    funext v
    cases v <;> rfl
  rw [hrow, FieldKind.toJson]
  cases v.elements? with
  | none => rfl
  | some rows =>
      have hbind : ∀ x : Except ConfigError (List Json),
          (x >>= fun rows => pure (Json.array rows)) = x.map .array := by
        intro x
        cases x <;> rfl
      exact hbind _

/-- Values of one kind are lists or sets together. -/
theorem elements?_cases_of_kindName {v w : Value} (h : v.kindName = w.kindName) :
    (v.elements? = none ∧ w.elements? = none) ∨
      ∃ items others, v.elements? = some items ∧ w.elements? = some others := by
  cases v <;> cases w <;> simp [kindName, elements?] at h ⊢

section Rows

variable {table : Table}
  (ih : ∀ row other, FieldsAgree table.fields row other → SentAlike table.fields row other)
include ih

/-- Rows that agree are sent alike. -/
theorem rowToJson_eq_of_agree (name : String) {row other : Value}
    (hkind : row.kindName = other.kindName)
    (h : FieldsAgree table.fields row.root other.root) :
    table.rowToJson name row = table.rowToJson name other := by
  cases row with
  | map entries =>
      cases other with
      | map entries' =>
          have hentries : SentAlike table.fields entries entries' := ih entries entries' h
          rw [Table.rowToJson, Table.rowToJson, remoteEntries_congr hentries]
      | _ => simp [kindName] at hkind
  | _ => cases other <;> first | rfl | simp [kindName] at hkind

private theorem mapM_rowToJson_eq_of_agree (name : String) {items others : List Value}
    (hkinds : items.map kindName = others.map kindName) (h : List.Forall₂
      (fun row other => FieldsAgree table.fields row.root other.root) items others) :
    items.mapM (table.rowToJson name) = others.mapM (table.rowToJson name) := by
  induction h with
  | nil => rfl
  | cons hrow _ hrest =>
      obtain ⟨hkind, hkinds⟩ := List.cons.inj hkinds
      rw [List.mapM_cons, List.mapM_cons, rowToJson_eq_of_agree ih name hkind hrow,
        hrest hkinds]

private theorem toJson_table_eq_of_agree (name : String) {v w : Value}
    (hkind : v.kindName = w.kindName)
    (hkinds : v.elements.map kindName = w.elements.map kindName)
    (h : List.Forall₂ (fun row other => FieldsAgree table.fields row.root other.root)
      v.elements w.elements) :
    (FieldKind.table table).toJson name v = (FieldKind.table table).toJson name w := by
  rw [FieldKind.toJson_table, FieldKind.toJson_table]
  obtain ⟨hv, hw⟩ | ⟨items, others, hv, hw⟩ := elements?_cases_of_kindName hkind
  · rw [hv, hw, hkind]
  · rw [elements, elements, hv, hw] at hkinds h
    rw [hv, hw]
    exact congrArg (Except.map Json.array) (mapM_rowToJson_eq_of_agree ih name hkinds h)

end Rows

/-- **Values that agree are sent alike.** -/
theorem FieldKind.Agree.toJson?_eq {kind : FieldKind} {v w : Value} (h : kind.Agree v w)
    {f : Field} (hf : f.kind = kind) : f.toJson? v = f.toJson? w := by
  induction kind using FieldKind.induction generalizing f v w with
  | table table ih =>
      have hfields : ∀ row other, FieldsAgree table.fields row other →
          SentAlike table.fields row other :=
        fun row other hrow g hg hwritable => ih g hg (fieldsAgree_iff.mp hrow g hg hwritable) rfl
      obtain ⟨⟨hv, hw⟩ | ⟨hkind, hkinds⟩, hrows⟩ := FieldKind.agree_table_iff.mp h
      · rw [Field.toJson?_of_absent hv, Field.toJson?_of_absent hw]
      · rw [Field.toJson?, Field.toJson?, hf, isAbsent_eq_of_kindName hkind,
          toJson_table_eq_of_agree hfields f.name hkind hkinds hrows]
  | _ =>
      obtain ⟨hv, hw⟩ | rfl := h
      · rw [Field.toJson?_of_absent hv, Field.toJson?_of_absent hw]
      · rfl

/-! ## Sections -/

namespace Section

variable {s : Section} {a b : Assoc Value}

private theorem instance?_eq_of_getOrNull (root : Assoc Value) (block : String) :
    instance? root block = instance? [(block, getOrNull root block)] block := by
  rw [instance?, instance?, Assoc.get?_cons, if_pos rfl, getOrNull]
  cases Assoc.get? root block <;> rfl

private theorem instance?_list_congr (block : String) {items others : List Value}
    (h : items.map kindName = others.map kindName) :
    (instance? [(block, .list items)] block).map (fun _ => ()) =
      (instance? [(block, .list others)] block).map (fun _ => ()) := by
  rw [instance?, instance?, Assoc.get?_cons, if_pos rfl, Assoc.get?_cons, if_pos rfl]
  have hlength : items.length = others.length := by simpa using congrArg List.length h
  obtain _ | ⟨x, _ | ⟨x', items⟩⟩ := items
  · obtain rfl := List.eq_nil_of_length_eq_zero hlength.symm
    rfl
  · obtain ⟨y, rfl⟩ := List.length_eq_one_iff.mp hlength.symm
    have hkind := (List.cons.inj h).1
    cases x <;> cases y <;> first | rfl | simp [kindName] at hkind
  · obtain _ | ⟨y, _ | ⟨y', others⟩⟩ := others
    · cases hlength
    · cases hlength
    · simp only [hlength]

/-- Whether a block can be read depends on its shape only. -/
theorem instance?_congr {block : String}
    (h : (getOrNull a block).SameShape (getOrNull b block)) :
    (instance? a block).map (fun _ => ()) = (instance? b block).map (fun _ => ()) := by
  rw [instance?_eq_of_getOrNull a, instance?_eq_of_getOrNull b]
  generalize getOrNull a block = v at h
  generalize getOrNull b block = w at h
  obtain ⟨hv, hw⟩ | ⟨hkind, hkinds⟩ := h
  · have hnone : ∀ {v : Value}, v.isAbsent = true → instance? [(block, v)] block = .ok none := by
      intro v hv
      rw [instance?, Assoc.get?_cons, if_pos rfl]
      cases v <;> first | rfl | exact Bool.noConfusion hv
    rw [hnone hv, hnone hw]
  · cases v with
    | list items =>
        cases w with
        | list others => exact instance?_list_congr block hkinds
        | _ => simp [kindName] at hkind
    | set items =>
        cases w with
        | set others =>
            have hset : ∀ items, instance? [(block, .set items)] block =
                instance? [(block, .list items)] block := by
              intro items
              rw [instance?, instance?, Assoc.get?_cons, if_pos rfl, Assoc.get?_cons, if_pos rfl]
            rw [hset, hset]
            exact instance?_list_congr block hkinds
        | _ => simp [kindName] at hkind
    | _ =>
        rw [instance?, instance?, Assoc.get?_cons, if_pos rfl, Assoc.get?_cons, if_pos rfl]
        cases w <;> first | rfl | simp [kindName] at hkind

/-- **The values of a section can be read from both roots, or from neither**, and they are
    sent alike. -/
theorem Agrees.valuesIn (h : s.Agrees a b) :
    (∃ e, s.valuesIn a = .error e ∧ s.valuesIn b = .error e) ∨
      ∃ values others, s.valuesIn a = .ok values ∧ s.valuesIn b = .ok others ∧
        SentAlike s.fields values others := by
  have hread : (s.valuesIn a).map (fun _ => ()) = (s.valuesIn b).map (fun _ => ()) := by
    rw [Section.valuesIn, Section.valuesIn]
    cases hblock : s.block with
    | none => rfl
    | some block =>
        have hblocks := instance?_congr (h.shape block hblock)
        show ((instance? a block).map _).map _ = ((instance? b block).map _).map _
        cases ha : instance? a block <;> cases hb : instance? b block <;>
          rw [ha, hb] at hblocks <;> exact hblocks
  cases ha : s.valuesIn a with
  | error e =>
      cases hb : s.valuesIn b with
      | error e' =>
          rw [ha, hb] at hread
          obtain rfl := Except.error.inj hread
          exact .inl ⟨e, rfl, rfl⟩
      | ok others =>
          rw [ha, hb] at hread
          cases hread
  | ok values =>
      cases hb : s.valuesIn b with
      | error e =>
          rw [ha, hb] at hread
          cases hread
      | ok others =>
          refine .inr ⟨values, others, rfl, rfl, fun f hf hwritable => ?_⟩
          have hagree := h.fields f hf hwritable
          rw [valueIn_of_ok ha, valueIn_of_ok hb] at hagree
          exact hagree.toJson?_eq rfl

/-- What is done with the values of a section gives the same from both roots, if it depends
    only on what is sent. -/
theorem Agrees.bind_valuesIn {α : Type} (h : s.Agrees a b)
    {next : Assoc Value → Except ConfigError α}
    (hnext : ∀ {values others}, SentAlike s.fields values others → next values = next others) :
    s.valuesIn a >>= next = s.valuesIn b >>= next := by
  obtain ⟨e, ha, hb⟩ | ⟨values, others, ha, hb, halike⟩ := h.valuesIn
  · rw [ha, hb]
  · rw [ha, hb]
    exact hnext halike

/-- Roots that agree are sent alike. -/
theorem Agrees.toRemoteFromRoot_eq (h : s.Agrees a b) :
    s.toRemoteFromRoot a = s.toRemoteFromRoot b := by
  rw [Section.toRemoteFromRoot_eq, Section.toRemoteFromRoot_eq]
  refine h.bind_valuesIn fun halike => ?_
  rw [toRemote, toRemote, remoteEntries_congr halike]

/-- Roots that agree are sent alike in an update. -/
theorem Agrees.update_eq (h : s.Agrees a b) (changes : ChangeSet) :
    s.update a changes = s.update b changes := by
  rw [update, update]
  cases s.granularity with
  | field =>
      show s.fieldUpdate a changes = s.fieldUpdate b changes
      rw [fieldUpdate, fieldUpdate]
      refine h.bind_valuesIn fun {values others} halike => ?_
      show updateEntries values _ s.fields >>= _ = updateEntries others _ s.fields >>= _
      rw [updateEntries_congr halike]
  | «section» =>
      show s.wholeUpdate a changes = s.wholeUpdate b changes
      rw [wholeUpdate, wholeUpdate]
      by_cases hchanged : s.wholeChanged changes = true
      · rw [if_pos hchanged, if_pos hchanged]
        refine h.bind_valuesIn fun halike => ?_
        rw [updateEntries_congr halike]
      · rw [if_neg hchanged, if_neg hchanged]

end Section

/-! ## Payloads -/

section Payloads

variable {sections : List Section} {a b : Assoc Value} (h : ∀ s ∈ sections, s.Agrees a b)
include h

private theorem createSections_eq (properties : Assoc Json) :
    createSections a sections properties = createSections b sections properties := by
  induction sections generalizing properties with
  | nil => rfl
  | cons s rest ih =>
      rw [List.forall_mem_cons] at h
      rw [createSections, createSections, h.1.toRemoteFromRoot_eq]
      exact congrArg _ (funext fun fields => ih h.2 _)

private theorem updateSections_eq (changes : ChangeSet) (acc : Assoc Json × Bool) :
    updateSections a changes sections acc = updateSections b changes sections acc := by
  induction sections generalizing acc with
  | nil => rfl
  | cons s rest ih =>
      rw [List.forall_mem_cons] at h
      rw [updateSections, updateSections, h.1.update_eq]
      exact congrArg _ (funext fun update => ih h.2 _)

/-- **Roots that agree on all sections give the same payloads**, or fail alike: what is only
    read and what no table names is never sent. -/
theorem payloads_of_agreeing_roots :
    createPayload (.map a) sections = createPayload (.map b) sections ∧
      ∀ changes,
        updatePayload (.map a) sections changes = updatePayload (.map b) sections changes := by
  constructor
  · rw [createPayload, createPayload]
    show createSections a sections [] >>= _ = createSections b sections [] >>= _
    rw [createSections_eq h]
  · intro changes
    rw [updatePayload, updatePayload]
    show updateSections a changes sections _ >>= _ = updateSections b changes sections _ >>= _
    rw [updateSections_eq h]

end Payloads

/-! ## Two roots -/

section Issuers

/-- A block with a table of issuers. Whether an issuer answers, and when it was last asked, is
    only read. -/
private def ocsp : Section := .inBlock "ocsp" "ocsp" [
  .table "issuers" (.orderedBy "issuer" [.string "issuer", (Field.bool "answers").fetched]),
  (Field.string "asked").fetched]

private def ocspDeclared : Assoc Value := [
  ("ocsp", .list [.map [("issuers", .list [.map [("issuer", .string "ca")]])]])]

/-- What was declared, with what was read, and an attribute that no table names. -/
private def ocspRead : Assoc Value := [
  ("comment", .string "staging"),
  ("ocsp", .list [.map [("asked", .string "today"),
    ("issuers", .list [.map [("answers", .bool true), ("issuer", .string "ca")]])]])]

private def ocspSent : Json := propertiesDocument [
  ("ocsp", .object [("issuers", .array [.object [("issuer", .string "ca")]])])]

private theorem ocspDeclared_agrees_ocspRead : ∀ s ∈ [ocsp], s.Agrees ocspDeclared ocspRead := by
  intro s hs
  obtain rfl := List.mem_singleton.mp hs
  refine ⟨fun block hblock => ?_, fun f hf hwritable => ?_⟩
  · obtain rfl := Option.some.inj hblock
    exact .inr ⟨rfl, rfl⟩
  · obtain rfl | hf := List.mem_cons.mp hf
    · refine FieldKind.agree_table_iff.mpr ⟨.inr ⟨rfl, rfl⟩, .cons ?_ .nil⟩
      exact ⟨fun _ => .inr rfl, (nomatch ·), trivial⟩
    · obtain rfl := List.mem_singleton.mp hf
      exact nomatch hwritable

/-- What was read is sent neither with a create nor with an update. -/
theorem ocspRead_is_withheld : (∀ s ∈ [ocsp], s.Agrees ocspDeclared ocspRead) ∧
    createPayload (.map ocspRead) [ocsp] = .ok ocspSent ∧
    updatePayload (.map ocspRead) [ocsp] (ChangeSet.between (.map ocspDeclared) (.map ocspRead)) =
      .ok (some ocspSent) := by
  obtain ⟨hcreate, hupdate⟩ := payloads_of_agreeing_roots ocspDeclared_agrees_ocspRead
  refine ⟨ocspDeclared_agrees_ocspRead, hcreate.symm.trans rfl, (hupdate _).symm.trans ?_⟩
  rfl

end Issuers

end TrafficConfig
