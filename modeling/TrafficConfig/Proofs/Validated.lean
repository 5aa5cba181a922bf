import TrafficConfig.Proofs.Layout

/-!
# Plans without violations

A schema and the tables of fields describe the same attributes twice:

* **`fieldsDeclaredIn`** — a block declares the writable fields of a table, on all levels,
  with types whose values these fields take. **`Block.covers`** says this of the root and
  its sections, and the schemas of the catalog do (**`Catalog.covers`**);
* **`Block.Clean`** — nothing in an instance violates its block. So every attribute accepts
  its value (**`Clean.accepts`**), the instances of nested blocks are clean again
  (**`Clean.instances`**), and there are no more of them than allowed
  (**`Clean.length_instances_le`**);
* **`Schema.exists_clean`** — a plan without errors is a map that is clean.
-/

namespace TrafficConfig

open Value

/-! ## Schemas and tables of fields -/

/-- A field of a kind without rows takes the known values of a type, up to their elements and
    the range of a number. -/
def FieldKind.admits : FieldKind → AttributeType → Bool
  | .string, .string => true
  | .bool, .bool => true
  | .int, .number => true
  | .list, .list .string => true
  | .list, .set .string => true
  | .set, .list .string => true
  | .set, .set .string => true
  | _, _ => false

mutual

/-- A block declares a field: as an attribute of a type that it takes, or as a nested block
    that declares the fields of its rows. -/
def FieldKind.declaredIn (b : Block) (name : String) : FieldKind → Bool
  | .table ⟨fields, _, _⟩ =>
    b.blocks.any fun n => n.name == name && fieldsDeclaredIn n.block fields
  | kind => b.attributes.any fun a => a.name == name && kind.admits a.type

/-- A block declares the writable fields of a table. -/
def fieldsDeclaredIn (b : Block) : List Field → Bool
  | [] => true
  | ⟨name, _, kind, readOnly, _⟩ :: rest =>
    (readOnly || kind.declaredIn b name) && fieldsDeclaredIn b rest

end

/-- A block declares the writable fields of a section: its own attributes, or a block nested
    in it that has one instance at most. -/
def Section.declaredIn (b : Block) (s : Section) : Bool :=
  match s.block with
  | none => fieldsDeclaredIn b s.fields
  | some block => b.blocks.any fun n =>
      n.name == block && n.maxItems == 1 && fieldsDeclaredIn n.block s.fields

/-- A block requires an attribute, and declares the writable fields of all sections. -/
def Block.covers (b : Block) (sections : List Section) : Bool :=
  b.attributes.any (·.required) && sections.all (Section.declaredIn b)

/-- **Every schema of the catalog declares what its sections send.** -/
theorem Catalog.covers {r : Resource} (hr : r ∈ resources) {sections : List Section}
    (hc : r.content = .document sections) : r.schema.block.covers sections = true := by
  have hall : ∀ e ∈ documents, e.1.schema.block.covers e.2 = true := by decide +kernel
  exact hall _ (mem_documents hr hc)

/-- Fields are declared in a block when each writable one is. -/
theorem fieldsDeclaredIn_iff {b : Block} {fields : List Field} :
    fieldsDeclaredIn b fields = true ↔
      ∀ f ∈ fields, f.readOnly = false → f.kind.declaredIn b f.name = true := by
  induction fields with
  | nil => simp [fieldsDeclaredIn]
  | cons f rest ih =>
      obtain ⟨name, remote, kind, readOnly, alwaysSent⟩ := f
      rw [fieldsDeclaredIn, Bool.and_eq_true, ih, List.forall_mem_cons]
      refine and_congr_left' ?_
      cases readOnly <;> simp

/-- A table is declared by a nested block that declares its fields. -/
theorem FieldKind.declaredIn_table {b : Block} {name : String} {table : Table}
    (h : (FieldKind.table table).declaredIn b name = true) :
    ∃ n ∈ b.blocks, n.name = name ∧ fieldsDeclaredIn n.block table.fields = true := by
  obtain ⟨fields, key, ordered⟩ := table
  rw [FieldKind.declaredIn, List.any_eq_true] at h
  obtain ⟨n, hn, hmatch⟩ := h
  rw [Bool.and_eq_true, beq_iff_eq] at hmatch
  exact ⟨n, hn, hmatch⟩

/-- Any other field is declared by an attribute that admits its kind. -/
theorem FieldKind.declaredIn_attribute {b : Block} {name : String} {kind : FieldKind}
    (hk : kind.isTable = false) (h : kind.declaredIn b name = true) :
    ∃ a ∈ b.attributes, a.name = name ∧ kind.admits a.type = true := by
  have hany : (b.attributes.any fun a => a.name == name && kind.admits a.type) = true := by
    cases kind with
    | table => exact nomatch hk
    | _ => exact h
  obtain ⟨a, ha, hmatch⟩ := List.any_eq_true.mp hany
  rw [Bool.and_eq_true, beq_iff_eq] at hmatch
  exact ⟨a, ha, hmatch⟩

/-! ## Plans without violations -/

/-- An instance at some path has no violation of a block that is an error. -/
def Block.Clean (b : Block) (values : Assoc Value) : Prop :=
  ∃ origin, Diagnostic.anyError (b.violations origin values) = false

namespace Block.Clean

variable {b : Block} {values : Assoc Value}

private theorem parts (h : b.Clean values) : ∃ origin,
    (∀ a ∈ b.attributes, Diagnostic.anyError (a.validate origin values) = false) ∧
      Diagnostic.anyError (nestedViolations b.blocks origin values) = false := by
  obtain ⟨origin, h⟩ := h
  obtain ⟨description, deprecated, attributes, blocks⟩ := b
  rw [violations, Diagnostic.anyError, List.any_append, Bool.or_eq_false_iff,
    List.any_flatMap, List.any_eq_false] at h
  exact ⟨origin, fun a ha => Bool.eq_false_iff.mpr (h.1 a ha), h.2⟩

/-- **Every attribute of a clean instance accepts its value.** -/
theorem accepts (h : b.Clean values) {a : Attribute} (ha : a ∈ b.attributes) :
    a.type.accepts (getOrNull values a.name) = true := by
  obtain ⟨origin, hattributes, -⟩ := h.parts
  have hone := hattributes a ha
  rw [Attribute.validate] at hone
  split at hone
  · next hnull => rw [hnull, AttributeType.accepts.eq_def]
  · next hunknown => rw [hunknown, AttributeType.accepts.eq_def]
  · next v hv _ =>
      by_contra haccepts
      rw [if_neg haccepts] at hone
      exact nomatch hone

/-- What is required is there. -/
theorem ne_null_of_required (h : b.Clean values) {a : Attribute} (ha : a ∈ b.attributes)
    (hr : a.required = true) : getOrNull values a.name ≠ .null := by
  intro hnull
  obtain ⟨origin, hattributes, -⟩ := h.parts
  have hone := hattributes a ha
  rw [Attribute.validate, hnull, hr] at hone
  exact nomatch hone

private theorem nested {blocks : List NestedBlock} {origin : Path}
    (h : Diagnostic.anyError (nestedViolations blocks origin values) = false) :
    ∀ n ∈ blocks,
      Diagnostic.anyError (NestedBlock.countViolations n.name n.minItems n.maxItems
        (origin.name n.name) (getOrNull values n.name).instances.length) = false ∧
      ∀ row, .map row ∈ (getOrNull values n.name).instances → n.block.Clean row := by
  induction blocks with
  | nil => exact List.forall_mem_nil _
  | cons m rest ih =>
      obtain ⟨name, nesting, minItems, maxItems, block⟩ := m
      rw [nestedViolations, Diagnostic.anyError, List.any_append, List.any_append,
        Bool.or_eq_false_iff, Bool.or_eq_false_iff] at h
      obtain ⟨⟨hcount, hinstances⟩, hrest⟩ := h
      refine List.forall_mem_cons.mpr ⟨⟨hcount, ?_⟩, ih hrest⟩
      intro row hrow
      obtain ⟨i, hi⟩ := List.mem_iff_getElem?.mp hrow
      have hmem := List.mk_mem_zipIdx_iff_getElem?.mpr hi
      rw [List.any_flatMap, List.any_eq_false] at hinstances
      exact ⟨_, Bool.eq_false_iff.mpr (hinstances _ hmem)⟩

/-- **The instances of a block nested in a clean instance are clean.** -/
theorem instances (h : b.Clean values) {n : NestedBlock} (hn : n ∈ b.blocks)
    {row : Assoc Value} (hrow : .map row ∈ (getOrNull values n.name).instances) :
    n.block.Clean row := by
  obtain ⟨_, -, hblocks⟩ := h.parts
  exact (nested hblocks n hn).2 row hrow

/-- A nested block has no more instances than it may. -/
theorem length_instances_le (h : b.Clean values) {n : NestedBlock} (hn : n ∈ b.blocks)
    (hmax : 0 < n.maxItems) :
    ((getOrNull values n.name).instances.length : Int) ≤ n.maxItems := by
  obtain ⟨_, -, hblocks⟩ := h.parts
  have hcount := (nested hblocks n hn).1
  rw [NestedBlock.countViolations, Diagnostic.anyError, List.any_append,
    Bool.or_eq_false_iff] at hcount
  obtain ⟨-, htoo⟩ := hcount
  by_contra hlt
  rw [if_pos ⟨hmax, Int.not_le.mp hlt⟩] at htoo
  exact nomatch htoo

end Block.Clean

/-- Only a map is clean where something is required. -/
theorem Schema.exists_clean {schema : Schema} {sections : List Section}
    (hcovers : schema.block.covers sections = true) {config : Value}
    (hvalid : Diagnostic.anyError (schema.prepare config).2 = false) :
    ∃ root, (schema.prepare config).1 = .map root ∧ schema.block.Clean root := by
  obtain ⟨a, ha, hrequired⟩ := List.any_eq_true.mp (Bool.and_eq_true_iff.mp hcovers).1
  cases config with
  | map entries => exact ⟨_, rfl, [], hvalid⟩
  | _ =>
      have hclean : schema.block.Clean [] := ⟨[], hvalid⟩
      exact absurd rfl (hclean.ne_null_of_required ha hrequired)

end TrafficConfig
