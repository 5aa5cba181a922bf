import TrafficConfig.Proofs.Filling
import TrafficConfig.Proofs.Plans

/-!
# Defaults of a plan

The defaults of a block and the layout of its instances:

* **`Block.agrees`** — the defaults of a block are scalars for scalar fields that are
  written, and the blocks nested in it are tables of the same layout. Then conditions on
  all levels stay when the defaults are filled in (**`FieldsThroughout.applyDefaults`**),
  and values that fit still do (**`FieldsFit.applyDefaults`**);
* **`Block.Saturated`** — nothing is left to be filled in, which is so after it was done
  once (**`saturated_applyDefaults`**);
* **`equals_applyDefaults`**, **`unchanged_applyDefaults`** — filling in defaults changes
  nothing where a value equals one that is saturated, and what did not change against a
  saturated plan does not change then;
* **`PlanWith.applyDefaults`**, **`WellFormed.applyDefaults`** — a plan stays what it was.
-/

namespace TrafficConfig

open Value ChangeSet

/-! ## Agreement -/

/-- A known value without parts. -/
def Value.isScalar : Value → Bool
  | .bool _ => true
  | .string _ => true
  | .number x => !decide (x = .nan)
  | _ => false

/-- The kind of a field with one value. -/
def FieldKind.isScalar : FieldKind → Bool
  | .string => true
  | .bool => true
  | .int => true
  | _ => false

mutual

/-- The defaults of a block are scalars for scalar fields that are written, and its nested
    blocks are tables among the fields. -/
def Block.agrees : Block → List Field → Bool
  | .mk _ _ attributes blocks, fields =>
    decide (fields.map (·.name)).Nodup && decide (blocks.map NestedBlock.name).Nodup &&
      (attributes.all fun a => a.default.all fun d => d.isScalar && fields.any fun f =>
        f.name == a.name && f.kind.isScalar && !f.readOnly) &&
      nestedAgree blocks fields

/-- Nested blocks are tables of the same layout. -/
def Block.nestedAgree : List NestedBlock → List Field → Bool
  | [], _ => true
  | .mk name _ _ _ block :: rest, fields =>
    (fields.any fun f => f.name == name && match f.kind with
      | .table table => agrees block table.fields
      | _ => false) && nestedAgree rest fields

end

/-- What agreement says of one level. -/
structure AgreesHere (attributes : List Attribute) (blocks : List NestedBlock)
    (fields : List Field) : Prop where
  names : (fields.map (·.name)).Nodup
  blockNames : (blocks.map NestedBlock.name).Nodup
  defaults : ∀ a ∈ attributes, ∀ d ∈ a.default, d.isScalar = true ∧ ∃ f ∈ fields,
    f.name = a.name ∧ f.kind.isScalar = true ∧ f.readOnly = false
  tables : ∀ n ∈ blocks, ∃ f ∈ fields, f.name = n.name ∧ ∃ table, f.kind = .table table ∧
    n.block.agrees table.fields = true

private theorem nestedAgree_tables {blocks : List NestedBlock} {fields : List Field}
    (h : Block.nestedAgree blocks fields = true) :
    ∀ n ∈ blocks, ∃ f ∈ fields, f.name = n.name ∧ ∃ table, f.kind = .table table ∧
      n.block.agrees table.fields = true := by
  induction blocks with
  | nil => exact fun n hn => absurd hn List.not_mem_nil
  | cons m rest ih =>
      obtain ⟨name, nesting, minItems, maxItems, block⟩ := m
      rw [Block.nestedAgree, Bool.and_eq_true, List.any_eq_true] at h
      obtain ⟨⟨f, hf, hfirst⟩, hrest⟩ := h
      rw [List.forall_mem_cons]
      refine ⟨⟨f, hf, ?_⟩, ih hrest⟩
      rw [Bool.and_eq_true, beq_iff_eq] at hfirst
      refine ⟨hfirst.1, ?_⟩
      cases hk : f.kind with
      | table table =>
          rw [hk] at hfirst
          exact ⟨table, rfl, hfirst.2⟩
      | _ => rw [hk] at hfirst; exact Bool.noConfusion hfirst.2

/-- A block that agrees with fields agrees with them at its own level. -/
theorem agreesHere {description : String} {deprecated : Bool}
    {attributes : List Attribute} {blocks : List NestedBlock} {fields : List Field}
    (h : (Block.mk description deprecated attributes blocks).agrees fields = true) :
    AgreesHere attributes blocks fields := by
  rw [Block.agrees, Bool.and_eq_true, Bool.and_eq_true, Bool.and_eq_true,
    decide_eq_true_iff, decide_eq_true_iff] at h
  obtain ⟨⟨⟨hnames, hblocks⟩, hdefaults⟩, htables⟩ := h
  refine ⟨hnames, hblocks, ?_, nestedAgree_tables htables⟩
  intro a ha d hd
  have hone := List.all_eq_true.mp hdefaults a ha
  rw [Option.mem_def.mp hd] at hone
  obtain ⟨hscalar, hfield⟩ := Bool.and_eq_true_iff.mp hone
  obtain ⟨f, hf, hmatch⟩ := List.any_eq_true.mp hfield
  rw [Bool.and_eq_true, Bool.and_eq_true, beq_iff_eq, Bool.not_eq_true'] at hmatch
  exact ⟨hscalar, f, hf, hmatch.1.1, hmatch.1.2, hmatch.2⟩

section Scalars

variable {v : Value}

/-- A scalar is not null. -/
theorem ne_null_of_isScalar (h : v.isScalar = true) : v ≠ .null := by
  rintro rfl
  exact nomatch h

/-- A scalar is not blank. -/
theorem isBlank_of_isScalar (h : v.isScalar = true) : isBlank v = false := by
  cases v <;> first | exact Bool.noConfusion h | rfl

/-- A scalar is plain. -/
theorem plain_of_isScalar (h : v.isScalar = true) : Plain v := by
  cases v with
  | bool b => exact ⟨(fun hn => nomatch hn), (fun hn => nomatch hn), fun _ hn => nomatch hn⟩
  | string s => exact ⟨(fun hn => nomatch hn), (fun hn => nomatch hn),
      fun _ hn => nomatch hn⟩
  | number x =>
      refine ⟨?_, (fun hn => nomatch hn), fun _ hn => nomatch hn⟩
      intro hn
      rw [Value.number.inj hn] at h
      exact nomatch h
  | _ => exact nomatch h

/-- A scalar is no collection. -/
theorem kindName_of_scalar (h : v.isScalar = true) :
    v.kindName ≠ "list" ∧ v.kindName ≠ "set" := by
  cases v <;> first | exact Bool.noConfusion h | simp [kindName]

/-- A scalar has no rows. -/
theorem rows_of_isScalar (h : v.isScalar = true) : v.rows = [] := by
  cases v <;> first | exact Bool.noConfusion h | rfl

/-- Every kind of field takes a scalar as it is: the condition is on collections. -/
theorem FieldKind.takes_of_isScalar (kind : FieldKind) (h : v.isScalar = true) :
    kind.Takes v := by
  have hkind := kindName_of_scalar h
  cases kind with
  | table t =>
      show v.kindName ≠ (if t.ordered then "set" else "list")
      split
      · exact hkind.2
      · exact hkind.1
  | list => exact hkind.2
  | set => exact hkind.1
  | string | bool | int => exact hkind

/-- A scalar has no rows that would need a key. -/
theorem FieldKind.keyed_of_isScalar (kind : FieldKind) (h : v.isScalar = true) :
    kind.Keyed v := by
  cases kind with
  | table t =>
      show KeyedRows t.key v.rows
      rw [rows_of_isScalar h]
      exact fun _ _ => ⟨fun _ hrow => (nomatch hrow), List.nodup_nil⟩
  | _ => trivial

/-- A scalar has no rows that would need a layout. -/
theorem FieldKind.laidOut_of_isScalar (kind : FieldKind) (h : v.isScalar = true) :
    kind.LaidOut v := by
  cases kind with
  | table t =>
      show ∀ row ∈ v.rows, _
      rw [rows_of_isScalar h]
      exact fun _ hrow => nomatch hrow
  | _ => trivial

end Scalars

/-! ## What stays as it is -/

section Stays

variable {attributes : List Attribute} {blocks : List NestedBlock} {fields : List Field}
  {q : String} {values : Assoc Value}

private theorem get?_filled_of_not_mem (h : AgreesHere attributes blocks fields)
    (hq : q ∉ fields.map (·.name)) :
    Assoc.get? (Block.applyNestedDefaults blocks (fillAll attributes values)) q =
      Assoc.get? values q := by
  rw [get?_applyNested_of_not_mem, get?_fillAll]
  · rintro a ha rfl
    left
    cases hd : a.default with
    | none => rfl
    | some d =>
        obtain ⟨-, f, hf, hname, -⟩ := h.defaults a ha d hd
        exact absurd (hname ▸ List.mem_map_of_mem hf) hq
  · rintro n hn rfl
    obtain ⟨f, hf, hname, -⟩ := h.tables n hn
    exact hq (hname ▸ List.mem_map_of_mem hf)

/-- Defaults leave a name alone that no field has. -/
theorem getOrNull_applyDefaults_of_not_mem {b : Block} (h : b.agrees fields = true)
    (hq : q ∉ fields.map (·.name)) :
    getOrNull (b.applyDefaults values) q = getOrNull values q := by
  obtain ⟨description, deprecated, attributes, blocks⟩ := b
  rw [applyDefaults_eq]
  exact getOrNull_congr (get?_filled_of_not_mem (agreesHere h) hq)

/-- No other names are added than those of fields. -/
theorem keys_applyDefaults {b : Block} (h : b.agrees fields = true)
    (hkeys : ∀ q ∈ Assoc.keys values, q ∈ fields.map (·.name)) :
    ∀ q ∈ Assoc.keys (b.applyDefaults values), q ∈ fields.map (·.name) := by
  obtain ⟨description, deprecated, attributes, blocks⟩ := b
  intro q hq
  by_contra hmem
  rw [← Assoc.get?_isSome, applyDefaults_eq, get?_filled_of_not_mem (agreesHere h) hmem,
    Assoc.get?_isSome] at hq
  exact hmem (hkeys q hq)

private theorem getOrNull_applyNested_cases (hn : (blocks.map NestedBlock.name).Nodup)
    (values : Assoc Value) (q : String) :
    ((∀ n ∈ blocks, n.name ≠ q) ∧
      getOrNull (Block.applyNestedDefaults blocks values) q = getOrNull values q) ∨
      ∃ n ∈ blocks, n.name = q ∧
        getOrNull (Block.applyNestedDefaults blocks values) q =
          (getOrNull values q).mapInstances n.block.applyDefaults := by
  by_cases hq : ∃ n ∈ blocks, n.name = q
  · obtain ⟨n, hmem, rfl⟩ := hq
    exact .inr ⟨n, hmem, rfl, getOrNull_applyNested hn hmem⟩
  · left
    have hnone : ∀ n ∈ blocks, n.name ≠ q := fun n hmem hname => hq ⟨n, hmem, hname⟩
    exact ⟨hnone, getOrNull_congr (get?_applyNested_of_not_mem hnone)⟩

/-- A string stays as it is. -/
theorem getOrNull_applyDefaults_of_string {b : Block} (h : b.agrees fields = true)
    {s : String} (hs : getOrNull values q = .string s) :
    getOrNull (b.applyDefaults values) q = .string s := by
  obtain ⟨description, deprecated, attributes, blocks⟩ := b
  rw [applyDefaults_eq]
  have hfilled : getOrNull (fillAll attributes values) q = .string s := by
    rw [← hs]
    refine getOrNull_congr (get?_fillAll fun _ _ _ => .inr ?_)
    rw [hs]
    intro hn
    exact nomatch hn
  rcases getOrNull_applyNested_cases (agreesHere h).blockNames (fillAll attributes values) q
      with ⟨-, heq⟩ | ⟨n, -, -, heq⟩
  · rw [heq, hfilled]
  · rw [heq, hfilled]
    rfl

/-- What is blank with the defaults was so without them: a default is not blank. -/
theorem getOrNull_applyDefaults_of_isBlank {b : Block} (h : b.agrees fields = true)
    (hblank : isBlank (getOrNull (b.applyDefaults values) q) = true) :
    getOrNull (b.applyDefaults values) q = getOrNull values q := by
  obtain ⟨description, deprecated, attributes, blocks⟩ := b
  have hhere := agreesHere h
  rw [applyDefaults_eq] at hblank ⊢
  have hfilled : isBlank (getOrNull (fillAll attributes values) q) = true →
      getOrNull (fillAll attributes values) q = getOrNull values q := by
    intro hblank
    rcases getOrNull_fillAll attributes values q with heq | ⟨-, a, ha, -, hd⟩
    · exact heq
    · rw [isBlank_of_isScalar (hhere.defaults a ha _ hd).1] at hblank
      exact Bool.noConfusion hblank
  rcases getOrNull_applyNested_cases hhere.blockNames (fillAll attributes values) q
      with ⟨-, heq⟩ | ⟨n, -, -, heq⟩
  · rw [heq] at hblank ⊢
    exact hfilled hblank
  · rw [heq, isBlank_mapInstances] at hblank
    rw [heq, mapInstances_of_isBlank _ hblank, hfilled hblank]

/-- Defaults keep the key of a row. -/
theorem keyOf_applyDefaults {b : Block} (h : b.agrees fields = true) {key : String}
    (hk : (keyOf key values).isSome = true) :
    keyOf key (b.applyDefaults values) = keyOf key values := by
  obtain ⟨id, hid⟩ := Option.isSome_iff_exists.mp hk
  obtain ⟨v, hv, hstring⟩ := Option.bind_eq_some_iff.mp hid
  cases v with
  | string s =>
      have hafter := getOrNull_applyDefaults_of_string h (getOrNull_of_get? hv)
      simp only [keyOf]
      rw [get?_of_getOrNull hafter (fun hn => Value.noConfusion hn), hv]
  | _ => cases hstring

end Stays

/-! ## Plain and fitting values -/

/-- Values stay plain. -/
theorem plain_applyDefaults {b : Block} {fields : List Field} (h : b.agrees fields = true)
    {values : Assoc Value} (hv : Plain (.map values)) :
    Plain (.map (b.applyDefaults values)) := by
  induction b using Block.induction generalizing fields values with
  | mk description deprecated attributes blocks ih =>
      have hagrees := agreesHere h
      rw [applyDefaults_eq]
      refine plain_applyNested ?_ (plain_fillAll ?_ hv)
      · intro n hn es hes
        obtain ⟨-, -, -, table, -, htable⟩ := hagrees.tables n hn
        exact ih n hn htable hes
      · intro a ha d hd
        exact plain_of_isScalar (hagrees.defaults a ha d hd).1

/-- **A condition on all levels stays when the defaults are filled in**, if scalars meet it
    and tables keep it. -/
theorem FieldsThroughout.applyDefaults {p : FieldKind → Value → Prop}
    (hscalar : ∀ kind v, v.isScalar = true → p kind v)
    (htable : ∀ (n : Block) (t : Table) v, n.agrees t.fields = true → p (.table t) v →
      p (.table t) (v.mapInstances n.applyDefaults))
    {b : Block} {fields : List Field} (h : b.agrees fields = true) {values : Assoc Value}
    (hv : FieldsThroughout p fields values) :
    FieldsThroughout p fields (b.applyDefaults values) := by
  induction b using Block.induction generalizing fields values with
  | mk description deprecated attributes blocks ih =>
      have hagrees := agreesHere h
      rw [applyDefaults_eq]
      rw [fieldsThroughout_iff] at hv ⊢
      intro f hf
      have hfilled :
          f.kind.Throughout p (getOrNull (fillAll attributes values) f.name) := by
        rcases getOrNull_fillAll attributes values f.name with heq | ⟨-, a, ha, -, hd⟩
        · rw [heq]
          exact hv f hf
        · have hdefault := (hagrees.defaults a ha _ hd).1
          cases hkind : f.kind with
          | table t =>
              refine FieldKind.throughout_table_iff.mpr ⟨hscalar _ _ hdefault, ?_⟩
              rw [rows_of_isScalar hdefault]
              exact fun _ hrow => nomatch hrow
          | string | bool | int | list | set => exact hscalar _ _ hdefault
      rcases getOrNull_applyNested_cases hagrees.blockNames
          (fillAll attributes values) f.name with ⟨-, heq⟩ | ⟨n, hn, hname, heq⟩
      · rw [heq]
        exact hfilled
      · -- a nested block changes the rows of its table one by one
        obtain ⟨g, hg, hgname, table, hkind, hnested⟩ := hagrees.tables n hn
        obtain rfl : g = f :=
          List.inj_on_of_nodup_map hagrees.names hg hf (hgname.trans hname)
        rw [heq, hkind]
        rw [hkind] at hfilled
        obtain ⟨hhere, hrows⟩ := FieldKind.throughout_table_iff.mp hfilled
        refine FieldKind.throughout_table_iff.mpr ⟨htable n.block table _ hnested hhere, ?_⟩
        rw [rows_mapInstances]
        intro row hrow
        obtain ⟨before, hbefore, rfl⟩ := List.mem_map.mp hrow
        exact ih n hn hnested (hrows before hbefore)

section Tables

variable {b : Block} {table : Table} {v : Value} (hb : b.agrees table.fields = true)

/-- A table takes a value whose instances were changed. -/
theorem FieldKind.Takes.mapInstances {change : Assoc Value → Assoc Value}
    (h : (FieldKind.table table).Takes v) :
    (FieldKind.table table).Takes (v.mapInstances change) := by
  show (v.mapInstances change).kindName ≠ _
  rw [kindName_mapInstances]
  exact h

include hb

/-- Rows keep their keys when they are completed. -/
theorem FieldKind.Keyed.applyDefaults (h : (FieldKind.table table).Keyed v) :
    (FieldKind.table table).Keyed (v.mapInstances b.applyDefaults) := by
  show KeyedRows table.key (v.mapInstances b.applyDefaults).rows
  rw [rows_mapInstances]
  intro key hkey
  obtain ⟨hsome, hnodup⟩ := h key hkey
  have hkeep : ∀ row ∈ v.rows, keyOf key (b.applyDefaults row) = keyOf key row :=
    fun row hrow => keyOf_applyDefaults hb (hsome row hrow)
  constructor
  · intro row hrow
    obtain ⟨before, hbefore, rfl⟩ := List.mem_map.mp hrow
    rw [hkeep before hbefore]
    exact hsome before hbefore
  · have hkeys : v.rows.map (keyOf key ∘ b.applyDefaults) = v.rows.map (keyOf key) :=
      List.map_congr_left hkeep
    rw [List.map_map, hkeys]
    exact hnodup

/-- Rows keep their layout when they are completed. -/
theorem FieldKind.LaidOut.applyDefaults (h : (FieldKind.table table).LaidOut v) :
    (FieldKind.table table).LaidOut (v.mapInstances b.applyDefaults) := by
  show ∀ row ∈ (v.mapInstances b.applyDefaults).rows, _
  rw [rows_mapInstances]
  intro row hrow
  obtain ⟨before, hbefore, rfl⟩ := List.mem_map.mp hrow
  exact keys_applyDefaults hb (h before hbefore)

end Tables

/-- **Values that fit still do when the defaults were filled in.** -/
theorem FieldsFit.applyDefaults {b : Block} {fields : List Field}
    (h : b.agrees fields = true) {values : Assoc Value} (hv : FieldsFit fields values) :
    FieldsFit fields (b.applyDefaults values) := by
  rw [fieldsFit_iff_throughout] at hv ⊢
  refine hv.applyDefaults ?_ ?_ h
  · intro kind v hscalar
    exact ⟨kind.takes_of_isScalar hscalar, kind.keyed_of_isScalar hscalar,
      kind.laidOut_of_isScalar hscalar⟩
  · intro n t v hn hall
    exact ⟨hall.1.mapInstances, hall.2.1.applyDefaults hn, hall.2.2.applyDefaults hn⟩

/-! ## Saturation -/

mutual

/-- No default is left to be filled in, neither in the values nor in the instances of
    nested blocks. -/
def Block.Saturated : Block → Assoc Value → Prop
  | .mk _ _ attributes blocks, values =>
    (∀ a ∈ attributes, a.default ≠ none → getOrNull values a.name ≠ .null) ∧
      NestedSaturated blocks values

/-- No default is left to be filled in inside the instances of nested blocks. -/
def Block.NestedSaturated : List NestedBlock → Assoc Value → Prop
  | [], _ => True
  | .mk name _ _ _ block :: rest, values =>
    (∀ row, .map row ∈ (getOrNull values name).instances → Saturated block row) ∧
      NestedSaturated rest values

end

/-- Nested blocks are saturated when each instance of each of them is. -/
theorem nestedSaturated_iff {blocks : List NestedBlock} {values : Assoc Value} :
    Block.NestedSaturated blocks values ↔
      ∀ n ∈ blocks, ∀ row, .map row ∈ (getOrNull values n.name).instances →
        n.block.Saturated row := by
  induction blocks with
  | nil => simp [Block.NestedSaturated]
  | cons n rest ih =>
      obtain ⟨name, nesting, minItems, maxItems, block⟩ := n
      rw [Block.NestedSaturated, ih, List.forall_mem_cons]
      rfl

/-- A block is saturated when its defaults are set and its nested blocks are saturated. -/
theorem saturated_iff {description : String} {deprecated : Bool}
    {attributes : List Attribute} {blocks : List NestedBlock} {values : Assoc Value} :
    (Block.mk description deprecated attributes blocks).Saturated values ↔
      (∀ a ∈ attributes, a.default ≠ none → getOrNull values a.name ≠ .null) ∧
        ∀ n ∈ blocks, ∀ row, .map row ∈ (getOrNull values n.name).instances →
          n.block.Saturated row := by
  rw [Block.Saturated, nestedSaturated_iff]

/-- **After defaults were filled in, none is left.** -/
theorem saturated_applyDefaults {b : Block} {fields : List Field}
    (h : b.agrees fields = true) (values : Assoc Value) :
    b.Saturated (b.applyDefaults values) := by
  induction b using Block.induction generalizing fields values with
  | mk description deprecated attributes blocks ih =>
      have hagrees := agreesHere h
      have hnull : ∀ a ∈ attributes, a.default ≠ some .null := by
        intro a ha hd
        exact ne_null_of_isScalar (hagrees.defaults a ha .null hd).1 rfl
      rw [applyDefaults_eq, saturated_iff]
      constructor
      · intro a ha hd
        have hset : getOrNull (fillAll attributes values) a.name ≠ .null :=
          getOrNull_fillAll_ne_null hnull ha hd
        rcases getOrNull_applyNested_cases hagrees.blockNames
            (fillAll attributes values) a.name with ⟨-, heq⟩ | ⟨n, -, -, heq⟩
        · rw [heq]
          exact hset
        · rw [heq, ne_eq, mapInstances_eq_null_iff]
          exact hset
      · intro n hn row hrow
        rw [getOrNull_applyNested hagrees.blockNames hn] at hrow
        obtain ⟨before, -, rfl⟩ := mem_instances_mapInstances hrow
        obtain ⟨-, -, -, table, -, htable⟩ := hagrees.tables n hn
        exact ih n hn htable before

/-- What equals saturated values is saturated. -/
theorem Block.Saturated.of_sameEntries {b : Block} {rs values : Assoc Value}
    (h : b.Saturated values) (hrs : NaNFree (.map rs)) (hvalues : NaNFree (.map values))
    (hs : sameEntries equals rs values = true) : b.Saturated rs := by
  induction b using Block.induction generalizing rs values with
  | mk description deprecated attributes blocks ih =>
      rw [saturated_iff] at h ⊢
      have hnan : ∀ {es : Assoc Value}, NaNFree (.map es) → ∀ q,
          NaNFree (getOrNull es q) := by
        intro es hes q
        exact everywhere_getOrNull (everywhere_map.mp hes).2 nanFree_null q
      constructor
      · intro a ha hd hnull
        have heq := equals_getOrNull hs a.name
        rw [hnull] at heq
        exact h.1 a ha hd (equals_null_iff.mp heq)
      · intro n hn row hrow
        obtain ⟨fs, hfs, hsame⟩ := exists_equal_instance (hnan hrs n.name)
            (hnan hvalues n.name) (equals_getOrNull hs n.name) hrow
        exact ih n hn (h.2 n hn fs hfs) (everywhere_instances (hnan hrs n.name) hrow)
          (everywhere_instances (hnan hvalues n.name) hfs) hsame

/-! ## Filling in what is there already -/

private theorem rel_map {r : Value → Value → Prop} {change : Value → Value}
    {v? w? : Option Value} (h : Option.Rel r v? w?)
    (hchange : ∀ v ∈ v?, ∀ w ∈ w?, r v w → r v (change w)) :
    Option.Rel r v? (w?.map change) := by
  cases h with
  | none => exact .none
  | some hvw => exact .some (hchange _ rfl _ rfl hvw)

private theorem get?_fillAll_of_sameEntries {attributes : List Attribute}
    {es fs : Assoc Value}
    (hset : ∀ a ∈ attributes, a.default ≠ none → getOrNull es a.name ≠ .null)
    (hs : sameEntries equals es fs = true) (q : String) :
    Assoc.get? (fillAll attributes fs) q = Assoc.get? fs q := by
  refine get?_fillAll ?_
  intro a ha hname
  by_cases hd : a.default = none
  · exact .inl hd
  · right
    intro hnull
    subst hname
    have heq := equals_getOrNull hs a.name
    rw [hnull] at heq
    exact hset a ha hd (eq_null_of_equals heq)

/-- **A value that equals another one whose instances are saturated equals it also with
    its own defaults.** -/
theorem equals_applyDefaults {b : Block} {fields : List Field}
    (h : b.agrees fields = true) {v w : Value} (hv : Plain v) (hw : Plain w)
    (hsat : ∀ row, .map row ∈ v.instances → b.Saturated row) (heq : v.equals w = true) :
    v.equals (w.mapInstances b.applyDefaults) = true := by
  induction b using Block.induction generalizing fields v w with
  | mk description deprecated attributes blocks ih =>
      have hagrees := agreesHere h
      have hplain : ∀ entries, Plain (.map entries) →
          Plain (.map ((Block.mk description deprecated attributes blocks).applyDefaults
            entries)) :=
        fun _ hentries => plain_applyDefaults h hentries
      refine equals_mapInstances hv.nanFree hw.nanFree
        (plain_mapInstances hplain hw).nanFree heq ?_
      intro es fs hes hfs hs
      have hesPlain := plain_instances hv hes
      have hfsPlain := plain_instances hw hfs
      obtain ⟨hset, hnested⟩ := saturated_iff.mp (hsat es hes)
      refine sameEntries_of_get?_rel hesPlain.sorted (hplain fs hfsPlain).sorted ?_
      intro q
      rw [applyDefaults_eq]
      have hfilled : Assoc.get? (fillAll attributes fs) q = Assoc.get? fs q :=
        get?_fillAll_of_sameEntries hset hs q
      have hrel := get?_rel_of_sameEntries hs q
      by_cases hq : ∃ n ∈ blocks, n.name = q
      · obtain ⟨n, hn, rfl⟩ := hq
        obtain ⟨-, -, -, table, -, htable⟩ := hagrees.tables n hn
        rw [get?_applyNested hagrees.blockNames hn, hfilled]
        refine rel_map hrel ?_
        intro v hv w hw heq
        refine ih n hn htable ((plain_map_iff.mp hesPlain).2 _ (Assoc.mem_of_get? hv))
          ((plain_map_iff.mp hfsPlain).2 _ (Assoc.mem_of_get? hw))
            (fun row hrow => hnested n hn row ?_) heq
        rw [getOrNull_of_get? hv]
        exact hrow
      · rw [get?_applyNested_of_not_mem fun n hn hname => hq ⟨n, hn, hname⟩, hfilled]
        exact hrel

/-- The value of a scalar field is no collection. -/
theorem kindName_of_isScalar {kind : FieldKind} {v : Value}
    (hkind : kind.isScalar = true) (hfits : kind.Fits v) :
    v.kindName ≠ "list" ∧ v.kindName ≠ "set" := by
  cases kind with
  | string => exact hfits
  | bool => exact hfits
  | int => exact hfits
  | _ => exact Bool.noConfusion hkind

private theorem getOrNull_fillAll_of_unchanged {attributes : List Attribute}
    {blocks : List NestedBlock} {fields : List Field}
    (hagrees : AgreesHere attributes blocks fields) {p values : Assoc Value}
    (hfits : FieldsFit fields p)
    (hset : ∀ a ∈ attributes, a.default ≠ none → getOrNull p a.name ≠ .null) {q : String}
    (hq : Unchanged (getOrNull p q) (getOrNull values q)) :
    getOrNull (fillAll attributes values) q = getOrNull values q := by
  -- a scalar that is set is not blank, so it has to be set afterwards too
  refine getOrNull_congr (get?_fillAll ?_)
  intro a ha hname
  cases hd : a.default with
  | none => exact .inl rfl
  | some d =>
      right
      intro hnull
      obtain ⟨-, f, hf, hfname, hkind, -⟩ := hagrees.defaults a ha d hd
      have hpset : getOrNull p q ≠ .null :=
        hname ▸ hset a ha (by rw [hd]; exact Option.some_ne_none d)
      have hkinds := kindName_of_isScalar hkind (fieldsFit_iff.mp hfits f hf)
      rw [hfname, hname] at hkinds
      rw [hnull] at hq
      rcases hq with heq | ⟨hblank, -⟩
      · exact hpset (eq_null_of_equals heq)
      · cases hv : getOrNull p q with
        | null => exact hpset hv
        | list items => rw [hv] at hkinds; exact hkinds.1 rfl
        | set items => rw [hv] at hkinds; exact hkinds.2 rfl
        | _ => rw [hv] at hblank; exact Bool.noConfusion hblank

/-- **What did not change does not change when defaults are filled in**, if there are none
    left to be filled in on one side. -/
theorem unchanged_applyDefaults {b : Block} {fields : List Field}
    (h : b.agrees fields = true) {p values : Assoc Value} (hp : Plain (.map p))
    (hvalues : Plain (.map values)) (hsat : b.Saturated p) (hfits : FieldsFit fields p)
    {q : String} (hq : Unchanged (getOrNull p q) (getOrNull values q)) :
    Unchanged (getOrNull p q) (getOrNull (b.applyDefaults values) q) := by
  obtain ⟨description, deprecated, attributes, blocks⟩ := b
  have hagrees := agreesHere h
  obtain ⟨hset, hnested⟩ := saturated_iff.mp hsat
  rw [applyDefaults_eq]
  have hfilled := getOrNull_fillAll_of_unchanged hagrees hfits hset hq
  rcases getOrNull_applyNested_cases hagrees.blockNames (fillAll attributes values) q
      with ⟨-, heq⟩ | ⟨n, hn, rfl, heq⟩
  · rw [heq, hfilled]
    exact hq
  · rw [heq, hfilled]
    obtain ⟨-, -, -, table, -, htable⟩ := hagrees.tables n hn
    rcases hq with heq | ⟨hbefore, hafter⟩
    · exact .inl (equals_applyDefaults htable (hp.getOrNull n.name)
        (hvalues.getOrNull n.name) (hnested n hn) heq)
    · right
      rw [isBlank_mapInstances]
      exact ⟨hbefore, hafter⟩

/-! ## Plans -/

/-- A block whose instances were changed is a block. -/
theorem Value.IsBlock.mapInstances {v : Value} (h : v.IsBlock)
    (change : Assoc Value → Assoc Value) : (v.mapInstances change).IsBlock := by
  rcases h with rfl | rfl | ⟨entries, rfl⟩
  · exact .inl rfl
  · exact .inr (.inl rfl)
  · exact .inr (.inr ⟨change entries, rfl⟩)

private theorem getOrNull_fillAll_of_table {attributes : List Attribute}
    {blocks : List NestedBlock} {fields : List Field}
    (hagrees : AgreesHere attributes blocks fields) {f : Field} (hf : f ∈ fields)
    {table : Table} (hkind : f.kind = .table table) (values : Assoc Value) :
    getOrNull (fillAll attributes values) f.name = getOrNull values f.name := by
  refine getOrNull_congr (get?_fillAll fun a ha hname => .inl ?_)
  cases hd : a.default with
  | none => rfl
  | some d =>
      obtain ⟨-, g, hg, hgname, hscalar, -⟩ := hagrees.defaults a ha d hd
      obtain rfl := List.inj_on_of_nodup_map hagrees.names hg hf (hgname.trans hname)
      rw [hkind] at hscalar
      exact Bool.noConfusion hscalar

/-- A block stays a block when the defaults of the root are filled in. -/
theorem Value.IsBlock.applyDefaults {sections : List Section} {root : Assoc Value}
    {b : Block} (h : b.agrees (sections.flatMap Section.rootFields) = true) {s : Section}
    (hs : s ∈ sections) {block : String} (hb : s.block = some block)
    (hblock : (getOrNull root block).IsBlock) :
    (getOrNull (b.applyDefaults root) block).IsBlock := by
  obtain ⟨description, deprecated, attributes, blocks⟩ := b
  have hagrees := agreesHere h
  have hfield : Field.table block ⟨s.fields, none, true⟩ ∈ sections.flatMap
      Section.rootFields :=
    List.mem_flatMap.mpr ⟨s, hs, Section.mem_rootFields.mpr (.inr ⟨block, hb, rfl⟩)⟩
  rw [applyDefaults_eq]
  have hfilled : getOrNull (fillAll attributes root) block = getOrNull root block :=
    getOrNull_fillAll_of_table hagrees hfield rfl root
  rcases getOrNull_applyNested_cases hagrees.blockNames (fillAll attributes root) block
      with ⟨-, heq⟩ | ⟨n, -, -, heq⟩
  · rw [heq, hfilled]
    exact hblock
  · rw [heq, hfilled]
    exact hblock.mapInstances n.block.applyDefaults

/-- A plan meets its condition when its defaults are filled in, if scalars meet it and tables
    keep it. -/
theorem PlanWith.applyDefaults {p : FieldKind → Value → Prop}
    (hscalar : ∀ kind v, v.isScalar = true → p kind v)
    (htable : ∀ (n : Block) (t : Table) v, n.agrees t.fields = true → p (.table t) v →
      p (.table t) (v.mapInstances n.applyDefaults))
    {sections : List Section} {root : Assoc Value} {b : Block}
    (hagrees : b.agrees (sections.flatMap Section.rootFields) = true)
    (h : PlanWith p sections root) : PlanWith p sections (b.applyDefaults root) where
  plain := plain_applyDefaults hagrees h.plain
  fields := h.fields.applyDefaults hscalar htable hagrees
  blocks := fun s hs block hb => (h.blocks s hs block hb).applyDefaults hagrees hs hb

/-- A plan stays well-formed when its defaults are filled in. -/
theorem WellFormed.applyDefaults {sections : List Section} {name : String}
    {root : Assoc Value} {b : Block}
    (h : b.agrees (sections.flatMap Section.rootFields) = true)
    (hwf : WellFormed sections name root) :
    WellFormed sections name (b.applyDefaults root) where
  plain := plain_applyDefaults h hwf.plain
  named := getOrNull_applyDefaults_of_string h hwf.named
  fits := hwf.fits.applyDefaults h
  blocks := fun s hs block hb => (hwf.blocks s hs block hb).applyDefaults h hs hb

end TrafficConfig
