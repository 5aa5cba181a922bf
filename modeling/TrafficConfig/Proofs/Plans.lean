import TrafficConfig.Proofs.Instances
import TrafficConfig.Proofs.Overlay
import TrafficConfig.Proofs.Sync
import TrafficConfig.Proofs.Tables

/-!
# Well-formed plans

What a plan has to be like, so that its document can be read back:

* **`Section.rootFields`** — the fields of a root: a section without a block has its own,
  a block counts as a table. **`Section.mem_rootFields`** says which these are;
* **`PlanWith`** — a plan is plain, a condition holds on all levels of its values, and no
  block has two instances. So a block is blank, or has one instance
  (**`PlanWith.block_cases`**);
* **`WellFormed`** — a plan is also named, and its values fit these fields. What equals a
  well-formed plan is well-formed (**`WellFormed.of_sameEntries`**);
* **`Regular`** — what the sections have to be like.
-/

namespace TrafficConfig

open Value ChangeSet

/-- The fields that a section has in the root: its own ones, or its block as a table of
    rows without a key. -/
def Section.rootFields (s : Section) : List Field :=
  match s.block with
  | some block => [Field.table block ⟨s.fields, none, true⟩]
  | none => s.fields

/-- The value of a block: null, as when it is missing, an empty list, or a list with one
    map. -/
def Value.IsBlock (v : Value) : Prop :=
  v = .null ∨ v = .list [] ∨ ∃ entries, v = .list [.map entries]

/-- The fields of a section in the root are its own, or a table in place of its block. -/
theorem Section.mem_rootFields {s : Section} {f : Field} :
    f ∈ s.rootFields ↔ s.block = none ∧ f ∈ s.fields ∨
      ∃ block, s.block = some block ∧ f = Field.table block ⟨s.fields, none, true⟩ := by
  rw [rootFields]
  cases s.block <;> simp

/-- The fields of a section in the root have its names there. -/
theorem Section.map_name_rootFields (s : Section) :
    s.rootFields.map (·.name) = s.rootNames := by
  rw [rootFields, rootNames]
  cases s.block <;> rfl

/-- A plan whose values meet a condition on all levels: it is plain, and its blocks have one
    instance at most. -/
structure PlanWith (p : FieldKind → Value → Prop) (sections : List Section)
    (root : Assoc Value) : Prop where
  plain : Plain (.map root)
  fields : FieldsThroughout p (sections.flatMap Section.rootFields) root
  blocks : ∀ s ∈ sections, ∀ block ∈ s.block, (getOrNull root block).IsBlock

/-- A plan that may be applied to an object with sections and a name: it is plain, its
    collections are what their fields say, blocks and rows hold no other attributes than
    those of the layout, and the rows of a table have distinct strings as keys. -/
structure WellFormed (sections : List Section) (name : String) (root : Assoc Value) :
    Prop where
  plain : Plain (.map root)
  named : getOrNull root "name" = .string name
  fits : FieldsFit (sections.flatMap Section.rootFields) root
  blocks : ∀ s ∈ sections, ∀ block ∈ s.block, (getOrNull root block).IsBlock

/-- Sections and tables of fields that can be told apart on both sides, with names without
    points and with keys that are sent; every block is replaced as a whole, and no table is
    only read. -/
structure Regular (sections : List Section) : Prop where
  names : DistinctNames sections
  addresses : DistinctAddresses sections
  remotes : (sections.map (·.remote)).Nodup
  dotless : ∀ q ∈ sections.flatMap Section.rootNames, Dotless q
  naming : ∀ s ∈ sections, checkNaming s.fields = .ok ()
  keys : ∀ s ∈ sections, keysSent s.fields = true
  blocks : ∀ s ∈ sections, s.block ≠ none → s.granularity = .section
  tables : ∀ s ∈ sections, tablesWritten s.fields = true

instance (fields : List Field) : Decidable (checkNaming fields = .ok ()) :=
  match checkNaming fields with
  | .ok () => isTrue rfl
  | .error _ => isFalse fun h => nomatch h

instance (sections : List Section) : Decidable (Regular sections) :=
  decidable_of_iff (DistinctNames sections ∧ DistinctAddresses sections ∧
      (sections.map (·.remote)).Nodup ∧
      (∀ q ∈ sections.flatMap Section.rootNames, Dotless q) ∧
      ∀ s ∈ sections, checkNaming s.fields = .ok () ∧ keysSent s.fields = true ∧
        (s.block ≠ none → s.granularity = .section) ∧ tablesWritten s.fields = true)
    ⟨fun ⟨hnames, haddresses, hremotes, hdotless, h⟩ => {
      names := hnames, addresses := haddresses, remotes := hremotes, dotless := hdotless,
      naming := fun s hs => (h s hs).1, keys := fun s hs => (h s hs).2.1,
      blocks := fun s hs => (h s hs).2.2.1, tables := fun s hs => (h s hs).2.2.2 },
      fun h => ⟨h.names, h.addresses, h.remotes, h.dotless, fun s hs =>
        ⟨h.naming s hs, h.keys s hs, h.blocks s hs, h.tables s hs⟩⟩⟩

/-- An object is called by its name. -/
theorem objectName_of_get?_name {root : Assoc Value} {name : String}
    (h : Assoc.get? root "name" = some (.string name)) :
    objectName (.map root) = (some name).filter (!·.isEmpty) := by
  have hfollow : (Value.map root).follow (Path.ofName "name") = .ok (.string name) := by
    simp only [follow, Path.ofName, followFrom, h]
  rw [objectName, getString]
  rw [hfollow]
  rfl

namespace PlanWith

variable {p q : FieldKind → Value → Prop} {sections : List Section} {root : Assoc Value}
  {s : Section}

/-- What follows from a property of planned values holds of them too. -/
theorem imp (h : PlanWith p sections root) (hpq : ∀ kind v, p kind v → q kind v) :
    PlanWith q sections root :=
  ⟨h.plain, h.fields.imp hpq, h.blocks⟩

private theorem rootField (h : PlanWith p sections root) (hs : s ∈ sections) {f : Field}
    (hf : f ∈ s.rootFields) : f.kind.Throughout p (getOrNull root f.name) :=
  fieldsThroughout_iff.mp h.fields f (List.mem_flatMap.mpr ⟨s, hs, hf⟩)

/-- A top-level attribute meets the condition. -/
theorem topLevel (h : PlanWith p sections root) (hs : s ∈ sections) (hb : s.block = none)
    {f : Field} (hf : f ∈ s.fields) : f.kind.Throughout p (getOrNull root f.name) :=
  h.rootField hs (Section.mem_rootFields.mpr (.inl ⟨hb, hf⟩))

/-- **A block is blank, or has one instance that meets the condition.** -/
theorem block_cases (h : PlanWith p sections root) (hs : s ∈ sections) {block : String}
    (hb : s.block = some block) :
    (Section.instance? root block = .ok none ∧ isBlank (getOrNull root block) = true) ∨
      ∃ entries, Section.instance? root block = .ok (some entries) ∧
        getOrNull root block = .list [.map entries] ∧
        Plain (.map entries) ∧ FieldsThroughout p s.fields entries := by
  rcases h.blocks s hs block hb with hv | hv | ⟨entries, hv⟩
  · left
    exact ⟨Section.instance?_eq_none_iff.mpr (.inl hv), by rw [hv]; rfl⟩
  · left
    exact ⟨Section.instance?_eq_none_iff.mpr (.inr (.inr (.inl hv))), by rw [hv]; rfl⟩
  · right
    have hmem : entries ∈ (getOrNull root block).rows := by
      rw [hv]
      exact List.mem_singleton.mpr rfl
    have hfield := h.rootField hs (Section.mem_rootFields.mpr (.inr ⟨block, hb, rfl⟩))
    exact ⟨entries, Section.instance?_eq_some_iff.mpr (.inr (.inl hv)), hv,
      (h.plain.getOrNull block).rows entries hmem,
      (FieldKind.throughout_table_iff.mp hfield).2 entries hmem⟩

end PlanWith

namespace WellFormed

variable {sections : List Section} {name : String} {root rs : Assoc Value}

/-- A well-formed plan has the name of its object. -/
theorem get?_name (h : WellFormed sections name root) :
    Assoc.get? root "name" = some (.string name) :=
  get?_of_getOrNull h.named (fun hn => nomatch hn)

/-- The object of a plan is called like the plan. -/
theorem objectName_eq (h : WellFormed sections name root) :
    objectName (.map root) = (some name).filter (!·.isEmpty) :=
  objectName_of_get?_name h.get?_name

/-- What equals a well-formed plan is well-formed. -/
theorem of_sameEntries (h : WellFormed sections name root) (hrs : NaNFree (.map rs))
    (hs : sameEntries equals rs root = true) : WellFormed sections name rs where
  plain := h.plain.of_equals hrs (equals_map_iff.mpr ⟨root, rfl, hs⟩)
  named := by
    have heq := equals_getOrNull hs "name"
    rw [h.named] at heq
    have hnan : NaNFree (getOrNull rs "name") :=
      everywhere_getOrNull (everywhere_map.mp hrs).2 nanFree_null "name"
    exact equals_string_iff.mp (equals_symm hnan (fun hn => nomatch hn) heq)
  fits := h.fits.of_sameEntries hrs h.plain.nanFree hs
  blocks := by
    intro s hsec block hb
    have hnan : NaNFree (getOrNull rs block) :=
      everywhere_getOrNull (everywhere_map.mp hrs).2 nanFree_null block
    have heq := equals_symm hnan (h.plain.getOrNull block).nanFree
        (equals_getOrNull hs block)
    rcases h.blocks s hsec block hb with hv | hv | ⟨entries, hv⟩
    · rw [hv] at heq
      exact .inl (equals_null_iff.mp heq)
    · rw [hv] at heq
      obtain ⟨ys, hys, hm⟩ := equals_list_iff.mp heq
      cases hm
      exact .inr (.inl hys)
    · rw [hv] at heq
      obtain ⟨ys, hys, hm⟩ := equals_list_iff.mp heq
      cases hm with
      | cons hentries hrest =>
          cases hrest
          obtain ⟨fs, rfl, -⟩ := equals_map_iff.mp hentries
          exact .inr (.inr ⟨fs, hys⟩)

/-- A well-formed plan has the kinds, the keys and the layout of its fields. -/
theorem planWith (h : WellFormed sections name root) :
    PlanWith (fun kind v => kind.Takes v ∧ kind.Keyed v ∧ kind.LaidOut v) sections root :=
  ⟨h.plain, (fieldsFit_iff_throughout _ _).mp h.fits, h.blocks⟩

end WellFormed

end TrafficConfig
