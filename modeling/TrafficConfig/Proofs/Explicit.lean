import TrafficConfig.Proofs.Defaults
import TrafficConfig.Proofs.Refresh

/-!
# Explicit plans

A state that was read of the document of a plan holds the plan with its defaults, as far as
the fields know it. So it differs from the plan itself where a default was filled in, and
where the plan holds more than its fields know:

* **`Explicit`** — a plan leaves nothing out that has a default, and its tables and blocks
  hold attributes of their fields only, where anything is sent of them;
* **`FieldKind.laidOut_known`**, **`Block.Saturated.knownRow`** — what fields know is laid
  out, and no default is lost with the rest;
* **`heldIn_isEmpty_iff`** — the document of a create has a section if and only if
  something is sent of it;
* **`ReadOver.unchanged_iff_explicit`** — the state differs from the plan in no field that
  is written if and only if the plan is explicit.
-/

namespace TrafficConfig

open Value ChangeSet

/-- A create sends something of a section. -/
def Section.Sends (s : Section) (root : Assoc Value) : Prop := ∃ f ∈ s.fields, s.Creates root f

/-- A plan says itself what is read of its document: it leaves no default to be filled in,
    and what is sent as a table or a block holds no attributes that no field knows. -/
structure Explicit (b : Block) (sections : List Section) (root : Assoc Value) : Prop where
  saturated : b.Saturated root
  laidOut : ∀ s ∈ sections, s.Sends (b.applyDefaults root) →
    FieldsThroughout FieldKind.LaidOut s.rootFields root

/-! ## What fields know -/

section LaidOut

variable {kind : FieldKind} {v : Value}

/-- A value without rows has nothing to lay out. -/
theorem FieldKind.laidOut_of_isBlank (h : isBlank v = true) :
    kind.Throughout FieldKind.LaidOut v := by
  have hrows : v.rows = [] := by
    rcases isBlank_iff.mp h with rfl | rfl | rfl <;> rfl
  cases kind with
  | table t =>
      refine FieldKind.throughout_table_iff.mpr ⟨?_, ?_⟩
      · show ∀ row ∈ v.rows, _
        rw [hrows]
        exact fun _ hrow => nomatch hrow
      · rw [hrows]
        exact fun _ hrow => nomatch hrow
  | string | bool | int | list | set => trivial

/-- Only tables are laid out. -/
theorem FieldKind.laidOut_of_not_isTable (h : kind.isTable = false) :
    kind.Throughout FieldKind.LaidOut v := by
  cases kind with
  | table t => exact Bool.noConfusion h
  | string | bool | int | list | set => trivial

/-- **What fields know of a value is laid out on all levels.** -/
theorem FieldKind.laidOut_known {name : String} (hnaming : kind.checkNaming name = .ok ())
    (hwritten : kind.tablesWritten = true) :
    kind.Throughout FieldKind.LaidOut (kind.known v) := by
  induction kind using FieldKind.induction generalizing name v with
  | table t ih =>
      have hfields := checkNaming_table hnaming
      have hnames := checkNaming_names hfields
      rw [FieldKind.tablesWritten_table] at hwritten
      have hbelow := tablesWritten_iff.mp hwritten
      rw [FieldKind.known_table]
      refine FieldKind.throughout_table_iff.mpr ⟨?_, ?_⟩
      · show ∀ row ∈ (v.mapRows (knownRow t.fields)).rows, _
        rw [rows_mapRows]
        intro row hrow q hq
        obtain ⟨before, -, rfl⟩ := List.mem_map.mp hrow
        by_contra hnone
        rw [← Assoc.get?_isSome, get?_knownRow_of_not_mem hnone] at hq
        exact nomatch hq
      · rw [rows_mapRows]
        intro row hrow
        obtain ⟨before, -, rfl⟩ := List.mem_map.mp hrow
        refine fieldsThroughout_iff.mpr fun f hf => ?_
        rw [getOrNull_knownRow hnames hf]
        cases hread : f.readOnly with
        | true => exact FieldKind.laidOut_of_not_isTable ((hbelow f hf).1 hread)
        | false =>
            rw [Field.known_of_writable hread]
            exact ih f hf (checkNaming_kinds hfields f hf) (hbelow f hf).2
  | string | bool | int | list | set => trivial

end LaidOut

/-- A field with one value knows it. -/
theorem Field.known_of_isScalar {f : Field} (h : f.kind.isScalar = true) (v : Value) :
    f.known v = v := by
  refine Field.known_eq_of_kind ?_
  cases hkind : f.kind with
  | table t => rw [hkind] at h; exact Bool.noConfusion h
  | string | bool | int | list | set => rfl

private theorem saturated_known_of {n : Block} {t : Table}
    (hknown : ∀ row, n.Saturated row → n.Saturated (knownRow t.fields row)) {v : Value}
    (h : ∀ row, .map row ∈ v.instances → n.Saturated row) :
    ∀ row, .map row ∈ ((FieldKind.table t).known v).instances → n.Saturated row := by
  intro row hrow
  rw [FieldKind.known_table] at hrow
  rcases mem_instances_mapRows hrow with hrow | ⟨before, hbefore, rfl⟩
  · exact h row hrow
  · exact hknown before (h before hbefore)

/-- **No default is lost with what fields do not know.** -/
theorem Block.Saturated.knownRow {b : Block} {fields : List Field}
    (hagrees : b.agrees fields = true) {row : Assoc Value} (h : b.Saturated row) :
    b.Saturated (knownRow fields row) := by
  induction b using Block.induction generalizing fields row with
  | mk description deprecated attributes blocks ih =>
      have hhere := agreesHere hagrees
      rw [saturated_iff] at h ⊢
      constructor
      · intro a ha hd
        obtain ⟨d, hdefault⟩ := Option.ne_none_iff_exists'.mp hd
        obtain ⟨-, f, hf, hname, hscalar, -⟩ := hhere.defaults a ha d hdefault
        rw [← hname, getOrNull_knownRow hhere.names hf, Field.known_of_isScalar hscalar, hname]
        exact h.1 a ha hd
      · intro n hn
        obtain ⟨f, hf, hname, t, hkind, htable⟩ := hhere.tables n hn
        rw [← hname, getOrNull_knownRow hhere.names hf]
        have hbefore := h.2 n hn
        rw [← hname] at hbefore
        cases hread : f.readOnly with
        | true => rwa [Field.known_of_readOnly hread]
        | false =>
            rw [Field.known_of_writable hread, hkind]
            exact saturated_known_of (fun row hrow => ih n hn htable hrow) hbefore

/-! ## What a document holds -/

/-- **The document of a create has nothing under a section of which nothing was sent.** -/
theorem heldIn_isEmpty_iff {sections : List Section} {root : Assoc Value}
    {sent : Assoc Json} (hremotes : (sections.map (·.remote)).Nodup)
    (h : Carries (fun s => s.Creates root) root sections sent) {s : Section}
    (hs : s ∈ sections) :
    (s.heldIn (mergeDocument emptyDocument (propertiesDocument sent))).isEmpty = true ↔
      ¬ s.Sends root := by
  have hget : ∀ field,
      Assoc.get? (s.heldIn (mergeDocument emptyDocument (propertiesDocument sent))) field =
        fieldIn? sent s.remote field := by
    intro field
    rw [get?_heldIn, heldField?_mergeDocument_empty h.sendable]
  generalize s.heldIn (mergeDocument emptyDocument (propertiesDocument sent)) = held at hget ⊢
  constructor
  · rintro hempty ⟨f, hf, hcreates⟩
    have hsome := h.complete s hs f hf hcreates
    rw [← hget, List.isEmpty_iff.mp hempty] at hsome
    exact nomatch hsome
  · intro hnone
    cases held with
    | nil => rfl
    | cons e rest =>
        -- whatever is held was sent of this section, since no other has its name
        have hfirst : fieldIn? sent s.remote e.1 = some e.2 := by
          rw [← hget, Assoc.get?_cons, if_pos rfl]
        obtain ⟨t, ht, f, hf, hremote, -, hcreates, -⟩ := h.written hfirst
        obtain rfl := List.inj_on_of_nodup_map hremotes ht hs hremote
        exact absurd ⟨f, hf, hcreates⟩ hnone

/-! ## What a state tells -/

/-- The value under a name equals what it is read as. -/
theorem ReadsAs.getOrNull {state : Assoc Value} {q : String} {w? : Option Value}
    (h : ReadsAs (Assoc.get? state q) w?) :
    (Value.getOrNull state q).equals (w?.getD .null) = true ∧
      NaNFree (Value.getOrNull state q) := by
  obtain ⟨hequal, hnan⟩ := h
  rw [Value.getOrNull]
  generalize Assoc.get? state q = v? at hequal hnan
  cases hequal with
  | none => exact ⟨equals_refl nanFree_null, nanFree_null⟩
  | some hvw => exact ⟨hvw, hnan _ rfl⟩

section Told

variable {sections : List Section} {name : String} {document : Json}
  {root state : Assoc Value} {s : Section} {f : Field}
  (h : ReadOver sections name document root state) (hs : s ∈ sections)
include h hs

private theorem ReadOver.equals_topLevel (hb : s.block = none) (hf : f ∈ s.fields) :
    (getOrNull state f.name).equals (f.known (getOrNull root f.name)) = true ∧
      NaNFree (getOrNull state f.name) := by
  have hread := (h.topLevel s hs hb f hf).getOrNull
  have hknown : ((Assoc.get? root f.name).map f.known).getD .null =
      f.known (getOrNull root f.name) := by
    rw [getOrNull]
    cases Assoc.get? root f.name with
    | none => exact (Field.known_eq_of_kind (f.kind.known_of_isBlank rfl)).symm
    | some v => rfl
  rwa [hknown] at hread

/-- **A state tells what the fields of a section know**, if the document has the section. -/
theorem ReadOver.equals_known (hf : f ∈ s.rootFields) (hplain : Plain (.map root))
    (hheld : (s.heldIn document).isEmpty = false) :
    (getOrNull state f.name).equals (f.known (getOrNull root f.name)) = true ∧
      NaNFree (getOrNull state f.name) := by
  rcases Section.mem_rootFields.mp hf with ⟨hb, hf⟩ | ⟨block, hb, rfl⟩
  · exact h.equals_topLevel hs hb hf
  · rw [Field.known_of_writable rfl]
    show (getOrNull state block).equals ((FieldKind.table ⟨s.fields, none, true⟩).known
      (getOrNull root block)) = true ∧ NaNFree (getOrNull state block)
    rcases h.blocks s hs block hb with ⟨hkept, hblank | hempty⟩ | ⟨entries, hvalue, -, hread⟩
    · rw [FieldKind.known_of_isBlank _ hblank, getOrNull_congr hkept]
      have hnan := (hplain.getOrNull block).nanFree
      exact ⟨equals_refl hnan, hnan⟩
    · exact Bool.noConfusion (hheld.symm.trans hempty)
    · rw [hvalue]
      exact hread.getOrNull

/-- **A state tells the root again**, if nothing was sent of a section. -/
theorem ReadOver.equals_unsent (hf : f ∈ s.rootFields) (hwritten : f.readOnly = false)
    (hplain : Plain (.map root)) (hheld : (s.heldIn document).isEmpty = true)
    (hunsent : ¬ s.Sends root) :
    (getOrNull state f.name).equals (getOrNull root f.name) = true ∧
      NaNFree (getOrNull state f.name) := by
  rcases Section.mem_rootFields.mp hf with ⟨hb, hf⟩ | ⟨block, hb, rfl⟩
  · have hread := h.equals_topLevel hs hb hf
    -- what is written and not sent is null
    have hnull : getOrNull root f.name = .null := by
      by_contra hset
      refine hunsent ⟨f, hf, hwritten, ?_⟩
      rw [Section.valueIn_eq_of_topLevel hb]
      have hknown := (hplain.getOrNull f.name).unknownFree.here
      cases hv : getOrNull root f.name with
      | null => exact absurd hv hset
      | unknown => exact absurd hv hknown
      | _ => rfl
    rwa [hnull, Field.known_eq_of_kind (f.kind.known_of_isBlank rfl), ← hnull] at hread
  · show (getOrNull state block).equals (getOrNull root block) = true ∧
      NaNFree (getOrNull state block)
    rcases h.blocks s hs block hb with ⟨hkept, -⟩ | ⟨entries, -, hsome, -⟩
    · rw [getOrNull_congr hkept]
      have hnan := (hplain.getOrNull block).nanFree
      exact ⟨equals_refl hnan, hnan⟩
    · exact Bool.noConfusion (hsome.symm.trans hheld)

end Told

/-! ## Plans against their states -/

/-- The names in the tables of a root correspond. -/
theorem checkNaming_rootField {s : Section} (h : checkNaming s.fields = .ok ())
    {f : Field} (hf : f ∈ s.rootFields) : f.kind.checkNaming f.name = .ok () := by
  rcases Section.mem_rootFields.mp hf with ⟨-, hf⟩ | ⟨block, -, rfl⟩
  · exact checkNaming_kinds h f hf
  · show (FieldKind.table ⟨s.fields, none, true⟩).checkNaming block = .ok ()
    rw [FieldKind.checkNaming]
    exact h

/-- No table of a root is only read. -/
theorem tablesWritten_rootField {s : Section} (h : tablesWritten s.fields = true)
    {f : Field} (hf : f ∈ s.rootFields) :
    (f.readOnly = true → f.kind.isTable = false) ∧ f.kind.tablesWritten = true := by
  rcases Section.mem_rootFields.mp hf with ⟨-, hf⟩ | ⟨block, -, rfl⟩
  · exact tablesWritten_iff.mp h f hf
  · refine ⟨fun hread => (nomatch hread), ?_⟩
    show (FieldKind.table ⟨s.fields, none, true⟩).tablesWritten = true
    rw [FieldKind.tablesWritten_table]
    exact h

section Plans

variable {b : Block} {root : Assoc Value}

/-- A plan without defaults to be filled in equals itself with its defaults. -/
theorem sameEntries_applyDefaults {fields : List Field} (hagrees : b.agrees fields = true)
    (hplain : Plain (.map root)) (h : b.Saturated root) :
    sameEntries equals root (b.applyDefaults root) = true := by
  have heq := equals_applyDefaults hagrees hplain hplain
    (fun row hrow => by rw [Value.map.inj (List.mem_singleton.mp hrow)]; exact h)
    (equals_refl hplain.nanFree)
  rwa [Value.mapInstances, equals_map] at heq

/-- **A plan that is unchanged when its defaults are filled in has them all**, also where
    only what the fields know is looked at. -/
theorem saturated_of_unchanged {fields : List Field} (hagrees : b.agrees fields = true)
    (hplain : Plain (.map root))
    (htables : ∀ f ∈ fields, f.readOnly = true → f.kind.isTable = false)
    (h : ∀ f ∈ fields, f.readOnly = false →
      Unchanged (f.known (getOrNull (b.applyDefaults root) f.name)) (getOrNull root f.name) ∨
        Unchanged (getOrNull (b.applyDefaults root) f.name) (getOrNull root f.name)) :
    b.Saturated root := by
  have hfilled := saturated_applyDefaults hagrees root
  have hplainFilled := plain_applyDefaults hagrees hplain
  obtain ⟨description, deprecated, attributes, blocks⟩ := b
  have hhere := agreesHere hagrees
  rw [saturated_iff] at hfilled ⊢
  constructor
  · intro a ha hd hnull
    obtain ⟨d, hdefault⟩ := Option.ne_none_iff_exists'.mp hd
    obtain ⟨-, f, hf, hname, hscalar, hwritten⟩ := hhere.defaults a ha d hdefault
    have hset := hfilled.1 a ha hd
    have hunchanged := h f hf hwritten
    rw [Field.known_of_isScalar hscalar, or_self, hname, hnull] at hunchanged
    rcases hunchanged with heq | ⟨hblank, -⟩
    · exact hset (eq_null_of_equals heq)
    · exact hset ((getOrNull_applyDefaults_of_isBlank hagrees hblank).trans hnull)
  · intro n hn row hrow
    obtain ⟨f, hf, hname, t, hkind, htable⟩ := hhere.tables n hn
    have hwritten : f.readOnly = false := by
      rw [Bool.eq_false_iff]
      intro hread
      have hno := htables f hf hread
      rw [hkind] at hno
      exact Bool.noConfusion hno
    have hunchanged := h f hf hwritten
    rw [Field.known_of_writable hwritten, hkind, hname] at hunchanged
    have hrootNan := (hplain.getOrNull n.name).nanFree
    -- an instance of the plan equals one that has all defaults
    have hequal : ∀ v, NaNFree v → (∀ row, .map row ∈ v.instances → n.block.Saturated row) →
        Unchanged v (getOrNull root n.name) → n.block.Saturated row := by
      rintro v hv hsaturated (heq | ⟨-, hblank⟩)
      · obtain ⟨fs, hfs, hsame⟩ :=
          exists_equal_instance hrootNan hv (equals_symm hv hrootNan heq) hrow
        exact (hsaturated fs hfs).of_sameEntries (everywhere_instances hrootNan hrow)
          (everywhere_instances hv hfs) hsame
      · exact absurd hrow (not_mem_instances_of_isBlank hblank _)
    have hinstances := hfilled.2 n hn
    have hfilledPlain := hplainFilled.getOrNull n.name
    rcases hunchanged with hunchanged | hunchanged
    · refine hequal _ (FieldKind.plain_prune _ _ hfilledPlain).nanFree ?_ hunchanged
      exact saturated_known_of (fun row hrow => hrow.knownRow htable) hinstances
    · exact hequal _ hfilledPlain.nanFree hinstances hunchanged

variable {sections : List Section} {name : String} {document : Json} {state : Assoc Value}
  (hreg : Regular sections)
  (hagrees : b.agrees (sections.flatMap Section.rootFields) = true)
  (hplain : Plain (.map root))
  (hread : ReadOver sections name document (b.applyDefaults root) state)
  (hheld : ∀ s ∈ sections, (s.heldIn document).isEmpty = true ↔
    ¬ s.Sends (b.applyDefaults root))
include hreg hagrees hplain hread hheld

/-- An explicit plan is unchanged in its own state. -/
theorem Explicit.unchanged (h : Explicit b sections root) {s : Section}
    (hs : s ∈ sections) {f : Field} (hf : f ∈ s.rootFields) (hwritten : f.readOnly = false) :
    Unchanged (getOrNull state f.name) (getOrNull root f.name) := by
  have hfilled := plain_applyDefaults hagrees hplain
  have hrootNan := (hplain.getOrNull f.name).nanFree
  have hfilledNan := (hfilled.getOrNull f.name).nanFree
  have hsame := equals_symm hrootNan hfilledNan
    (equals_getOrNull (sameEntries_applyDefaults hagrees hplain h.saturated) f.name)
  left
  by_cases hsent : s.Sends (b.applyDefaults root)
  · have hsome : (s.heldIn document).isEmpty = false := by
      rw [Bool.eq_false_iff]
      exact fun hempty => (hheld s hs).mp hempty hsent
    obtain ⟨heq, hnan⟩ := hread.equals_known hs hf hfilled hsome
    -- the fields know all of the plan, and so of the plan with its defaults
    have hlaid := (fieldsThroughout_iff.mp (h.laidOut s hs hsent) f hf).of_equals
      (fun _ _ _ hu hv heq hall => hall.of_equals hu hv heq) hfilledNan hrootNan hsame
    rw [Field.known_eq_of_kind (FieldKind.known_eq_self
      (checkNaming_rootField (hreg.naming s hs) hf) (hfilled.getOrNull f.name) hlaid)] at heq
    exact equals_congruence.trans hnan hfilledNan heq hsame
  · obtain ⟨heq, hnan⟩ := hread.equals_unsent hs hf hwritten hfilled
      ((hheld s hs).mpr hsent) hsent
    exact equals_congruence.trans hnan hfilledNan heq hsame

/-- **A state differs from its own plan in no field that is written if and only if the plan
    is explicit.** -/
theorem unchanged_iff_explicit :
    (∀ s ∈ sections, ∀ f ∈ s.rootFields, f.readOnly = false →
      Unchanged (getOrNull state f.name) (getOrNull root f.name)) ↔
      Explicit b sections root := by
  refine ⟨fun h => ?_, fun h s hs f hf hwritten =>
    h.unchanged hreg hagrees hplain hread hheld hs hf hwritten⟩
  have hfilled := plain_applyDefaults hagrees hplain
  have hknownNan : ∀ f : Field, NaNFree (f.known (getOrNull (b.applyDefaults root) f.name)) :=
    fun f => (f.plain_known (hfilled.getOrNull f.name)).nanFree
  have hsent : ∀ s ∈ sections, s.Sends (b.applyDefaults root) → ∀ f ∈ s.rootFields,
      f.readOnly = false → Unchanged (f.known (getOrNull (b.applyDefaults root) f.name))
        (getOrNull root f.name) := by
    intro s hs hsent f hf hwritten
    have hsome : (s.heldIn document).isEmpty = false := by
      rw [Bool.eq_false_iff]
      exact fun hempty => (hheld s hs).mp hempty hsent
    obtain ⟨heq, hnan⟩ := hread.equals_known hs hf hfilled hsome
    exact (unchanged_congr hnan (hknownNan f) heq _).mp (h s hs f hf hwritten)
  constructor
  · refine saturated_of_unchanged hagrees hplain ?_ ?_
    · intro f hf
      obtain ⟨s, hs, hf⟩ := List.mem_flatMap.mp hf
      exact (tablesWritten_rootField (hreg.tables s hs) hf).1
    · intro f hf hwritten
      obtain ⟨s, hs, hf⟩ := List.mem_flatMap.mp hf
      by_cases hsends : s.Sends (b.applyDefaults root)
      · exact .inl (hsent s hs hsends f hf hwritten)
      · obtain ⟨heq, hnan⟩ := hread.equals_unsent hs hf hwritten hfilled
          ((hheld s hs).mpr hsends) hsends
        exact .inr ((unchanged_congr hnan (hfilled.getOrNull f.name).nanFree heq _).mp
          (h s hs f hf hwritten))
  · intro s hs hsends
    refine fieldsThroughout_iff.mpr fun f hf => ?_
    obtain ⟨htable, hbelow⟩ := tablesWritten_rootField (hreg.tables s hs) hf
    cases hwritten : f.readOnly with
    | true => exact FieldKind.laidOut_of_not_isTable (htable hwritten)
    | false =>
        rcases hsent s hs hsends f hf hwritten with heq | ⟨-, hblank⟩
        · have hrootNan := (hplain.getOrNull f.name).nanFree
          have hlaid := FieldKind.laidOut_known
            (checkNaming_rootField (hreg.naming s hs) hf) hbelow
            (v := getOrNull (b.applyDefaults root) f.name)
          rw [← Field.known_of_writable hwritten] at hlaid
          exact hlaid.of_equals (fun _ _ _ hu hv heq hall => hall.of_equals hu hv heq)
            hrootNan (hknownNan f) (equals_symm (hknownNan f) hrootNan heq)
        · exact FieldKind.laidOut_of_isBlank hblank

end Plans

end TrafficConfig
