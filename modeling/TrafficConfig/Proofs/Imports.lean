import TrafficConfig.Proofs.Anew
import TrafficConfig.Proofs.Created
import TrafficConfig.Proofs.Layout
import TrafficConfig.Resource.Import

/-!
# An import recovers what was created

An imported state knows the name only, so a read of it starts from nothing:

* **`Recoverable`** — what a plan has to be like: plain, with collections of the kind of
  their field, and with blocks of at most one instance. Rows may have any keys, and
  attributes that no field is called like;
* **`Recovers`** — what a read brings back: the top-level attributes that were sent and are
  not empty, and the blocks with such an attribute, each with everything that was sent of
  it;
* **`recovers_stateOfDocument`** — this is what the document of a create is read as;
* **`import_recovers`** — and what a read of the imported state answers.
-/

namespace TrafficConfig

open Value

/-- A plan whose object can be recovered: its collections have the kind of their field. -/
abbrev Recoverable (sections : List Section) (root : Assoc Value) : Prop :=
  PlanWith FieldKind.Takes sections root

/-- A state holds what an object was created with, as far as it can be told from its
    document alone. -/
structure Recovers (sections : List Section) (name : String) (plan state : Assoc Value) :
    Prop where
  sorted : Assoc.Sorted state
  name : Assoc.get? state "name" = some (.string name)
  /-- Nothing else is known. -/
  others : ∀ q, q ≠ "name" → q ∉ sections.flatMap Section.rootNames →
    Assoc.get? state q = none
  /-- Of the top-level attributes the full ones are known. -/
  topLevel : ∀ s ∈ sections, s.block = none → ∀ f ∈ s.fields,
    f.Recovered (getOrNull plan f.name) (f.isFull (getOrNull plan f.name))
      (Assoc.get? state f.name)
  /-- Of the blocks those are known that have a full attribute, and then all that was sent
      of them. -/
  blocks : ∀ s ∈ sections, ∀ block ∈ s.block,
    let entries := Section.entriesOf (getOrNull plan block)
    if s.fields.any fun f => f.isFull (getOrNull entries f.name) then
      ∃ values, Assoc.get? state block = some (.list [.map values]) ∧
        Assoc.Sorted values ∧
          (∀ f ∈ s.fields, f.Recovered (getOrNull entries f.name)
            (f.isSent (getOrNull entries f.name)) (Assoc.get? values f.name)) ∧
          ∀ q, q ∉ s.fields.map (·.name) → Assoc.get? values q = none
    else Assoc.get? state block = none

private theorem takes_null (kind : FieldKind) : kind.Throughout FieldKind.Takes .null := by
  cases kind with
  | table t =>
      refine FieldKind.throughout_table_iff.mpr ⟨?_, fun _ hrow => nomatch hrow⟩
      show "null" ≠ (if t.ordered then "set" else "list")
      split <;> decide
  | list | set =>
      show "null" ≠ _
      decide
  | string | bool | int =>
      show "null" ≠ _ ∧ "null" ≠ _
      decide

private theorem takes_inBlock {sections : List Section} {root : Assoc Value} {s : Section}
    (h : Recoverable sections root) (hs : s ∈ sections) {block : String}
    (hb : s.block = some block) :
    Plain (.map (Section.entriesOf (getOrNull root block))) ∧
      FieldsThroughout FieldKind.Takes s.fields
        (Section.entriesOf (getOrNull root block)) := by
  rcases h.block_cases hs hb with ⟨-, hblank⟩ | ⟨entries, -, hvalue, hplain, htakes⟩
  · rw [Section.entriesOf_of_isBlank hblank]
    exact ⟨plain_map_iff.mpr ⟨List.Pairwise.nil, fun _ he => nomatch he⟩,
      fieldsThroughout_iff.mpr fun f _ => takes_null f.kind⟩
  · rw [hvalue]
    exact ⟨hplain, htakes⟩

/-! ## What a create stores -/

section Stored

variable {sections : List Section} {root : Assoc Value} {sent : Assoc Json} {s : Section}

/-- The document of a create holds every field as it was sent. -/
theorem heldAsSent_of_carries (haddr : DistinctAddresses sections)
    (h : Carries (fun s => s.Creates root) root sections sent) (hs : s ∈ sections)
    {f : Field} (hf : f ∈ s.fields) :
    f.HeldAsSent (s.valueIn root f)
      (s.heldIn (mergeDocument emptyDocument (propertiesDocument sent))) := by
  have hcreates : f.isSent (s.valueIn root f) = true ↔ s.Creates root f := by
    rw [Field.isSent, Bool.and_eq_true, Bool.not_eq_true', Bool.not_eq_true', Section.Creates]
  unfold Field.HeldAsSent
  rw [get?_heldIn, heldField?_mergeDocument_empty h.sendable]
  split
  · next hsent =>
      obtain ⟨j, hj⟩ := Option.isSome_iff_exists.mp (h.complete s hs f hf (hcreates.mp hsent))
      obtain ⟨⟨-, hpresent⟩, hsentAs⟩ := h.sentAs_of_held haddr hs hf hj
      refine ⟨j, ?_, hj⟩
      obtain ⟨sent?, hsent?, hgetD⟩ := Except.map_eq_ok hsentAs
      cases sent? with
      | none =>
          rw [Field.toJson?_eq_none_iff, hpresent] at hsent?
          exact Bool.noConfusion hsent?
      | some i =>
          obtain rfl : i = j := hgetD
          exact (Field.toJson?_eq_some_iff.mp hsent?).2
  · next hunsent =>
      cases hj : fieldIn? sent s.remote f.remote with
      | none => rfl
      | some j =>
          exact absurd (hcreates.mpr (h.sentAs_of_held haddr hs hf hj).1) hunsent

end Stored

/-! ## What is read of it -/

section Read

variable {sections : List Section} (name : String) {document : Json} {plan : Assoc Value}
  {s : Section} (hreg : Regular sections) (hplan : Recoverable sections plan)
  (hheld : ∀ s ∈ sections, ∀ f ∈ s.fields,
    f.HeldAsSent (s.valueIn plan f) (s.heldIn document))

/-- The root of an imported state. -/
private abbrev importRoot (name : String) : Assoc Value := [("name", .string name)]

include hreg in
/-- The fields of a section are not in an imported root. -/
theorem get?_importRoot (hs : s ∈ sections) {q : String} (hq : q ∈ s.rootNames) :
    Assoc.get? (importRoot name) q = none := by
  rw [Assoc.get?_cons, if_neg, Assoc.get?_nil]
  rintro rfl
  exact (List.nodup_cons.mp hreg.names.root).1 (List.mem_flatMap.mpr ⟨s, hs, hq⟩)

include hreg hplan hheld in
private theorem declared?_topLevel (hs : s ∈ sections) (hb : s.block = none) {f : Field}
    (hf : f ∈ s.fields) :
    ∃ u?, f.declared? (s.heldIn document) (some (importRoot name)) = .ok u? ∧
      f.Recovered (getOrNull plan f.name) (f.isFull (getOrNull plan f.name)) u? := by
  have hkind := f.kind.readsAnew (checkNaming_kinds (hreg.naming s hs) f hf)
  have hunset : Assoc.get? (importRoot name) f.name = none := by
    refine get?_importRoot name hreg hs ?_
    rw [Section.rootNames, hb]
    exact List.mem_map_of_mem hf
  have hfield := hheld s hs f hf
  rw [Section.valueIn_eq_of_topLevel hb] at hfield
  exact f.declared?_unset hkind (hplan.plain.getOrNull f.name) (hplan.topLevel hs hb hf)
    hfield hunset

include hplan hheld in
private theorem isCleared_eq (hs : s ∈ sections) {block : String} (hb : s.block = some block) :
    s.isCleared (s.heldIn document) =
      !s.fields.any fun f =>
        f.isFull (getOrNull (Section.entriesOf (getOrNull plan block)) f.name) := by
  obtain ⟨-, htakes⟩ := takes_inBlock hplan hs hb
  rw [Section.isCleared, List.not_any_eq_all_not, Bool.eq_iff_iff, List.all_eq_true,
    List.all_eq_true]
  refine forall₂_congr fun f hf => ?_
  have hfield := hheld s hs f hf
  rw [Section.valueIn_eq_of_inBlock hb] at hfield
  exact Bool.eq_iff_iff.mp
    (hfield.isCleared_eq (fieldsThroughout_iff.mp htakes f hf).here)

private theorem isCleared_nil (s : Section) : s.isCleared [] = true := by
  refine List.all_eq_true.mpr fun f _ => ?_
  show (f.readOnly || true) = true
  rw [Bool.or_true]

include hreg hplan hheld in
private theorem exists_toDeclared (hs : s ∈ sections) {block : String}
    (hb : s.block = some block) :
    let entries := Section.entriesOf (getOrNull plan block)
    ∃ values, s.toDeclared (s.heldIn document) none = .ok values ∧ Assoc.Sorted values ∧
      (∀ f ∈ s.fields, f.Recovered (getOrNull entries f.name)
        (f.isSent (getOrNull entries f.name)) (Assoc.get? values f.name)) ∧
      ∀ q, q ∉ s.fields.map (·.name) → Assoc.get? values q = none := by
  intro entries
  obtain ⟨hplain, htakes⟩ := takes_inBlock hplan hs hb
  have hkinds : ∀ f ∈ s.fields, f.kind.ReadsAnew := fun f hf =>
    f.kind.readsAnew (checkNaming_kinds (hreg.naming s hs) f hf)
  obtain ⟨declared, hdeclared, hrecovered⟩ := exists_declared_anew hkinds
    (hreg.names.fields s hs) hplain htakes fun f hf => by
      have hfield := hheld s hs f hf
      rw [Section.valueIn_eq_of_inBlock hb] at hfield
      exact hfield
  refine ⟨Assoc.ofEntries declared, ?_, Assoc.sorted_ofEntries declared, hrecovered, ?_⟩
  · rw [Section.toDeclared, hdeclared]
    rfl
  · intro q hq
    refine get?_declared_eq_none hdeclared fun f hf hname => hq ?_
    rw [← hname]
    exact List.mem_map_of_mem hf

private theorem instance?_importRoot {block : String}
    (h : Assoc.get? (importRoot name) block = none) :
    Section.instance? (importRoot name) block = .ok none := by
  rw [Section.instance?, h]

include hreg hplan hheld in
private theorem exists_toDeclaredInRoot_anew (hs : s ∈ sections) :
    ∃ values, s.toDeclaredInRoot (documentSection? document s.remote) (importRoot name) =
      .ok values := by
  cases hb : s.block with
  | none =>
      rw [toDeclaredInRoot_of_topLevel hb]
      obtain ⟨entries, hentries⟩ := exists_declaredEntries fun f hf =>
        (declared?_topLevel name hreg hplan hheld hs hb hf).imp fun _ hu => hu.1
      refine ⟨Assoc.ofEntries entries, ?_⟩
      rw [Section.toDeclared, hentries]
      rfl
  | some block =>
      obtain ⟨values, hvalues, -⟩ := exists_toDeclared hreg hplan hheld hs hb
      have hown : block ∈ s.rootNames := by
        rw [Section.rootNames, hb]
        exact List.mem_singleton.mpr rfl
      rw [Section.toDeclaredInRoot, hb]
      simp only [instance?_importRoot name (get?_importRoot name hreg hs hown)]
      by_cases hkept : ((s.heldIn document).isEmpty ||
          (Option.isNone (none : Option (Assoc Value)) && s.isCleared (s.heldIn document))) =
            true
      · exact ⟨_, if_pos hkept⟩
      · refine ⟨[(block, .list [.map values])], ?_⟩
        show (if _ then _ else _) = _
        rw [if_neg hkept, hvalues]
        rfl

include hreg hplan hheld in
/-- **The document of a create is read anew as what was sent.** -/
theorem recovers_stateOfDocument :
    ∃ state, stateOfDocument sections name document (.map (importRoot name)) =
      .ok (.map state) ∧ Recovers sections name plan state := by
  obtain ⟨after, hafter⟩ := exists_overlaySections (importRoot name) fun s hs =>
    exists_toDeclaredInRoot_anew name hreg hplan hheld hs
  have hstate : stateOfDocument sections name document (.map (importRoot name)) =
      .ok (.map (Assoc.insert after "name" (.string name))) := by
    show (overlaySections document (importRoot name) sections (importRoot name) >>= _) = _
    rw [hafter]
    rfl
  refine ⟨_, hstate, ?_, ?_, ?_, ?_, ?_⟩
  · exact sorted_stateOfDocument hstate (List.pairwise_singleton _ _)
  · exact Assoc.get?_insert_self after "name" _
  · intro q hq hnone
    have hget := get?_stateOfDocument_of_not_mem hstate hnone
    rw [if_neg (Ne.symm hq)] at hget
    exact hget.trans (by rw [root, asMap?, Option.getD_some, Assoc.get?_cons,
      if_neg (Ne.symm hq), Assoc.get?_nil])
  · intro s hs hb f hf
    obtain ⟨read, hread, hview⟩ := get?_stateOfDocument_topLevel hstate hreg.names hs hb
    obtain ⟨u?, hu, hrecovered⟩ :=
      declared?_topLevel name hreg hplan hheld hs hb hf
    have hdeclared := Section.declared?_of_toDeclared hread (hreg.names.fields s hs) hf
    obtain rfl := Except.ok.inj (hu.symm.trans hdeclared)
    rw [← hview f hf] at hrecovered
    exact hrecovered
  · intro s hs block hb entries
    have hown : block ∈ s.rootNames := by
      rw [Section.rootNames, Option.mem_def.mp hb]
      exact List.mem_singleton.mpr rfl
    have hprior := get?_importRoot name hreg hs hown
    obtain ⟨found, hfound, hcases⟩ :=
      get?_stateOfDocument_inBlock hstate hreg.names hs (Option.mem_def.mp hb)
    obtain rfl : none = found :=
      Except.ok.inj ((instance?_importRoot name hprior).symm.trans hfound)
    have hcleared := isCleared_eq hplan hheld hs (Option.mem_def.mp hb)
    cases hany : s.fields.any fun f => f.isFull (getOrNull entries f.name) with
    | false =>
        rw [hany] at hcleared
        rw [hcleared, Option.isNone_none, Bool.not_false, Bool.and_self, Bool.or_true,
          if_pos rfl] at hcases
        rw [if_neg Bool.false_ne_true]
        exact hcases.trans hprior
    | true =>
        rw [hany] at hcleared
        -- a section without fields is cleared
        have hfilled : (s.heldIn document).isEmpty = false := by
          rw [Bool.eq_false_iff]
          intro hempty
          rw [List.isEmpty_iff.mp hempty] at hcleared
          exact Bool.noConfusion (hcleared.symm.trans (isCleared_nil s))
        rw [hcleared, hfilled, Option.isNone_none, Bool.not_true, Bool.and_false,
          Bool.or_false, if_neg Bool.false_ne_true] at hcases
        obtain ⟨read, hread, hget⟩ := hcases
        obtain ⟨values, hvalues, hspec⟩ :=
          exists_toDeclared hreg hplan hheld hs (Option.mem_def.mp hb)
        obtain rfl : read = values := Except.ok.inj (hread.symm.trans hvalues)
        rw [if_pos rfl]
        exact ⟨read, hget, hspec⟩

end Read

/-! ## Importing -/

section Import

variable {r : Resource} {sections : List Section} {planned : Value} {store : Store}

/-- **An import recovers what was created**: the name of an object that was created without
    errors is imported, and a read of the imported state answers with everything that the
    document tells. -/
theorem import_recovers (hr : r ∈ Catalog.resources) (hc : r.content = .document sections)
    (hplanned : Recoverable sections planned.root)
    (hcreated : Diagnostic.anyError
      ((r.create planned).run Store.serve store).1.reports = false) :
    let after := ((r.create planned).run Store.serve store).2
    ∃ name imported state, objectName (r.filled planned) = some name ∧
      importState r.typeName (Path.ofName "name") name = .ok imported ∧
        (r.read imported).run Store.serve after = (⟨some (.map state), []⟩, after) ∧
          Recovers sections name (r.filled planned).root state := by
  intro after
  have hreg := Catalog.regular hr hc
  obtain ⟨name, payload, hname, hpayload, hdocument, -⟩ := created_document hcreated hc
  obtain ⟨root, rfl, hfilled⟩ := Resource.exists_filled hname
  obtain ⟨plan, hplan, sent, rfl, hcarries⟩ := createPayload_cases hpayload
  rw [hfilled] at hplan
  obtain rfl := Except.ok.inj hplan
  obtain ⟨hnonempty, -⟩ := objectName_cases hname
  -- what is read of the document over the imported state
  have hplan : Recoverable sections (r.schema.block.applyDefaults root) :=
    PlanWith.applyDefaults (fun kind _ hv => kind.takes_of_isScalar hv)
      (fun _ _ _ _ hv => hv.mapInstances) (Catalog.agrees hr hc) hplanned
  obtain ⟨state, hstate, hrecovers⟩ := recovers_stateOfDocument name hreg hplan
    fun s hs f hf => heldAsSent_of_carries hreg.addresses hcarries hs hf
  have himported : objectName (.map (importRoot name)) = some name := by
    have hget : Assoc.get? (importRoot name) "name" = some (.string name) := rfl
    rw [objectName_of_get?_name hget, Option.filter_some, hnonempty]
    rfl
  refine ⟨name, .map (importRoot name), state, hname, ?_, ?_, ?_⟩
  · rw [importState, hnonempty]
    rfl
  · have hget : Store.serve after (.get (r.address name)) =
        (.ok (mergeDocument emptyDocument (propertiesDocument sent)), after) := by
      rw [Store.serve, hdocument]
    obtain ⟨hnone, -⟩ | ⟨name', hname', hread⟩ := r.read_cases (.map (importRoot name))
    · exact absurd (himported.symm.trans hnone) (Option.some_ne_none name)
    · obtain rfl : name = name' := Option.some.inj (himported.symm.trans hname')
      rw [hread, Operation.run_map, Resource.run_fetch hc, hget]
      simp only [Resource.lookedAt, hstate]
      rfl
  · rw [hfilled]
    exact hrecovers

end Import

/-! ## A balancer -/

section Balancer

open Catalog

/-- A service with a default that is empty, and a row with a remark that no field takes. -/
private def balancer : Assoc Value :=
  [("enabled", .bool false),
    ("location_settings", .set [.map [("location", .string "north"),
      ("remark", .string "main"), ("weight", .number (Number.ofInt 5))]]),
    ("name", .string "balancer")]

private theorem recoverable_balancer : Recoverable LoadBalancing.sections balancer where
  plain := by decide +kernel
  fields := by decide +kernel
  blocks := by simp [LoadBalancing.sections, LoadBalancing.basic, LoadBalancing.log,
    Section.topLevel]

private def switch : Field := .bool "enabled"

private def locations : Field := .table "location_settings" LoadBalancing.locationSettings

/-- The service is recovered with its locations, without the switch that is off. -/
theorem import_of_balancer :
    let after := ((loadBalancing.create (.map balancer)).run Store.serve Store.empty).2
    ∃ imported state, importState "vtm_glb" (Path.ofName "name") "balancer" = .ok imported ∧
      (loadBalancing.read imported).run Store.serve after =
        (⟨some (.map state), []⟩, after) ∧
      Assoc.get? state "enabled" = none ∧
      ∃ settings, Assoc.get? state "location_settings" = some settings ∧
        (FieldKind.table LoadBalancing.locationSettings).SentAlike settings
          (getOrNull balancer "location_settings") := by
  intro after
  obtain ⟨name, imported, state, hname, himported, hread, hrecovers⟩ :=
    @import_recovers loadBalancing LoadBalancing.sections (.map balancer) .empty
      (by simp [resources]) rfl recoverable_balancer (by decide +kernel)
  have hname' : objectName (loadBalancing.filled (.map balancer)) = some "balancer" := by
    decide +kernel
  obtain rfl : "balancer" = name := Option.some.inj (hname'.symm.trans hname)
  have hbasic : LoadBalancing.basic ∈ LoadBalancing.sections := List.mem_cons_self
  have hswitch := hrecovers.topLevel LoadBalancing.basic hbasic rfl switch
    (by simp [LoadBalancing.basic, Section.topLevel, switch])
  have hlocations := hrecovers.topLevel LoadBalancing.basic hbasic rfl locations
    (by simp [LoadBalancing.basic, Section.topLevel, locations])
  have hoff : switch.isFull
      (getOrNull (loadBalancing.filled (.map balancer)).root switch.name) = false := by
    decide +kernel
  have hfull : locations.isFull
      (getOrNull (loadBalancing.filled (.map balancer)).root locations.name) = true := by
    decide +kernel
  rw [Field.Recovered, hoff, if_neg Bool.false_ne_true] at hswitch
  rw [Field.Recovered, hfull, if_pos rfl] at hlocations
  obtain ⟨settings, hsettings, halike, -⟩ := hlocations
  exact ⟨imported, state, himported, hread, hswitch, settings, hsettings, halike⟩

end Balancer

end TrafficConfig
