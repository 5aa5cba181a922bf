import TrafficConfig.Proofs.Calls
import TrafficConfig.Proofs.Created
import TrafficConfig.Proofs.Explicit
import TrafficConfig.Proofs.Layout
import TrafficConfig.Proofs.Texts

/-!
# Applying a plan again

A plan is applied, and then applied again to the state that was read back:

* **`Resource.Retellable`** — what a plan has to be like so that every part of it can be
  found again in what is read;
* **`Resource.Explicit`** — the plan says itself what is read of its object. For a text
  this goes without saying;
* **`sendsNothing_iff_explicit`** — the change set between the state and the plan touches
  no section if and only if the plan is explicit;
* **`reapplying_calls_nothing_iff`** — so applying the plan again calls nothing if and only
  if it is explicit. **`reapplying_bare_calls`** is a plan that is not: a default that was
  left out counts as a change.
-/

namespace TrafficConfig

open Value ChangeSet

namespace Resource

/-- A plan without unknown parts and not-a-number, of which every part can be found again:
    collections have the kind of their field, blocks have at most one instance, and rows
    have distinct strings as keys; lines can be told apart in a text. -/
def Retellable (r : Resource) (root : Assoc Value) : Prop :=
  match r.content with
  | .document sections => PlanWith FieldKind.Traceable sections root
  | .text form => Plain (.map root) ∧ (getOrNull root form.attributeName).Recitable

/-- A plan says itself what is read of its object. -/
def Explicit (r : Resource) (root : Assoc Value) : Prop :=
  match r.content with
  | .document sections => TrafficConfig.Explicit r.schema.block sections root
  | .text _ => True

end Resource

/-! ## Creates and updates -/

section Calls

variable {r : Resource}

/-- Where an object can be made, it can be changed. -/
theorem Resource.not_unchangeable {plan : Value} (h : ¬ r.Unmakeable plan)
    (changes : ChangeSet) : ¬ r.Unchangeable plan changes := by
  unfold Resource.Unmakeable at h
  unfold Resource.Unchangeable
  cases hc : r.content with
  | document sections =>
      simp only [hc] at h ⊢
      cases hpayload : createPayload plan sections with
      | error e => exact absurd ⟨e, hpayload⟩ h
      | ok payload =>
          obtain ⟨result, hresult⟩ := exists_updatePayload hpayload changes
          rintro ⟨e, herror⟩
          exact nomatch hresult.symm.trans herror
  | text form =>
      simp only [hc] at h ⊢
      simpa only [Resource.Unmakeable, hc] using h

/-- Where a plan can be made, an update to it calls nothing if and only if there is nothing
    to send. -/
theorem history_update_eq_nil_iff {σ : Type} {planned : Value}
    (h : ¬ (Demand.create planned).Refused r) (prior : Value) (changes : ChangeSet)
    (server : Server σ) (s : σ) :
    (r.update prior planned changes).history server s = [] ↔
      r.NothingToSend (r.filled planned) changes := by
  have hrefused : ¬ (Demand.update prior planned changes).Refused r := by
    rintro (hrejected | ⟨-, hnone | hbad⟩)
    · exact h (.inl hrejected)
    · exact h (.inr (.inl (Option.or_eq_none_iff.mp hnone).2))
    · exact Resource.not_unchangeable (fun hbad => h (.inr (.inr hbad))) changes hbad
  obtain ⟨hstopped, hnone⟩ | ⟨hgoes, name, -, hperforms⟩ :=
    (Resource.course_update prior planned changes server s (r := r)).calls
  · exact ⟨fun _ => hstopped.resolve_left hrefused, fun _ => hnone⟩
  · exact ⟨fun hnil => absurd hnil hperforms.ne_nil,
      fun hidle => absurd (.inr hidle) hgoes⟩

end Calls

/-! ## Documents -/

section Documents

variable {sections : List Section} {s : Section}

/-- A section is left alone if and only if no name that it writes in the root changed. -/
theorem touched_eq_false_iff (hreg : Regular sections) (hs : s ∈ sections)
    (changes : ChangeSet) :
    s.touched changes = false ↔
      ∀ f ∈ s.rootFields, f.readOnly = false → changes.hasChange f.name = false := by
  have hfields : (s.fields.any fun f => !f.readOnly && changes.hasChange f.name) = false ↔
      ∀ f ∈ s.fields, f.readOnly = false → changes.hasChange f.name = false := by
    simp [List.any_eq_false]
  cases hb : s.block with
  | none =>
      rw [Section.rootFields, hb, ← hfields, Section.touched]
      split
      · have hpath : ∀ f, s.pathOf f = f.name := by
          intro f
          rw [Section.pathOf, hb]
        simp only [hpath]
      · rw [Section.wholeChanged, hb]
  | some block =>
      rw [Section.rootFields, hb, Section.touched,
        hreg.blocks s hs (by rw [hb]; exact Option.some_ne_none block)]
      show s.wholeChanged changes = false ↔ _
      rw [Section.wholeChanged, hb, List.forall_mem_singleton]
      exact ⟨fun h _ => h, fun h => h rfl⟩

/-- An update that can be built is nothing if and only if no section is touched. -/
theorem updatePayload_eq_none_iff {config : Value} {changes : ChangeSet}
    {result : Option Json} (h : updatePayload config sections changes = .ok result) :
    updatePayload config sections changes = .ok none ↔
      ∀ s ∈ sections, s.touched changes = false := by
  rw [h]
  obtain ⟨root, -, ⟨rfl, huntouched⟩ | ⟨⟨s, hs, htouched⟩, sent, rfl, -⟩⟩ :=
    updatePayload_cases h
  · exact ⟨fun _ => huntouched, fun _ => rfl⟩
  · exact ⟨fun hnone => (nomatch hnone),
      fun hall => Bool.noConfusion (htouched.symm.trans (hall s hs))⟩

variable {b : Block} {name : String} {payload : Json} {root state : Assoc Value}
  (hreg : Regular sections)
  (hagrees : b.agrees (sections.flatMap Section.rootFields) = true)
  (hplain : Plain (.map root))
include hreg hagrees hplain

/-- Nothing changes under a name with a point. -/
theorem ReadOver.unchanged_of_not_dotless {document : Json}
    (hread : ReadOver sections name document (b.applyDefaults root) state) {key : String}
    (hkey : ¬ Dotless key) : Unchanged (getOrNull state key) (getOrNull root key) := by
  have hnot : key ∉ sections.flatMap Section.rootNames := fun hmem =>
    hkey (hreg.dotless key hmem)
  have hname : key ≠ "name" := by
    rintro rfl
    exact hkey (by decide)
  have hfields : key ∉ (sections.flatMap Section.rootFields).map (·.name) := by
    rw [List.map_flatMap]
    simpa only [Section.map_name_rootFields] using hnot
  rw [getOrNull_congr (hread.others key hname hnot),
    getOrNull_applyDefaults_of_not_mem hagrees hfields]
  exact .inl (equals_refl (hplain.getOrNull key).nanFree)

/-- **The changes between what was read of a plan's own document and the plan leave nothing
    to send if and only if the plan is explicit.** -/
theorem sendsNothing_iff_explicit
    (hpayload : createPayload (.map (b.applyDefaults root)) sections = .ok payload)
    (hread : ReadOver sections name (mergeDocument emptyDocument payload)
      (b.applyDefaults root) state) :
    updatePayload (.map (b.applyDefaults root)) sections
        (between (.map state) (.map root)) = .ok none ↔
      Explicit b sections root := by
  obtain ⟨result, hresult⟩ :=
    exists_updatePayload hpayload (between (.map state) (.map root))
  obtain ⟨plan, hplan, sent, rfl, hcarries⟩ := createPayload_cases hpayload
  obtain rfl := Except.ok.inj hplan
  rw [updatePayload_eq_none_iff hresult, ← unchanged_iff_explicit hreg hagrees hplain hread
    fun s hs => heldIn_isEmpty_iff hreg.remotes hcarries hs]
  refine forall₂_congr fun s hs => ?_
  rw [touched_eq_false_iff hreg hs]
  refine forall₂_congr fun f hf => imp_congr_right fun _ => ?_
  refine hasChange_between_eq_false_iff (hreg.dotless f.name ?_)
    (fun key => (hplain.getOrNull key).unknownFree.here)
    fun key hkey => hread.unchanged_of_not_dotless hreg hagrees hplain hkey
  exact List.mem_flatMap.mpr
    ⟨s, hs, s.map_name_rootFields ▸ List.mem_map_of_mem (f := fun f : Field => f.name) hf⟩

end Documents

/-! ## Texts -/

/-- A text that is read as it was written leaves its attribute alone. -/
theorem not_hasChange_of_decode {b : Block} (hagrees : b.agrees [] = true)
    {form : TextForm} (hdotless : Dotless form.attributeName) {root : Assoc Value}
    (hplain : Plain (.map root)) {name body : String}
    (hbody : form.decode body = getOrNull root form.attributeName) :
    (between (form.stateOf name body (.map (b.applyDefaults root))) (.map root)).hasChange
      form.attributeName = false := by
  rw [hasChange_between_eq_false_iff hdotless]
  · have hget : getOrNull (form.stateOf name body (.map (b.applyDefaults root))).root
        form.attributeName = getOrNull root form.attributeName := by
      rw [← hbody]
      exact getOrNull_of_get? (Assoc.get?_insert_self _ _ _)
    rw [hget]
    exact .inl (equals_refl (hplain.getOrNull form.attributeName).nanFree)
  · exact fun key => (hplain.getOrNull key).unknownFree.here
  · intro key hkey
    have hname : key ≠ "name" := by
      rintro rfl
      exact hkey (by decide)
    have hattribute : key ≠ form.attributeName := by
      rintro rfl
      exact hkey hdotless
    have hget : getOrNull (form.stateOf name body (.map (b.applyDefaults root))).root key =
        getOrNull root key := by
      refine (getOrNull_congr ?_).trans
        (getOrNull_applyDefaults_of_not_mem hagrees (List.not_mem_nil (a := key)))
      show Assoc.get? (Assoc.insert (Assoc.insert _ _ _) _ _) key = _
      rw [Assoc.get?_insert, if_neg (Ne.symm hattribute), Assoc.get?_insert,
        if_neg (Ne.symm hname)]
      rfl
    rw [hget]
    exact .inl (equals_refl (hplain.getOrNull key).nanFree)

/-! ## Applying again -/

/-- **Applying a plan again calls nothing if and only if the plan is explicit.** An object of
    the catalog was made as planned, without errors, on a store that keeps what is written.
    Then the plan is applied to the state that came back, by the change set between them,
    whatever the server answers now. -/
theorem reapplying_calls_nothing_iff {r : Resource} (hr : r ∈ Catalog.resources)
    {planned : Value} (hplanned : r.Retellable planned.root) {store : Store}
    (hcreated : Diagnostic.anyError
      ((r.create planned).run Store.serve store).1.reports = false)
    {σ : Type} (server : Server σ) (s : σ) :
    let state := ((r.create planned).run Store.serve store).1.state
    (r.update state planned (between state planned)).history server s = [] ↔
      r.Explicit planned.root := by
  intro state
  rw [history_update_eq_nil_iff (not_refused_of_created hcreated)]
  obtain ⟨name, -, hname, -⟩ := create_eq_write hcreated
  obtain ⟨root, rfl, hfilled⟩ := Resource.exists_filled hname
  unfold Resource.Retellable at hplanned
  unfold Resource.NothingToSend Resource.Explicit
  cases hc : r.content with
  | document sections =>
      simp only [hc] at hplanned ⊢
      have hreg := Catalog.regular hr hc
      have hagrees := Catalog.agrees hr hc
      obtain ⟨name, payload, -, hpayload, -, hstate⟩ := created_document hcreated hc
      rw [hfilled] at hpayload hstate ⊢
      have hplan : PlanWith FieldKind.Traceable sections (r.schema.block.applyDefaults root) :=
        PlanWith.applyDefaults
          (fun kind _ hv => ⟨kind.takes_of_isScalar hv, kind.keyed_of_isScalar hv⟩)
          (fun _ _ _ hn hall => ⟨hall.1.mapInstances, hall.2.applyDefaults hn⟩) hagrees hplanned
      -- what was stored is read as the plan with its defaults, as far as it is known
      obtain ⟨read, hreadState, hread⟩ := exists_readOver name hreg hplan
        (Mirrors.create hreg hplan.plain hpayload)
      rw [show state = .map read from hstate _ hreadState]
      exact sendsNothing_iff_explicit hreg hagrees hplanned.plain hpayload hread
  | text form =>
      simp only [hc] at hplanned ⊢
      obtain ⟨hplain, hrecitable⟩ := hplanned
      obtain ⟨hagrees, hdotless⟩ := Catalog.agrees_text hr hc
      obtain ⟨name, body, hbody, hstate⟩ := created_text hcreated hc
      rw [hfilled] at hbody hstate
      have hsame : getOrNull (r.schema.block.applyDefaults root) form.attributeName =
          getOrNull root form.attributeName :=
        getOrNull_applyDefaults_of_not_mem hagrees List.not_mem_nil
      have hdecode := Catalog.decode_encode hr hc hrecitable (hsame ▸ hbody)
      rw [show state = _ from hstate]
      exact iff_of_true (not_hasChange_of_decode hagrees hdotless hplain hdecode) trivial

/-! ## Services -/

section Services

open Catalog

private theorem retellable_service {root : Assoc Value} (hplain : Plain (.map root))
    (hfields : FieldsThroughout FieldKind.Traceable
      (LoadBalancing.sections.flatMap Section.rootFields) root) :
    loadBalancing.Retellable root where
  plain := hplain
  fields := hfields
  blocks := by simp [LoadBalancing.sections, LoadBalancing.basic, LoadBalancing.log,
    Section.topLevel]

/-- The calls of applying a service again, on the empty store on which it was created. -/
private def callsAgain (root : Assoc Value) : List Answered :=
  let created := (loadBalancing.create (.map root)).run Store.serve .empty
  (loadBalancing.update created.1.state (.map root)
    (between created.1.state (.map root))).history Store.serve created.2

/-- A service that states every setting that has a default, and one location. -/
private def stated : Assoc Value :=
  [("all_monitors_needed", .bool false), ("auto_recovery", .bool false),
    ("chained_auto_failback", .bool false), ("disable_on_failure", .bool false),
    ("enabled", .bool true), ("geo_effect", .number (Number.ofInt 50)),
    ("location_settings", .set [.map [("location", .string "north"),
      ("weight", .number (Number.ofInt 5))]]),
    ("name", .string "g"), ("return_ips_on_fail", .bool false),
    ("ttl", .number (Number.ofInt (-1)))]

/-- A service that states everything is applied again without a call. -/
theorem reapplying_stated_calls_nothing :
    callsAgain stated = [] ∧ loadBalancing.Explicit stated := by
  have hretellable : loadBalancing.Retellable (Value.map stated).root :=
    retellable_service (by decide +kernel) (by decide +kernel)
  have hcreated : Diagnostic.anyError
      ((loadBalancing.create (.map stated)).run Store.serve .empty).1.reports = false := by
    decide +kernel
  have hiff := reapplying_calls_nothing_iff (by simp [resources]) hretellable hcreated
    Store.serve ((loadBalancing.create (.map stated)).run Store.serve .empty).2
  have hnone : callsAgain stated = [] := by
    rw [← List.isEmpty_iff]
    decide +kernel
  unfold callsAgain at hnone ⊢
  exact ⟨hnone, hiff.mp hnone⟩

/-- A service that states nothing but its name. -/
private def bare : Assoc Value := [("name", .string "g")]

/-- A service that leaves its defaults out is created without reports, and yet written when
    it is applied again. -/
theorem reapplying_bare_calls :
    loadBalancing.Retellable bare ∧
      ((loadBalancing.create (.map bare)).run Store.serve .empty).1.reports.isEmpty = true ∧
        callsAgain bare ≠ [] := by
  refine ⟨retellable_service (by decide +kernel) (by decide +kernel), by decide +kernel, ?_⟩
  rw [ne_eq, ← List.isEmpty_iff]
  decide +kernel

end Services

end TrafficConfig
