import TrafficConfig.Proofs.Plans

/-!
# Documents that mirror a state

* **`Mirrors`** — a document says what a state says in every writable field, and has no
  field that is only read;
* **`Mirrors.create`**, **`Mirrors.update`** — what a create stores mirrors the plan, and
  so does what an update makes of a document that mirrors the prior state, if every name
  that changed is in the change set;
* **`Mirrors.of_sameEntries`** — a document that mirrors a state mirrors every state that
  equals it.
-/

namespace TrafficConfig

open Value ChangeSet

/-- A document says what a state says, and nothing else. -/
structure Mirrors (sections : List Section) (document : Json) (root : Assoc Value) :
    Prop where
  objects : HasObjectSections document
  inSync : InSyncWithin NaNFree sections document root
  readOnly : ∀ s ∈ sections, ∀ f ∈ s.fields, f.readOnly = true →
    heldField? document s.remote f.remote = none

namespace Mirrors

variable {sections : List Section} {document : Json} {root : Assoc Value}

private theorem readOnly_merge {W : Section → Field → Prop} {sent : Assoc Json}
    (hcarries : Carries W root sections sent) (haddr : DistinctAddresses sections)
    (hW : ∀ s f, W s f → f.readOnly = false) (hobjects : HasObjectSections document)
    (hnone : ∀ s ∈ sections, ∀ f ∈ s.fields, f.readOnly = true →
      heldField? document s.remote f.remote = none) :
    ∀ s ∈ sections, ∀ f ∈ s.fields, f.readOnly = true →
      heldField? (mergeDocument document (propertiesDocument sent)) s.remote
        f.remote = none := by
  intro s hs f hf hr
  rw [heldField?_mergeDocument hobjects hcarries.sendable]
  cases hj : fieldIn? sent s.remote f.remote with
  | some j =>
      have hwritten := hW s f (hcarries.sentAs_of_held haddr hs hf hj).1
      rw [hr] at hwritten
      exact Bool.noConfusion hwritten
  | none => exact hnone s hs f hf hr

/-- **What a create stores mirrors the plan.** -/
theorem create (hreg : Regular sections) (hplain : Plain (.map root)) {payload : Json}
    (h : createPayload (.map root) sections = .ok payload) :
    Mirrors sections (mergeDocument emptyDocument payload) root := by
  obtain ⟨root', hroot, sent, rfl, hcarries⟩ := createPayload_cases h
  obtain rfl : root = root' := Except.ok.inj hroot
  refine ⟨hasObjectSections_empty.merge hcarries.sendable, ?_, ?_⟩
  · exact .create hcarries hreg.addresses (fun _ hv => hv) hplain.nanFree
      hplain.unknownFree
  · refine readOnly_merge hcarries hreg.addresses (fun s f hW => hW.1)
      hasObjectSections_empty ?_
    intro s _ f _ _
    show heldField? (propertiesDocument []) s.remote f.remote = none
    rw [heldField?_eq (documentSections?_propertiesDocument [])]
    rfl

/-- **What an update makes of a document that mirrors the prior state mirrors the
    plan.** -/
theorem update (hreg : Regular sections) {prior : Assoc Value}
    (h : Mirrors sections document prior) (hprior : NaNFree (.map prior))
    (hplain : Plain (.map root)) {changes : ChangeSet}
    (hchanges : ∀ q, changes.hasChange q = false →
      Unchanged (getOrNull prior q) (getOrNull root q))
    {payload : Option Json}
    (hpayload : updatePayload (.map root) sections changes = .ok payload) :
    Mirrors sections ((payload.map (mergeDocument document)).getD document) root := by
  have hsync := h.inSync.update hreg.addresses hreg.blocks
      (fun _ hv => hv) hprior hplain.nanFree hplain.unknownFree
    hchanges h.objects hpayload
  obtain ⟨root', hroot, ⟨rfl, -⟩ | ⟨-, sent, rfl, hcarries⟩⟩ := updatePayload_cases hpayload
  · exact ⟨h.objects, hsync, h.readOnly⟩
  · refine ⟨h.objects.merge hcarries.sendable, hsync, ?_⟩
    exact readOnly_merge hcarries hreg.addresses (fun s f hW => hW.1) h.objects h.readOnly

/-- A document mirrors all states that are equal. -/
theorem of_sameEntries (h : Mirrors sections document root) {rs : Assoc Value}
    (hroot : NaNFree (.map root)) (hrs : NaNFree (.map rs))
    (hs : sameEntries equals rs root = true) : Mirrors sections document rs := by
  have hroot' := everywhere_map.mp hroot
  have hrs' := everywhere_map.mp hrs
  have hunchanged : ∀ q, Unchanged (getOrNull root q) (getOrNull rs q) := by
    intro q
    left
    exact equals_symm (everywhere_getOrNull hrs'.2 nanFree_null q)
      (everywhere_getOrNull hroot'.2 nanFree_null q) (equals_getOrNull hs q)
  refine ⟨h.objects, ?_, h.readOnly⟩
  intro s hsec f hf hr
  refine (h.inSync s hsec f hf hr).of_unchanged (Section.nanFree_valueIn hroot f)
    (Section.nanFree_valueIn hrs f) ?_
  cases hb : s.block with
  | none =>
      rw [Section.valueIn_eq_of_topLevel hb, Section.valueIn_eq_of_topLevel hb]
      exact hunchanged f.name
  | some block => exact Section.unchanged_valueIn_of_block hb hroot hrs (hunchanged block) f

end Mirrors

end TrafficConfig
