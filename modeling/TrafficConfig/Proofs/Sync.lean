import TrafficConfig.Proofs.Changes
import TrafficConfig.Proofs.Instances

/-!
# Documents in sync with a state

A remote document is in sync with a state when every writable field of it says what the
state says:

* **`Field.InSync`**, **`InSync`** — the document holds what a value equal to the state's
  is sent as, or, where the state has nothing, it holds nothing or the cleared value.
  `within` says which values may have been sent;
* **`InSync.merge`** — a payload over a document: what is sent is in sync by itself, so
  only the fields that are not sent have to be in sync before;
* **`updatePayload_keeps_inSync`** — an update by the change set between two states takes
  a document from one to the other.
-/

namespace TrafficConfig

open Value ChangeSet

/-! ## One field -/

/-- A field of a document says what a state says: it is what an equal value is sent as, or
    nothing is set and nothing is held. -/
def Field.InSync (within : Value → Prop) (f : Field) (held : Option Json) (v : Value) :
    Prop :=
  (∃ w j, within w ∧ w.equals v = true ∧ f.toJson? w = .ok (some j) ∧ held = some j) ∨
    (isBlank v = true ∧ (held = none ∨ held = some f.kind.cleared))

/-- An empty collection is sent as cleared. -/
theorem Field.toJson?_of_isBlank {f : Field} {v : Value} {j : Json}
    (hv : isBlank v = true) (h : f.toJson? v = .ok (some j)) : j = f.kind.cleared := by
  obtain ⟨name, remote, kind, readOnly, alwaysSent⟩ := f
  have hempty : v = .list [] ∨ v = .set [] := by
    refine (isBlank_iff.mp hv).resolve_left ?_
    rintro rfl
    exact nomatch h
  cases kind with
  | table rows =>
      obtain ⟨fields, key, ordered⟩ := rows
      rcases hempty with rfl | rfl <;> exact (Option.some.inj (Except.ok.inj h)).symm
  | list => rcases hempty with rfl | rfl <;> exact (Option.some.inj (Except.ok.inj h)).symm
  | set => rcases hempty with rfl | rfl <;> exact (Option.some.inj (Except.ok.inj h)).symm
  | _ => rcases hempty with rfl | rfl <;> exact nomatch h

namespace Field.InSync

variable {within : Value → Prop} {f : Field} {held : Option Json} {v w : Value}

/-- A field that did not change stays in sync. -/
theorem of_unchanged (h : f.InSync within held v) (hv : NaNFree v) (hw : NaNFree w)
    (hvw : Unchanged v w) : f.InSync within held w := by
  rcases h with ⟨u, j, hu, heq, hj, hheld⟩ | ⟨hblank, hheld⟩
  · rcases hvw with hvw | ⟨hvb, hwb⟩
    · left
      refine ⟨u, j, hu, ?_, hj, hheld⟩
      rw [← equals_congruence.right hv hw hvw u]
      exact heq
    · right
      -- what was sent is blank too, so it was sent as cleared
      have hub : isBlank u = true := (isBlank_eq_of_equals heq).trans hvb
      exact ⟨hwb, .inr (hheld.trans (congrArg some (Field.toJson?_of_isBlank hub hj)))⟩
  · right
    refine ⟨?_, hheld⟩
    rcases hvw with hvw | ⟨-, hwb⟩
    · exact (isBlank_eq_of_equals hvw).symm.trans hblank
    · exact hwb

/-- A field is in sync with the value that it was sent for. -/
theorem of_sentAs {j : Json} (hin : within v) (hv : NaNFree v) (hu : v ≠ .unknown)
    (h : f.sentAs v = .ok j) : f.InSync within (some j) v := by
  rw [Field.sentAs] at h
  cases hj : f.toJson? v with
  | error e => rw [hj] at h; cases h
  | ok sent? =>
      rw [hj] at h
      cases sent? with
      | some i =>
          obtain rfl : i = j := Except.ok.inj h
          exact .inl ⟨v, i, hin, equals_refl hv, hj, rfl⟩
      | none =>
          obtain rfl : f.kind.cleared = j := Except.ok.inj h
          have habsent := Field.toJson?_eq_none_iff.mp hj
          right
          refine ⟨?_, .inr rfl⟩
          cases v with
          | null => rfl
          | unknown => exact absurd rfl hu
          | _ => exact Bool.noConfusion habsent

end Field.InSync

/-! ## Documents -/

/-- Every writable field of a document says what a state says. The values that were sent
    are within a class of values. -/
def InSyncWithin (within : Value → Prop) (sections : List Section) (document : Json)
    (root : Assoc Value) : Prop :=
  ∀ s ∈ sections, ∀ f ∈ s.fields, f.readOnly = false →
    f.InSync within (heldField? document s.remote f.remote) (s.valueIn root f)

/-- Every writable field of a document says what a state says. -/
def InSync (sections : List Section) (document : Json) (root : Assoc Value) : Prop :=
  InSyncWithin (fun _ => True) sections document root

/-- The fields of sections, each with its section. -/
def fieldsOf (sections : List Section) : List (Section × Field) :=
  sections.flatMap fun s => s.fields.map fun f => (s, f)

/-- No two fields of sections have the same remote section and the same remote name. -/
def DistinctAddresses (sections : List Section) : Prop :=
  ((fieldsOf sections).map fun e => (e.1.remote, e.2.remote)).Nodup

instance (sections : List Section) : Decidable (DistinctAddresses sections) :=
  inferInstanceAs (Decidable (List.Nodup _))

/-- The fields of sections are listed with their sections. -/
theorem mem_fieldsOf {sections : List Section} {s : Section} {f : Field}
    (hs : s ∈ sections) (hf : f ∈ s.fields) : (s, f) ∈ fieldsOf sections :=
  List.mem_flatMap.mpr ⟨s, hs, List.mem_map_of_mem hf⟩

/-- A remote address belongs to one field. -/
theorem DistinctAddresses.eq_of_address {sections : List Section}
    (h : DistinctAddresses sections) {s t : Section} {f g : Field} (hs : s ∈ sections)
    (hf : f ∈ s.fields) (ht : t ∈ sections) (hg : g ∈ t.fields)
    (hsection : t.remote = s.remote) (hfield : g.remote = f.remote) : t = s ∧ g = f := by
  have heq : (t, g) = (s, f) := by
    refine List.inj_on_of_nodup_map h (mem_fieldsOf ht hg) (mem_fieldsOf hs hf) ?_
    rw [hsection, hfield]
  exact Prod.mk.inj heq

section Merge

variable {within : Value → Prop} {W : Section → Field → Prop} {root : Assoc Value}
  {sections : List Section} {sent : Assoc Json}

/-- What a payload has for a field of its own address. -/
theorem Carries.sentAs_of_held (h : Carries W root sections sent)
    (haddr : DistinctAddresses sections) {s : Section} {f : Field} (hs : s ∈ sections)
    (hf : f ∈ s.fields) {j : Json} (hj : fieldIn? sent s.remote f.remote = some j) :
    W s f ∧ f.sentAs (s.valueIn root f) = .ok j := by
  obtain ⟨t, ht, g, hg, hsection, hfield, hW, hsent⟩ := h.written hj
  obtain ⟨rfl, rfl⟩ := haddr.eq_of_address hs hf ht hg hsection hfield
  exact ⟨hW, hsent⟩

/-- **A payload over a document**: it is in sync when the fields that are not sent were in
    sync before. -/
theorem InSyncWithin.merge (h : Carries W root sections sent)
    (haddr : DistinctAddresses sections) {document : Json}
    (hdoc : HasObjectSections document) (hin : ∀ v, NaNFree v → within v)
    (hn : NaNFree (.map root)) (hu : UnknownFree (.map root))
    (hkept : ∀ s ∈ sections, ∀ f ∈ s.fields, f.readOnly = false → ¬W s f →
      f.InSync within (heldField? document s.remote f.remote) (s.valueIn root f)) :
    InSyncWithin within sections
      (mergeDocument document (propertiesDocument sent)) root := by
  intro s hs f hf hr
  rw [heldField?_mergeDocument hdoc h.sendable]
  cases hj : fieldIn? sent s.remote f.remote with
  | some j =>
      obtain ⟨-, hsent⟩ := h.sentAs_of_held haddr hs hf hj
      have hv := Section.nanFree_valueIn (s := s) hn f
      exact .of_sentAs (hin _ hv) hv (Section.valueIn_ne_unknown hu f) hsent
  | none =>
      refine hkept s hs f hf hr ?_
      intro hW
      have hsome := h.complete s hs f hf hW
      rw [hj] at hsome
      exact Bool.noConfusion hsome

/-- What a create stores is in sync with what was created. -/
theorem InSyncWithin.create (h : Carries (fun s => s.Creates root) root sections sent)
    (haddr : DistinctAddresses sections) (hin : ∀ v, NaNFree v → within v)
    (hn : NaNFree (.map root)) (hu : UnknownFree (.map root)) :
    InSyncWithin within sections
      (mergeDocument emptyDocument (propertiesDocument sent)) root := by
  refine .merge h haddr hasObjectSections_empty hin hn hu ?_
  intro s hs f hf hr hW
  right
  have habsent : (s.valueIn root f).isAbsent = true := by
    by_contra hv
    exact hW ⟨hr, Bool.eq_false_iff.mpr hv⟩
  constructor
  · have hv := Section.valueIn_ne_unknown (s := s) hu f
    cases hcase : s.valueIn root f with
    | null => rfl
    | unknown => exact absurd hcase hv
    | _ => rw [hcase] at habsent; exact Bool.noConfusion habsent
  · left
    show heldField? (propertiesDocument []) s.remote f.remote = none
    rw [heldField?_eq (documentSections?_propertiesDocument [])]
    rfl

end Merge

/-! ## Updates -/

section Update

variable {within : Value → Prop} {sections : List Section} {prior planned : Assoc Value}
  {changes : ChangeSet}

/-- A field that an update does not take as changed did not change, when no name that is
    not in the change set did. -/
theorem unchanged_of_not_taken (hprior : NaNFree (.map prior))
    (hplanned : NaNFree (.map planned))
    (hchanges : ∀ name, changes.hasChange name = false →
      Unchanged (getOrNull prior name) (getOrNull planned name))
    {s : Section} (hblock : s.block ≠ none → s.granularity = .section) {f : Field}
    (hf : f ∈ s.fields) (hr : f.readOnly = false) (h : s.takesAsChanged changes f = false) :
    Unchanged (s.valueIn prior f) (s.valueIn planned f) := by
  rw [Section.takesAsChanged] at h
  cases hb : s.block with
  | none =>
      rw [Section.valueIn_eq_of_topLevel hb, Section.valueIn_eq_of_topLevel hb]
      refine hchanges f.name ?_
      cases hg : s.granularity with
      | field =>
          rw [hg, Section.pathOf, hb] at h
          exact h
      | «section» =>
          rw [hg, Section.wholeChanged, hb] at h
          have hnone := List.any_eq_false.mp h f hf
          rw [hr, Bool.not_false, Bool.true_and] at hnone
          exact Bool.eq_false_iff.mpr hnone
  | some block =>
      -- a block is compared as a whole
      have hg : s.granularity = .section :=
        hblock (by rw [hb]; exact Option.some_ne_none block)
      rw [hg, Section.wholeChanged, hb] at h
      exact Section.unchanged_valueIn_of_block hb hprior hplanned (hchanges block h) f

/-- A section that was not touched takes no writable field as changed. -/
theorem not_taken_of_not_touched {s : Section} (h : s.touched changes = false)
    {f : Field} (hf : f ∈ s.fields) (hr : f.readOnly = false) :
    s.takesAsChanged changes f = false := by
  rw [Section.touched] at h
  rw [Section.takesAsChanged]
  cases hg : s.granularity with
  | field =>
      rw [hg] at h
      have hnone := List.any_eq_false.mp h f hf
      rw [hr, Bool.not_false, Bool.true_and] at hnone
      exact Bool.eq_false_iff.mpr hnone
  | «section» =>
      rw [hg] at h
      exact h

/-- An update takes a document that is in sync with the prior state to one that is in sync
    with the plan, when every name that changed between them is in the change set. -/
theorem InSyncWithin.update (haddr : DistinctAddresses sections)
    (hblocks : ∀ s ∈ sections, s.block ≠ none → s.granularity = .section)
    (hin : ∀ v, NaNFree v → within v) (hprior : NaNFree (.map prior))
    (hplanned : NaNFree (.map planned)) (hknown : UnknownFree (.map planned))
    (hchanges : ∀ name, changes.hasChange name = false →
      Unchanged (getOrNull prior name) (getOrNull planned name))
    {document : Json} (hdoc : HasObjectSections document)
    (hsync : InSyncWithin within sections document prior) {payload : Option Json}
    (h : updatePayload (.map planned) sections changes = .ok payload) :
    InSyncWithin within sections
      ((payload.map (mergeDocument document)).getD document) planned := by
  -- what is not sent was in sync before, and did not change
  have hkept : ∀ s ∈ sections, ∀ f ∈ s.fields, f.readOnly = false →
      s.takesAsChanged changes f = false →
      f.InSync within (heldField? document s.remote f.remote) (s.valueIn planned f) := by
    intro s hs f hf hr htaken
    have hunchanged :=
      unchanged_of_not_taken hprior hplanned hchanges (hblocks s hs) hf hr htaken
    exact (hsync s hs f hf hr).of_unchanged (Section.nanFree_valueIn hprior f)
      (Section.nanFree_valueIn hplanned f) hunchanged
  obtain ⟨root, hroot, hcases⟩ := updatePayload_cases h
  obtain rfl : planned = root := Except.ok.inj hroot
  rcases hcases with ⟨rfl, huntouched⟩ | ⟨-, sent, rfl, hcarries⟩
  · intro s hs f hf hr
    exact hkept s hs f hf hr (not_taken_of_not_touched (huntouched s hs) hf hr)
  · refine InSyncWithin.merge hcarries haddr hdoc hin hplanned hknown ?_
    intro s hs f hf hr hW
    refine hkept s hs f hf hr ?_
    rw [Bool.eq_false_iff]
    intro htaken
    exact hW ⟨hr, .inl htaken⟩

/-- **An update by the change set between two states takes a document from one to the
    other**: put over a document that is in sync with the prior state, the payload makes
    it in sync with the plan, and without a payload it already is. -/
theorem updatePayload_keeps_inSync (haddr : DistinctAddresses sections)
    (hblocks : ∀ s ∈ sections, s.block ≠ none → s.granularity = .section)
    (hprior : NaNFree (.map prior)) (hplanned : NaNFree (.map planned))
    (hknown : UnknownFree (.map planned)) {document : Json}
    (hdoc : HasObjectSections document) (hsync : InSync sections document prior)
    {payload : Option Json}
    (h : updatePayload (.map planned) sections (between (.map prior) (.map planned)) =
      .ok payload) :
    InSync sections ((payload.map (mergeDocument document)).getD document) planned := by
  refine InSyncWithin.update haddr hblocks (fun _ _ => trivial) hprior hplanned
    hknown ?_ hdoc hsync h
  intro name hname
  have hv : getOrNull (Value.map planned).root name ≠ .unknown :=
    (everywhere_getOrNull (everywhere_map.mp hknown).2 (fun hn => nomatch hn) name).here
  exact unchanged_of_not_hasChange hv hname

/-- A block is removed: its section is cleared in a document that holds it. -/
theorem removed_block_inSync :
    let sections := [Section.inBlock "log" "log" [.string "format", .bool "enabled"]]
    let prior := [("log", Value.list [.map [("format", .string "%h")]])]
    let document := propertiesDocument [("log", .object [("format", .string "%h")])]
    ∃ payload, updatePayload (.map []) sections (between (.map prior) (.map [])) =
      .ok (some payload) ∧
      InSync sections (mergeDocument document payload) [] := by
  intro sections prior document
  have hupdate : updatePayload (.map []) sections (between (.map prior) (.map [])) =
      .ok (some (propertiesDocument
        [("log", .object [("enabled", .bool false), ("format", .string "")])])) := by rfl
  have hblocks : ∀ s ∈ sections, s.block ≠ none → s.granularity = .section := by
    simp [sections, Section.inBlock]
  have hdoc : HasObjectSections document := by
    refine ⟨_, documentSections?_propertiesDocument _, ?_⟩
    intro name j hj
    rw [Assoc.get?_cons] at hj
    split at hj
    · exact ⟨_, (Option.some.inj hj).symm⟩
    · exact nomatch hj
  have hsync : InSync sections document prior := by
    intro s hs f hf _
    obtain rfl := List.mem_singleton.mp hs
    rcases List.mem_cons.mp hf with rfl | hf
    · exact .inl ⟨.string "%h", .string "%h", trivial, rfl, rfl, rfl⟩
    · obtain rfl := List.mem_singleton.mp hf
      exact .inr ⟨rfl, .inl rfl⟩
  have hafter := updatePayload_keeps_inSync (by decide) hblocks (by decide) (by decide)
      (by decide) hdoc hsync hupdate
  exact ⟨_, hupdate, hafter⟩

end Update

end TrafficConfig
