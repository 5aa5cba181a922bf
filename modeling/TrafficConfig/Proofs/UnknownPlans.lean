import TrafficConfig.Catalog.TrafficManager.Sections
import TrafficConfig.Proofs.Sync

/-!
# What an update does to a field that the plan leaves unknown

A value that only the apply will bring is no change, so a section that takes single fields
leaves such a field alone. A section that is replaced as a whole does not:

* **`Section.LeavesUnknown`** — a plan leaves a field unknown: its own value is unknown,
  or its whole block is;
* **`LeavesUnknown.writes_iff`** — the update has an entry for the field only when the
  section is replaced as a whole. The fields must be told apart by their paths, as names
  without points are;
* **`heldField?_of_unknown`** — that entry is the cleared value, so the remote side loses
  what it held.
-/

namespace TrafficConfig

open Value ChangeSet

/-- No block and no field of sections has a name with a point. -/
def DotlessSections (sections : List Section) : Prop :=
  ∀ s ∈ sections, (∀ block ∈ s.block, Dotless block) ∧ ∀ f ∈ s.fields, Dotless f.name

instance (sections : List Section) : Decidable (DotlessSections sections) :=
  inferInstanceAs (Decidable (∀ s ∈ sections, _ ∧ ∀ f ∈ s.fields, _))

namespace Section

/-- A state leaves a field unknown: its value is unknown, or the whole block is. -/
def LeavesUnknown (s : Section) (root : Assoc Value) (f : Field) : Prop :=
  s.valueIn root f = .unknown ∨ ∃ block ∈ s.block, getOrNull root block = .unknown

variable {s : Section} {f : Field}

/-- What is unknown is absent. -/
theorem LeavesUnknown.isAbsent {root : Assoc Value} (h : s.LeavesUnknown root f) :
    (s.valueIn root f).isAbsent = true := by
  rcases h with h | ⟨block, hb, hu⟩
  · rw [h]
    rfl
  · rw [valueIn_eq_of_inBlock hb, hu]
    rfl

/-- A field that is left unknown is sent as cleared, if it is sent. -/
theorem LeavesUnknown.sentAs {root : Assoc Value} (h : s.LeavesUnknown root f) :
    f.sentAs (s.valueIn root f) = .ok f.kind.cleared := by
  rw [Field.sentAs, Field.toJson?_of_absent h.isAbsent]
  rfl

variable {prior planned : Value}

/-- The path of a field that is left unknown is not reported. -/
theorem LeavesUnknown.not_hasChange (h : s.LeavesUnknown planned.root f)
    (hblock : ∀ block ∈ s.block, Dotless block) (hname : Dotless f.name)
    (hprior : DotlessNames prior) (hplanned : DotlessNames planned) :
    (between prior planned).hasChange (s.pathOf f) = false := by
  rw [pathOf]
  cases hb : s.block with
  | none =>
      rcases h with h | ⟨block, hblock, -⟩
      · rw [valueIn_eq_of_topLevel hb] at h
        exact not_hasChange_of_unknown hprior hplanned hname h
      · rw [hb] at hblock
        cases hblock
  | some block =>
      have hdotless := hblock block (by rw [hb]; rfl)
      show (between prior planned).hasChange (below block f.name) = false
      rcases h with h | ⟨other, hother, hu⟩
      · rw [valueIn_eq_of_inBlock hb] at h
        refine not_hasChange_below_of_unknown hprior hplanned hdotless hname (.inr ?_) ?_
        · intro entries he
          rcases singleBlock?_cases he with hv | hv <;> rw [hv] at h <;> exact h
        · cases hv : getOrNull planned.root block with
          | null => rw [hv] at h; cases h
          | _ => rfl
      · obtain rfl : block = other := Option.some.inj (hb.symm.trans hother)
        refine not_hasChange_below_of_unknown hprior hplanned hdotless hname (.inl hu) ?_
        rw [hu]
        rfl

/-- **When an update has an entry for a field that the plan leaves unknown**: when its
    section is replaced as a whole, and anything in it changed. -/
theorem LeavesUnknown.writes_iff (h : s.LeavesUnknown planned.root f)
    (hr : f.readOnly = false) (hblock : ∀ block ∈ s.block, Dotless block)
    (hname : Dotless f.name) (hprior : DotlessNames prior)
    (hplanned : DotlessNames planned) : s.Writes planned.root (between prior planned) f ↔
      s.granularity = .section ∧ s.wholeChanged (between prior planned) = true := by
  rw [Writes, takesAsChanged]
  cases hg : s.granularity with
  | field =>
      constructor
      · -- a field that is taken by itself is neither reported nor present
        rintro ⟨-, hchanged | ⟨-, -, hpresent⟩⟩
        · rw [h.not_hasChange hblock hname hprior hplanned] at hchanged
          exact Bool.noConfusion hchanged
        · rw [h.isAbsent] at hpresent
          exact Bool.noConfusion hpresent
      · rintro ⟨hsection, -⟩
        cases hsection
  | «section» =>
      constructor
      · rintro ⟨-, hchanged | ⟨hfield, -⟩⟩
        · exact ⟨rfl, hchanged⟩
        · cases hfield
      · rintro ⟨-, hchanged⟩
        exact ⟨hr, .inl hchanged⟩

end Section

/-- The root of a configuration is what change sets compare. -/
theorem configRoot_eq {config : Value} {root : Assoc Value}
    (h : configRoot config = .ok root) : config.root = root := by
  cases config with
  | map entries => exact Except.ok.inj h
  | null => exact Except.ok.inj h
  | _ => exact nomatch h

/-- **A field that the plan leaves unknown, in an update**: the payload has an entry for
    it only if some field of its remote address is written. Where addresses are distinct
    and names have no points, this is the field itself, exactly when its section is
    replaced as a whole and anything in it changed; then it is sent as cleared. In every
    other case the document keeps what it held. -/
theorem heldField?_of_unknown {sections : List Section} {prior planned : Value}
    {payload : Json}
    (h : updatePayload planned sections (between prior planned) = .ok (some payload))
    {s : Section} {f : Field} (hs : s ∈ sections) (hf : f ∈ s.fields)
    (hr : f.readOnly = false) (hu : s.LeavesUnknown planned.root f) :
    ((heldField? payload s.remote f.remote).isSome = true ↔
      ∃ t ∈ sections, ∃ g ∈ t.fields, t.remote = s.remote ∧ g.remote = f.remote ∧
        t.Writes planned.root (between prior planned) g) ∧
    (DistinctAddresses sections → DotlessSections sections → DotlessNames prior →
      DotlessNames planned →
      heldField? payload s.remote f.remote =
        if s.granularity = .section ∧ s.wholeChanged (between prior planned) = true
          then some f.kind.cleared else none) ∧
    ∀ document, HasObjectSections document →
      heldField? (mergeDocument document payload) s.remote f.remote =
        (heldField? payload s.remote f.remote).or
          (heldField? document s.remote f.remote) := by
  obtain ⟨root, hroot, ⟨hnone, -⟩ | ⟨-, sent, hsome, hcarries⟩⟩ := updatePayload_cases h
  · exact nomatch hnone
  obtain rfl := configRoot_eq hroot
  obtain rfl := Option.some.inj hsome
  have hheld : ∀ name field, heldField? (propertiesDocument sent) name field =
      fieldIn? sent name field :=
    heldField?_eq (documentSections?_propertiesDocument sent)
  refine ⟨?_, ?_, ?_⟩
  · rw [hheld]
    constructor
    · intro hsome
      obtain ⟨j, hj⟩ := Option.isSome_iff_exists.mp hsome
      obtain ⟨t, ht, g, hg, hsection, hfield, hwrites, -⟩ := hcarries.written hj
      exact ⟨t, ht, g, hg, hsection, hfield, hwrites⟩
    · rintro ⟨t, ht, g, hg, hsection, hfield, hwrites⟩
      rw [← hsection, ← hfield]
      exact hcarries.complete t ht g hg hwrites
  · intro haddr hnames hprior hplanned
    obtain ⟨hblock, hname⟩ := hnames s hs
    have hwrites := hu.writes_iff hr hblock (hname f hf) hprior hplanned
    rw [hheld]
    -- the address is that of the field alone, so what is found there was written for it
    by_cases hwhole : s.granularity = .section ∧
      s.wholeChanged (between prior planned) = true
    · rw [if_pos hwhole]
      obtain ⟨j, hj⟩ := Option.isSome_iff_exists.mp
          (hcarries.complete s hs f hf (hwrites.mpr hwhole))
      obtain ⟨-, hsent⟩ := hcarries.sentAs_of_held haddr hs hf hj
      rw [hj, Except.ok.inj (hsent.symm.trans hu.sentAs)]
    · rw [if_neg hwhole]
      cases hj : fieldIn? sent s.remote f.remote with
      | none => rfl
      | some j =>
          exact absurd (hwrites.mp (hcarries.sentAs_of_held haddr hs hf hj).1) hwhole
  · intro document hdoc
    rw [hheld]
    exact heldField?_mergeDocument hdoc hcarries.sendable s.remote f.remote

section BindAddress

open Catalog.TrafficManager

/-- A cluster member with both of its addresses. -/
private def addressed : Value :=
  .map [("cluster_comms",
    .list [.map [("bind_ip", .string "10.0.0.1"), ("external_ip", .string "192.0.2.1")]])]

/-- Another external address, with a bind address that only the apply will bring. -/
private def readdressed : Value :=
  .map [("cluster_comms",
    .list [.map [("bind_ip", .unknown), ("external_ip", .string "192.0.2.2")]])]

private def readdressing : Json :=
  propertiesDocument
    [("cluster_comms", .object [("allow_update", .bool false), ("bind_ip", .string ""),
    ("external_ip", .string "192.0.2.2"), ("port", .int 0)])]

private theorem updatePayload_readdressed :
    updatePayload readdressed [clusterComms] (between addressed readdressed) =
      .ok (some readdressing) := by rfl

private theorem leavesUnknown_bind_ip :
    clusterComms.LeavesUnknown readdressed.root (.string "bind_ip") := .inl rfl

/-- The bind address that the remote side held is lost. -/
theorem heldField?_bind_ip :
    heldField? readdressing "cluster_comms" "bind_ip" = some (.string "") := by
  have hheld := (heldField?_of_unknown updatePayload_readdressed List.mem_cons_self
      (List.mem_cons_of_mem _ List.mem_cons_self)
    rfl leavesUnknown_bind_ip).2.1 (by decide) (by decide) (by decide) (by decide)
  rw [if_pos ⟨rfl, by decide⟩] at hheld
  exact hheld

/-- **An update may overwrite what the plan leaves unknown.** -/
theorem update_overwrites_unknown :
    ¬∀ (sections : List Section) (prior planned : Value) (payload : Json),
      updatePayload planned sections (between prior planned) = .ok (some payload) →
        ∀ s ∈ sections, ∀ f ∈ s.fields, f.readOnly = false →
          s.LeavesUnknown planned.root f →
          heldField? payload s.remote f.remote = none := by
  intro hclaim
  have hnone := hclaim [clusterComms] addressed readdressed readdressing
      updatePayload_readdressed clusterComms
    List.mem_cons_self (.string "bind_ip") (List.mem_cons_of_mem _ List.mem_cons_self) rfl
      leavesUnknown_bind_ip
  have hheld : heldField? readdressing "cluster_comms" "bind_ip" =
      some (.string "") := by rfl
  exact nomatch hheld.symm.trans hnone

end BindAddress

end TrafficConfig
