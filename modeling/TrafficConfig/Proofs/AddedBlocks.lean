import TrafficConfig.Proofs.Marks
import TrafficConfig.Proofs.UnknownPlans

/-!
# What a change set reports of an added block

A plan adds a block when the prior state has no instance of it, and the plan has one. The
change set decides by itself what the absence and the presence of a block look like, and it
takes fewer values for them than payloads do:

* **`AddsBlock`** — the prior state has no instance of a block, the plan has one;
* **`LooksInside`** — the change set looks inside the block: its absence was recorded as no
  value or as an unknown one, not as an empty collection, and its instance does not stand in
  a set;
* **`AddsBlock.hasChange_below`**, **`AddsBlock.hasChange_below_iff`** — then it reports every
  attribute that the instance sets, and, where names have no points, only then;
* **`added_block_reported`** — so a section that takes single fields sends a field of an added
  block if and only if the change set looks inside, or the field is always sent;
* **`added_block_unreported`** — after an empty list, an added block is reported without its
  attributes.
-/

namespace TrafficConfig

open Value ChangeSet

/-- A plan adds a block: the prior state has no instance of it, and the plan has one. -/
structure AddsBlock (prior planned : Value) (block : String) (entries : Assoc Value) : Prop where
  absent : Section.instance? prior.root block = .ok none
  present : Section.instance? planned.root block = .ok (some entries)

/-- A value that counts as set: it is known, and neither null nor an empty collection. -/
def Value.IsSet (v : Value) : Prop := v ≠ .unknown ∧ isBlank v = false

/-- A change set looks inside a block that is added: the prior state has no value for it, or an
    unknown one, and no empty collection; and the plan has its instance in no set. -/
def LooksInside (prior planned : Value) (block : String) : Prop :=
  (getOrNull prior.root block).isAbsent = true ∧ (getOrNull planned.root block).kindName ≠ "set"

/-- What is set is not absent. -/
theorem Value.IsSet.isAbsent {v : Value} (h : v.IsSet) : v.isAbsent = false := by
  obtain ⟨hu, hb⟩ := h
  cases v with
  | unknown => exact absurd rfl hu
  | null => exact Bool.noConfusion hb
  | _ => rfl

/-- A value that is set differs from one that is absent. -/
theorem differs_of_isAbsent {before after : Value} (hbefore : before.isAbsent = true)
    (hafter : after.IsSet) : differs before after = true := by
  rw [← Bool.not_eq_false, differs_eq_false_iff hafter.1]
  rintro (hequal | ⟨-, hblank⟩)
  · rw [isAbsent_eq_of_equals hequal, hafter.isAbsent] at hbefore
    exact Bool.noConfusion hbefore
  · exact Bool.noConfusion (hafter.2.symm.trans hblank)

namespace AddsBlock

variable {prior planned : Value} {block : String} {entries : Assoc Value}
  (h : AddsBlock prior planned block entries)
include h

/-- An added block is among the names of both roots. -/
theorem mem_namesOf : block ∈ namesOf prior.root planned.root := by
  rw [ChangeSet.mem_namesOf, ← Assoc.get?_isSome, ← Assoc.get?_isSome]
  right
  cases hget : Assoc.get? planned.root block with
  | some v => rfl
  | none =>
      have hpresent := h.present
      rw [Section.instance?, hget] at hpresent
      cases hpresent

/-- An added block is set in the plan. -/
theorem isSet : (getOrNull planned.root block).IsSet := by
  rcases Section.instance?_eq_some_iff.mp h.present with hv | hv | hv <;>
    rw [hv] <;> exact ⟨nofun, rfl⟩

private theorem singleBlock?_eq (hinside : LooksInside prior planned block) :
    singleBlock? (getOrNull planned.root block) = some entries := by
  have hkind := hinside.2
  rcases Section.instance?_eq_some_iff.mp h.present with hv | hv | hv
  · rw [hv]
    rfl
  · rw [hv]
    rfl
  · rw [hv] at hkind
    exact absurd rfl hkind

private theorem singleBlock?_eq_none : singleBlock? (getOrNull prior.root block) = none := by
  rcases Section.instance?_eq_none_iff.mp h.absent with hv | hv | hv | hv <;> rw [hv] <;> rfl

private theorem innerBlocks?_eq (hinside : LooksInside prior planned block) :
    innerBlocks? (getOrNull prior.root block) (getOrNull planned.root block) =
      some ([], entries) := by
  rw [innerBlocks?, h.singleBlock?_eq_none, h.singleBlock?_eq hinside]
  exact if_pos hinside.1

private theorem innerBlocks?_eq_none (hoverlooks : ¬ LooksInside prior planned block) :
    innerBlocks? (getOrNull prior.root block) (getOrNull planned.root block) = none := by
  rw [innerBlocks?, h.singleBlock?_eq_none]
  cases hsingle : singleBlock? (getOrNull planned.root block) with
  | none => rfl
  | some inner =>
      refine if_neg fun habsent => hoverlooks ⟨habsent, ?_⟩
      rcases singleBlock?_cases hsingle with hv | hv <;> simp [hv, kindName]

/-- **An attribute that an added block sets is reported** when the change set looks inside. -/
theorem hasChange_below (hinside : LooksInside prior planned block) {name : String} {v : Value}
    (hv : Assoc.get? entries name = some v) (hset : v.IsSet) :
    (between prior planned).hasChange (below block name) = true := by
  have hentry : differs (getOrNull [] name) (getOrNull entries name) = true := by
    rw [getOrNull_of_get? hv]
    exact differs_of_isAbsent rfl hset
  refine hasChange_between_iff_changedAt.mpr ⟨block, [name], ?_, self_mem_stems _⟩
  exact .inside (differs_of_isAbsent hinside.1 h.isSet) (h.innerBlocks?_eq hinside) (.here hentry)

/-- **It is reported only then**, when no name in the roots has a point. -/
theorem hasChange_below_iff (hroots : DotlessRoots prior planned) {name : String} {v : Value}
    (hv : Assoc.get? entries name = some v) (hset : v.IsSet) :
    (between prior planned).hasChange (below block name) = true ↔
      LooksInside prior planned block := by
  refine ⟨fun hchange => ?_, fun hinside => h.hasChange_below hinside hv hset⟩
  by_contra hoverlooks
  obtain ⟨key, hkey, path, hmem, hpath⟩ := hasChange_between.mp hchange
  have hblock : block.toList ∈ stems (below block name).toList :=
    mem_stems.mpr (.inr ⟨name.toList, toList_below block name⟩)
  obtain rfl := hroots.eq_of_mem_changesWithin (hroots block h.mem_namesOf) hblock hpath hkey hmem
  -- the block itself is all that is reported
  rcases mem_changesWithin hmem with rfl | ⟨m, b, a, other, -, hinner, -, -⟩
  · exact below_not_mem_stems _ name hpath
  · exact nomatch (h.innerBlocks?_eq_none hoverlooks).symm.trans hinner

/-! ### Sections that take single fields -/

variable {s : Section} {f : Field}

/-- The value of a field in an added block is the entry of its instance. -/
theorem valueIn_eq (hb : s.block = some block) {v : Value}
    (hv : Assoc.get? entries f.name = some v) : s.valueIn planned.root f = v := by
  rw [Section.valueIn_of_ok (Section.valuesIn_inBlock hb h.present)]
  show (Assoc.get? entries f.name).getD .null = v
  rw [hv]
  rfl

/-- When an update has an entry for a field that an added block sets. -/
theorem writes_iff (hb : s.block = some block) (hg : s.granularity = .field)
    (hr : f.readOnly = false) {v : Value} (hv : Assoc.get? entries f.name = some v)
    (hset : v.IsSet) (changes : ChangeSet) :
    s.Writes planned.root changes f ↔
      changes.hasChange (below block f.name) = true ∨ f.alwaysSent = true := by
  have hpath : s.pathOf f = below block f.name := by
    rw [Section.pathOf, hb]
    rfl
  rw [Section.Writes, Section.takesAsChanged, hg, hpath, h.valueIn_eq hb hv, hset.isAbsent]
  simp [hr]

end AddsBlock

/-- **What an added block reports, and what is sent of it.** Every attribute that its instance
    sets is reported when the change set looks inside the block, and, where no name in the roots
    has a point, only then. An update by this change set sends every writable field of the block
    that is set and reported, if the section takes single fields; where no other field has its
    remote address, the field is in the payload if and only if it is reported or always sent,
    as what its value is sent as. -/
theorem added_block_reported {prior planned : Value} {block : String} {entries : Assoc Value}
    (h : AddsBlock prior planned block entries) {name : String} {v : Value}
    (hv : Assoc.get? entries name = some v) (hset : v.IsSet) :
    (LooksInside prior planned block →
      (between prior planned).hasChange (below block name) = true) ∧
    (DotlessRoots prior planned →
      ((between prior planned).hasChange (below block name) = true ↔
        LooksInside prior planned block)) ∧
    ∀ (sections : List Section) (result : Option Json),
      updatePayload planned sections (between prior planned) = .ok result →
      ∀ s ∈ sections, s.block = some block → s.granularity = .field →
      ∀ f ∈ s.fields, f.name = name → f.readOnly = false →
        (LooksInside prior planned block → ∃ payload, result = some payload ∧
          (heldField? payload s.remote f.remote).isSome = true) ∧
        (DistinctAddresses sections → ∀ payload, result = some payload →
          (∀ j, heldField? payload s.remote f.remote = some j → f.kind.toJson name v = .ok j) ∧
          (DotlessRoots prior planned →
            ((heldField? payload s.remote f.remote).isSome = true ↔
              LooksInside prior planned block ∨ f.alwaysSent = true))) := by
  refine ⟨fun hinside => h.hasChange_below hinside hv hset,
    fun hroots => h.hasChange_below_iff hroots hv hset, ?_⟩
  rintro sections result hupdate s hs hb hg f hf rfl hr
  have hwrites := h.writes_iff hb hg hr hv hset (between prior planned)
  have hvalue := h.valueIn_eq hb hv (s := s)
  obtain ⟨root, hroot, hcases⟩ := updatePayload_cases hupdate
  obtain rfl := configRoot_eq hroot
  have hheld : ∀ {sent name field}, heldField? (propertiesDocument sent) name field =
      fieldIn? sent name field := fun {sent name field} =>
    heldField?_eq (documentSections?_propertiesDocument sent) name field
  constructor
  · intro hinside
    have hchange := h.hasChange_below hinside hv hset
    rcases hcases with ⟨-, huntouched⟩ | ⟨-, sent, rfl, hcarries⟩
    · -- the section is touched by the field
      have htouched := huntouched s hs
      rw [Section.touched, hg, List.any_eq_false] at htouched
      refine absurd ?_ (htouched f hf)
      rw [hr, Section.pathOf, hb]
      exact hchange
    · refine ⟨_, rfl, ?_⟩
      rw [hheld]
      exact hcarries.complete s hs f hf (hwrites.mpr (.inl hchange))
  · rintro haddr payload rfl
    obtain ⟨hnone, -⟩ | ⟨-, sent, hsome, hcarries⟩ := hcases
    · cases hnone
    obtain rfl := Option.some.inj hsome
    constructor
    · intro j hj
      rw [hheld] at hj
      obtain ⟨-, hsent⟩ := hcarries.sentAs_of_held haddr hs hf hj
      rwa [hvalue, Field.sentAs_of_present hset.isAbsent] at hsent
    · intro hroots
      rw [hheld, ← h.hasChange_below_iff hroots hv hset, ← hwrites]
      constructor
      · intro hsome
        obtain ⟨j, hj⟩ := Option.isSome_iff_exists.mp hsome
        exact (hcarries.sentAs_of_held haddr hs hf hj).1
      · exact hcarries.complete s hs f hf

section Issuers

/-- A block that takes single fields. -/
private def ssl : Section :=
  { block := some "ssl", remote := "ssl", fields := [.string "issuer", .bool "ocsp_enable"],
    granularity := .field }

/-- The block was never configured. -/
private def unsecured : Value := .map []

/-- The block was configured with an empty list. -/
private def emptied : Value := .map [("ssl", .list [])]

private def issued : Assoc Value := [("issuer", .string "internal")]

/-- A plan that adds the block, with an issuer. -/
private def secured : Value := .map [("ssl", .list [.map issued])]

private theorem isSet_internal : (Value.string "internal").IsSet := ⟨nofun, rfl⟩

private theorem addsBlock_unsecured : AddsBlock unsecured secured "ssl" issued := ⟨rfl, rfl⟩

private theorem addsBlock_emptied : AddsBlock emptied secured "ssl" issued := ⟨rfl, rfl⟩

private def securing : Json :=
  propertiesDocument [("ssl", .object [("issuer", .string "internal")])]

/-- A block that was never configured is added with its issuer, and the issuer is sent. -/
theorem added_issuer_reported : AddsBlock unsecured secured "ssl" issued ∧
    (between unsecured secured).hasChange "ssl.issuer" = true ∧
      updatePayload secured [ssl] (between unsecured secured) = .ok (some securing) ∧
        (heldField? securing "ssl" "issuer").isSome = true := by
  have hupdate : updatePayload secured [ssl] (between unsecured secured) =
      .ok (some securing) := by rfl
  have hissuer : Assoc.get? issued "issuer" = some (.string "internal") := rfl
  obtain ⟨hreported, -, hsent⟩ := added_block_reported addsBlock_unsecured hissuer isSet_internal
  have hinside : LooksInside unsecured secured "ssl" := ⟨rfl, by decide⟩
  obtain ⟨payload, hpayload, hheld⟩ := (hsent [ssl] _ hupdate ssl List.mem_cons_self rfl rfl
    (.string "issuer") List.mem_cons_self rfl rfl).1 hinside
  obtain rfl := Option.some.inj hpayload
  exact ⟨addsBlock_unsecured, hreported hinside, hupdate, hheld⟩

/-- **An added block may be reported without its attributes**: the block was an empty list. -/
theorem added_block_unreported :
    ¬ ∀ (prior planned : Value) (block : String) (entries : Assoc Value),
      AddsBlock prior planned block entries → ∀ name v, Assoc.get? entries name = some v →
        v.IsSet → (between prior planned).hasChange (below block name) = true := by
  intro hclaim
  have hreported :=
    hclaim emptied secured "ssl" issued addsBlock_emptied "issuer" _ rfl isSet_internal
  have hunreported : (between emptied secured).hasChange (below "ssl" "issuer") = false := by
    decide +kernel
  exact Bool.noConfusion (hreported.symm.trans hunreported)

end Issuers

end TrafficConfig
