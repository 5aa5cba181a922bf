import TrafficConfig.Proofs.Declared
import TrafficConfig.Proofs.Instances
import TrafficConfig.Resource

/-!
# The state of a fetched document

Sections are put over a prior state one after the other, each read with the same prior:

* **`Section.rootNames`**, **`DistinctNames`** — the names that a section puts into the
  root, and that no two do;
* **`overlaySections_eq_ok_iff`** — what the sections put into the root, all of it read
  with one prior, is written over the state;
* **`get?_overlaySections`** — a name of a section has what the section puts there, every
  other name what was there before;
* **`get?_stateOfDocument_topLevel`**, **`get?_stateOfDocument_inBlock`** — the same in
  terms of fields and blocks.
-/

namespace TrafficConfig

open Value

/-- The names that a section puts into the root: those of its fields, or that of its
    block. -/
def Section.rootNames (s : Section) : List String :=
  match s.block with
  | some block => [block]
  | none => s.fields.map (·.name)

/-- No two sections, and no two fields of a section, have one name; none is called like
    the identity. -/
structure DistinctNames (sections : List Section) : Prop where
  root : ("name" :: sections.flatMap Section.rootNames).Nodup
  fields : ∀ s ∈ sections, (s.fields.map (·.name)).Nodup

instance (sections : List Section) : Decidable (DistinctNames sections) :=
  decidable_of_iff (("name" :: sections.flatMap Section.rootNames).Nodup ∧ ∀ s ∈ sections,
    (s.fields.map (·.name)).Nodup)
    ⟨fun h => ⟨h.1, h.2⟩, fun h => ⟨h.root, h.fields⟩⟩

/-- The remote section of a document; one that is missing has no fields. -/
abbrev Section.heldIn (s : Section) (document : Json) : Assoc Json :=
  (documentSection? document s.remote).getD []

/-- What a document holds for a section is what it holds under the name of the section. -/
theorem get?_heldIn (s : Section) (document : Json) (field : String) :
    Assoc.get? (s.heldIn document) field = heldField? document s.remote field := by
  rw [Section.heldIn, heldField?]
  cases documentSection? document s.remote <;> rfl

/-! ## One section -/

section OneSection

variable {s : Section} {remote : Option (Assoc Json)} {prior values : Assoc Value}

/-- What a section without a block puts into the root. -/
theorem toDeclaredInRoot_of_topLevel (hb : s.block = none) :
    s.toDeclaredInRoot remote prior = s.toDeclared (remote.getD []) (some prior) := by
  rw [Section.toDeclaredInRoot, hb]

/-- What a section with a block puts into the root: the block as it was, or with an
    instance that was read. -/
theorem toDeclaredInRoot_of_inBlock {block : String} (hb : s.block = some block)
    (h : s.toDeclaredInRoot remote prior = .ok values) :
    ∃ found, Section.instance? prior block = .ok found ∧
      if (remote.getD []).isEmpty || (found.isNone && s.isCleared (remote.getD [])) then
        values = (Assoc.get? prior block).toList.map fun v => (block, v)
      else ∃ read, s.toDeclared (remote.getD []) found = .ok read ∧
        values = [(block, .list [.map read])] := by
  rw [Section.toDeclaredInRoot, hb] at h
  obtain ⟨found, hfound, h⟩ := Except.bind_eq_ok h
  refine ⟨found, hfound, ?_⟩
  by_cases hkept : ((remote.getD []).isEmpty ||
    (found.isNone && s.isCleared (remote.getD []))) = true
  · rw [if_pos hkept] at h ⊢
    exact (Except.ok.inj h).symm
  · rw [if_neg hkept] at h ⊢
    obtain ⟨read, hread, h⟩ := Except.bind_eq_ok h
    exact ⟨read, hread, (Except.ok.inj h).symm⟩

/-- What a section puts into the root is in ascending order, and under its own names
    only. -/
theorem toDeclaredInRoot_shape (h : s.toDeclaredInRoot remote prior = .ok values) :
    Assoc.Sorted values ∧ ∀ q, q ∉ s.rootNames → Assoc.get? values q = none := by
  cases hb : s.block with
  | none =>
      rw [toDeclaredInRoot_of_topLevel hb, Section.toDeclared] at h
      obtain ⟨entries, hentries, rfl⟩ := Except.map_eq_ok h
      refine ⟨Assoc.sorted_ofEntries entries, fun q hq =>
        get?_declared_eq_none hentries fun f hf hname => hq ?_⟩
      rw [Section.rootNames, hb, ← hname]
      exact List.mem_map_of_mem hf
  | some block =>
      obtain ⟨found, -, h⟩ := toDeclaredInRoot_of_inBlock hb h
      have hone : values = [] ∨ ∃ v, values = [(block, v)] := by
        split at h
        · rw [h]
          cases Assoc.get? prior block with
          | none => exact .inl rfl
          | some v => exact .inr ⟨v, rfl⟩
        · obtain ⟨read, -, h⟩ := h
          exact .inr ⟨_, h⟩
      rcases hone with rfl | ⟨v, rfl⟩
      · exact ⟨List.Pairwise.nil, fun _ _ => rfl⟩
      · refine ⟨List.pairwise_singleton _ _, ?_⟩
        intro q hq
        rw [Section.rootNames, hb, List.mem_singleton] at hq
        rw [Assoc.get?_cons, if_neg (Ne.symm hq), Assoc.get?_nil]

end OneSection

/-- What was read from a section under the name of a field is what the field brings. -/
theorem Section.declared?_of_toDeclared {s : Section} {remote : Assoc Json}
    {values : Assoc Value} {prior : Option (Assoc Value)}
    (h : s.toDeclared remote prior = .ok values) (hn : (s.fields.map (·.name)).Nodup)
    {f : Field} (hf : f ∈ s.fields) :
    f.declared? remote prior = .ok (Assoc.get? values f.name) := by
  obtain ⟨entries, hentries, rfl⟩ := Except.map_eq_ok h
  exact get?_declared_of_mem hentries hn hf

/-! ## All sections -/

section Overlay

variable {document : Json} {prior : Assoc Value} {sections : List Section}
  {state after : Assoc Value}

private theorem overlaySections_cons {s : Section} {rest : List Section}
    (h : overlaySections document prior (s :: rest) state = .ok after) :
    ∃ values, s.toDeclaredInRoot (documentSection? document s.remote) prior = .ok values ∧
      overlaySections document prior rest (Assoc.insertAll state values) = .ok after :=
  Except.bind_eq_ok h

/-- **All sections are read with the same prior**, and put over a state one after the
    other. -/
theorem overlaySections_eq_ok_iff :
    overlaySections document prior sections state = .ok after ↔
      ∃ written, List.Forall₂ (fun s values =>
          s.toDeclaredInRoot (documentSection? document s.remote) prior = .ok values)
            sections written ∧
        after = Assoc.insertAll state written.flatten := by
  induction sections generalizing state with
  | nil =>
      constructor
      · intro h
        exact ⟨[], .nil, (Except.ok.inj h).symm⟩
      · rintro ⟨written, hwritten, rfl⟩
        cases hwritten
        rfl
  | cons s rest ih =>
      constructor
      · intro h
        obtain ⟨values, hvalues, h⟩ := overlaySections_cons h
        obtain ⟨written, hwritten, rfl⟩ := ih.mp h
        refine ⟨values :: written, .cons hvalues hwritten, ?_⟩
        rw [List.flatten_cons, Assoc.insertAll_append]
      · rintro ⟨written, hwritten, hafter⟩
        cases hwritten with
        | cons hvalues hwritten =>
            rw [List.flatten_cons, Assoc.insertAll_append] at hafter
            rw [overlaySections, hvalues]
            exact ih.mpr ⟨_, hwritten, hafter⟩

/-- All sections are put over a state when each of them can be read. -/
theorem exists_overlaySections (state : Assoc Value)
    (h : ∀ s ∈ sections, ∃ values,
      s.toDeclaredInRoot (documentSection? document s.remote) prior = .ok values) :
    ∃ after, overlaySections document prior sections state = .ok after := by
  induction sections generalizing state with
  | nil => exact ⟨state, rfl⟩
  | cons s rest ih =>
      rw [List.forall_mem_cons] at h
      obtain ⟨values, hvalues⟩ := h.1
      rw [overlaySections, hvalues]
      exact ih _ h.2

/-- Overlaying sections keeps the names of a state in order. -/
theorem sorted_overlaySections
    (h : overlaySections document prior sections state = .ok after)
    (hs : Assoc.Sorted state) : Assoc.Sorted after := by
  induction sections generalizing state with
  | nil =>
      obtain rfl := Except.ok.inj h
      exact hs
  | cons s rest ih =>
      obtain ⟨values, -, h⟩ := overlaySections_cons h
      exact ih h (Assoc.sorted_insertAll hs values)

/-- A name that no section puts into the root has what was there before. -/
theorem get?_overlaySections_of_not_mem
    (h : overlaySections document prior sections state = .ok after) {q : String}
    (hq : q ∉ sections.flatMap Section.rootNames) :
    Assoc.get? after q = Assoc.get? state q := by
  induction sections generalizing state with
  | nil =>
      obtain rfl := Except.ok.inj h
      rfl
  | cons s rest ih =>
      obtain ⟨values, hvalues, h⟩ := overlaySections_cons h
      obtain ⟨hsorted, hnone⟩ := toDeclaredInRoot_shape hvalues
      rw [List.flatMap_cons, List.mem_append, not_or] at hq
      rw [ih h hq.2, Assoc.get?_insertAll_of_sorted state hsorted,
        hnone q hq.1, Option.none_or]

/-- **A name of a section has what the section puts there**, or else what was there
    before. -/
theorem get?_overlaySections
    (h : overlaySections document prior sections state = .ok after)
    (hn : (sections.flatMap Section.rootNames).Nodup) {s : Section} (hs : s ∈ sections) :
    ∃ values, s.toDeclaredInRoot (documentSection? document s.remote) prior = .ok values ∧
      ∀ q ∈ s.rootNames,
        Assoc.get? after q = (Assoc.get? values q).or (Assoc.get? state q) := by
  induction sections generalizing state with
  | nil => exact nomatch hs
  | cons t rest ih =>
      obtain ⟨written, hwritten, hlater⟩ := overlaySections_cons h
      obtain ⟨hsorted, hnone⟩ := toDeclaredInRoot_shape hwritten
      rw [List.flatMap_cons, List.nodup_append] at hn
      obtain ⟨-, hrest, hdisjoint⟩ := hn
      rcases List.mem_cons.mp hs with rfl | hs
      · refine ⟨written, hwritten, ?_⟩
        intro q hq
        have hq' : q ∉ rest.flatMap Section.rootNames := by
          intro hmem
          exact hdisjoint q hq q hmem rfl
        -- later sections leave the names of this one alone
        rw [get?_overlaySections_of_not_mem hlater hq',
          Assoc.get?_insertAll_of_sorted state hsorted]
      · obtain ⟨values, hvalues, hview⟩ := ih hlater hrest hs
        refine ⟨values, hvalues, ?_⟩
        intro q hq
        have hearlier : q ∉ t.rootNames := by
          intro hmem
          exact hdisjoint q hmem q (List.mem_flatMap.mpr ⟨s, hs, hq⟩) rfl
        -- an earlier section has put nothing under these names
        rw [hview q hq, Assoc.get?_insertAll_of_sorted state hsorted,
          hnone q hearlier, Option.none_or]

end Overlay

/-! ## States -/

section State

variable {sections : List Section} {name : String} {document : Json} {prior state : Value}

/-- The root of the state that a document stands for. -/
theorem stateOfDocument_eq_ok
    (h : stateOfDocument sections name document prior = .ok state) :
    ∃ after, overlaySections document prior.root sections prior.root = .ok after ∧
      state = .map (Assoc.insert after "name" (.string name)) := by
  obtain ⟨after, hafter, h⟩ := Except.bind_eq_ok h
  exact ⟨after, hafter, (Except.ok.inj h).symm⟩

/-- A state has its names in order when the prior root has. -/
theorem sorted_stateOfDocument
    (h : stateOfDocument sections name document prior = .ok state)
    (hs : Assoc.Sorted prior.root) : Assoc.Sorted state.root := by
  obtain ⟨after, hafter, rfl⟩ := stateOfDocument_eq_ok h
  exact Assoc.sorted_insert (sorted_overlaySections hafter hs) _ _

/-- An attribute that no section puts into the root stays as the prior has it; the
    identity is the name. -/
theorem get?_stateOfDocument_of_not_mem
    (h : stateOfDocument sections name document prior = .ok state) {q : String}
    (hq : q ∉ sections.flatMap Section.rootNames) :
    Assoc.get? state.root q = if "name" = q then some (.string name)
      else Assoc.get? prior.root q := by
  obtain ⟨after, hafter, rfl⟩ := stateOfDocument_eq_ok h
  show Assoc.get? (Assoc.insert after "name" (.string name)) q = _
  rw [Assoc.get?_insert, get?_overlaySections_of_not_mem hafter hq]

variable {s : Section}

/-- Under the names of a section stands what the section reads, and what was there before
    otherwise. -/
theorem get?_stateOfDocument
    (h : stateOfDocument sections name document prior = .ok state)
    (hn : DistinctNames sections) (hs : s ∈ sections) :
    ∃ values, s.toDeclaredInRoot (documentSection? document s.remote)
      prior.root = .ok values ∧
      ∀ q ∈ s.rootNames,
        Assoc.get? state.root q = (Assoc.get? values q).or (Assoc.get? prior.root q) := by
  obtain ⟨after, hafter, rfl⟩ := stateOfDocument_eq_ok h
  obtain ⟨hidentity, hroot⟩ := List.nodup_cons.mp hn.root
  obtain ⟨values, hvalues, hview⟩ := get?_overlaySections hafter hroot hs
  refine ⟨values, hvalues, ?_⟩
  intro q hq
  have hne : "name" ≠ q := by
    rintro rfl
    exact hidentity (List.mem_flatMap.mpr ⟨s, hs, hq⟩)
  show Assoc.get? (Assoc.insert after "name" (.string name)) q = _
  rw [Assoc.get?_insert, if_neg hne, hview q hq]

/-- **A top-level attribute** has what was read from its section: where nothing was read,
    there was nothing before. -/
theorem get?_stateOfDocument_topLevel
    (h : stateOfDocument sections name document prior = .ok state)
    (hn : DistinctNames sections) (hs : s ∈ sections) (hb : s.block = none) :
    ∃ read, s.toDeclared (s.heldIn document) (some prior.root) = .ok read ∧
      ∀ f ∈ s.fields, Assoc.get? state.root f.name = Assoc.get? read f.name := by
  obtain ⟨values, hvalues, hview⟩ := get?_stateOfDocument h hn hs
  rw [toDeclaredInRoot_of_topLevel hb] at hvalues
  refine ⟨values, hvalues, ?_⟩
  intro f hf
  have hown : f.name ∈ s.rootNames := by
    rw [Section.rootNames, hb]
    exact List.mem_map_of_mem hf
  rw [hview f.name hown]
  cases hv : Assoc.get? values f.name with
  | some v => rfl
  | none =>
      have hdeclared := Section.declared?_of_toDeclared hvalues (hn.fields s hs) hf
      rw [hv] at hdeclared
      exact priorValue?_of_declared?_none hdeclared

/-- **A block** stays as it was when its section has nothing to say, and holds the
    instance that was read otherwise. -/
theorem get?_stateOfDocument_inBlock
    (h : stateOfDocument sections name document prior = .ok state)
    (hn : DistinctNames sections) (hs : s ∈ sections) {block : String}
    (hb : s.block = some block) : ∃ found, Section.instance? prior.root block = .ok found ∧
      if (s.heldIn document).isEmpty ||
          (found.isNone && s.isCleared (s.heldIn document)) then
        Assoc.get? state.root block = Assoc.get? prior.root block
      else ∃ read, s.toDeclared (s.heldIn document) found = .ok read ∧
        Assoc.get? state.root block = some (.list [.map read]) := by
  obtain ⟨values, hvalues, hview⟩ := get?_stateOfDocument h hn hs
  obtain ⟨found, hfound, hcases⟩ := toDeclaredInRoot_of_inBlock hb hvalues
  have hown : block ∈ s.rootNames := by
    rw [Section.rootNames, hb]
    exact List.mem_singleton.mpr rfl
  have hblock := hview block hown
  refine ⟨found, hfound, ?_⟩
  split at hcases
  · next hkept =>
      rw [if_pos hkept, hblock, hcases]
      cases hv : Assoc.get? prior.root block with
      | none => rfl
      | some v => simp [Assoc.get?_cons]
  · next hkept =>
      obtain ⟨read, hread, rfl⟩ := hcases
      rw [if_neg hkept]
      refine ⟨read, hread, ?_⟩
      rw [hblock, Assoc.get?_cons, if_pos rfl, Option.some_or]

end State

end TrafficConfig
