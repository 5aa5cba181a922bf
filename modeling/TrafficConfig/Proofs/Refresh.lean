import TrafficConfig.Proofs.Mirrors
import TrafficConfig.Proofs.Readback

/-!
# A document is read as the state that it mirrors

A document is read over a plan that it mirrors, whose values can be traced:

* **`ReadOver`** — what the state holds: of every top-level attribute, and of the instance
  of every block, what the fields know of it. A block without an instance stays as it is,
  and so does one of which the document holds nothing;
* **`exists_readOver`** — the document can be read, and this is what is read;
* **`exists_stateOfDocument`** — the fields know all of a well-formed plan, so the state
  equals it.
-/

namespace TrafficConfig

open Value ChangeSet

/-- A state that was read of a document over a plan. -/
structure ReadOver (sections : List Section) (name : String) (document : Json)
    (root state : Assoc Value) : Prop where
  sorted : Assoc.Sorted state
  name : Assoc.get? state "name" = some (.string name)
  /-- No section puts anything under other names. -/
  others : ∀ q, q ≠ "name" → q ∉ sections.flatMap Section.rootNames →
    Assoc.get? state q = Assoc.get? root q
  topLevel : ∀ s ∈ sections, s.block = none → ∀ f ∈ s.fields,
    ReadsAs (Assoc.get? state f.name) ((Assoc.get? root f.name).map f.known)
  blocks : ∀ s ∈ sections, ∀ block ∈ s.block,
    (Assoc.get? state block = Assoc.get? root block ∧
        (isBlank (getOrNull root block) = true ∨ (s.heldIn document).isEmpty = true)) ∨
      ∃ entries, getOrNull root block = .list [.map entries] ∧
        (s.heldIn document).isEmpty = false ∧
        ReadsAs (Assoc.get? state block) (some (.list [.map (knownRow s.fields entries)]))

section Mirrored

variable {sections : List Section} {name : String} {document : Json} {root : Assoc Value}
  {s : Section}

/-- What a document holds for a field mirrors its value. -/
theorem Mirrors.held (h : Mirrors sections document root) (hs : s ∈ sections)
    {f : Field} (hf : f ∈ s.fields) :
    f.Mirrors (Assoc.get? (s.heldIn document) f.remote) (s.valueIn root f) := by
  rw [get?_heldIn, Field.Mirrors]
  split
  · next hread => exact h.readOnly s hs f hf hread
  · next hread => exact h.inSync s hs f hf (Bool.eq_false_iff.mpr hread)

variable (hreg : Regular sections) (hplan : PlanWith FieldKind.Traceable sections root)
  (h : Mirrors sections document root)

include hreg hplan h in
/-- Every top-level attribute is read back. -/
theorem readsBack_topLevel (hs : s ∈ sections) (hb : s.block = none) :
    ∀ f ∈ s.fields, f.ReadsBack (s.heldIn document) root := by
  intro f hf
  refine Field.readsBack (fieldsReadBack (hreg.naming s hs) (hreg.keys s hs) f hf) hplan.plain
    (hplan.topLevel hs hb hf) ?_
  rw [← Section.valueIn_eq_of_topLevel hb]
  exact h.held hs hf

include hreg h in
private theorem exists_declared_instance (hs : s ∈ sections) {block : String}
    (hb : s.block = some block) {entries : Assoc Value}
    (hvalue : getOrNull root block = .list [.map entries]) (hplain : Plain (.map entries))
    (htrace : FieldsThroughout FieldKind.Traceable s.fields entries) :
    ∃ read, s.toDeclared (s.heldIn document) (some entries) = .ok read ∧
      sameEntries equals read (knownRow s.fields entries) = true ∧
      NaNFree (.map read) := by
  have hread : ∀ f ∈ s.fields, f.ReadsBack (s.heldIn document) entries := by
    intro f hf
    refine Field.readsBack (fieldsReadBack (hreg.naming s hs) (hreg.keys s hs) f hf) hplain
      (fieldsThroughout_iff.mp htrace f hf) ?_
    have hheld := h.held hs hf
    rw [Section.valueIn_eq_of_inBlock hb, hvalue] at hheld
    exact hheld
  obtain ⟨read, hdeclared, hsame, hnan⟩ := exists_declared (hreg.names.fields s hs) hread
  refine ⟨Assoc.ofEntries read, ?_, hsame, hnan⟩
  rw [Section.toDeclared, hdeclared]
  rfl

include h in
private theorem isCleared_of_blank (hs : s ∈ sections) {block : String}
    (hb : s.block = some block) (hblank : isBlank (getOrNull root block) = true) :
    s.isCleared (s.heldIn document) = true := by
  refine List.all_eq_true.mpr ?_
  intro f hf
  have hvalue : s.valueIn root f = .null := by
    rw [Section.valueIn_eq_of_inBlock hb, Section.entriesOf_of_isBlank hblank]
    rfl
  have hheld := h.held hs hf
  rw [hvalue, Field.Mirrors] at hheld
  cases hread : f.readOnly with
  | true => rfl
  | false =>
      rw [hread, if_neg Bool.false_ne_true] at hheld
      rcases hheld with ⟨w, j, -, heq, hj, -⟩ | ⟨-, hnone | hcleared⟩
      · -- nothing is sent for null
        have habsent : w.isAbsent = true := isAbsent_eq_of_equals heq
        rw [Field.toJson?_of_absent habsent] at hj
        exact nomatch hj
      · rw [hnone, Bool.or_true]
      · rw [hcleared]
        have hkind := (FieldKind.isCleared_iff f.kind f.kind.cleared).mpr rfl
        cases hc : f.kind.cleared with
        | null => exact Bool.or_true _
        | _ => rw [hc] at hkind; simp only [hkind, Bool.or_true]

include hreg hplan h

/-- What a section puts into the root can be read. -/
theorem exists_toDeclaredInRoot (hs : s ∈ sections) :
    ∃ values, s.toDeclaredInRoot (documentSection? document s.remote)
      root = .ok values := by
  cases hb : s.block with
  | none =>
      rw [toDeclaredInRoot_of_topLevel hb]
      obtain ⟨entries, hentries⟩ :=
        exists_declaredEntries_of_readsBack (readsBack_topLevel hreg hplan h hs hb)
      refine ⟨Assoc.ofEntries entries, ?_⟩
      rw [Section.toDeclared, hentries]
      rfl
  | some block =>
      rw [Section.toDeclaredInRoot, hb]
      rcases hplan.block_cases hs hb with ⟨hnone, hblank⟩
          | ⟨entries, hsome, hvalue, hplain, htrace⟩
      · have hkept : ((s.heldIn document).isEmpty ||
            (Option.isNone (none : Option (Assoc Value)) &&
            s.isCleared (s.heldIn document))) = true := by
          rw [isCleared_of_blank h hs hb hblank]
          exact Bool.or_true _
        simp only [hnone]
        exact ⟨_, if_pos hkept⟩
      · obtain ⟨read, hread, -⟩ := exists_declared_instance hreg h hs hb hvalue hplain htrace
        simp only [hsome]
        by_cases hempty : ((s.heldIn document).isEmpty || (Option.isNone (some entries) &&
            s.isCleared (s.heldIn document))) = true
        · exact ⟨_, if_pos hempty⟩
        · refine ⟨[(block, .list [.map read])], ?_⟩
          show (if _ then _ else _) = _
          rw [if_neg hempty, hread]
          rfl

section Names

variable {state : Value}
  (hstate : stateOfDocument sections name document (.map root) = .ok state)
include hstate

private theorem readsAs_topLevel (hs : s ∈ sections) (hb : s.block = none) {f : Field}
    (hf : f ∈ s.fields) :
    ReadsAs (Assoc.get? state.root f.name) ((Assoc.get? root f.name).map f.known) := by
  obtain ⟨read, hread, hview⟩ := get?_stateOfDocument_topLevel hstate hreg.names hs hb
  obtain ⟨v?, hv, hreads⟩ := readsBack_topLevel hreg hplan h hs hb f hf
  have hdeclared := Section.declared?_of_toDeclared hread (hreg.names.fields s hs) hf
  rw [hview f hf, Except.ok.inj (hdeclared.symm.trans hv)]
  exact hreads

private theorem readsAs_block (hs : s ∈ sections) {block : String}
    (hb : s.block = some block) :
    (Assoc.get? state.root block = Assoc.get? root block ∧
        (isBlank (getOrNull root block) = true ∨ (s.heldIn document).isEmpty = true)) ∨
      ∃ entries, getOrNull root block = .list [.map entries] ∧
        (s.heldIn document).isEmpty = false ∧
        ReadsAs (Assoc.get? state.root block)
          (some (.list [.map (knownRow s.fields entries)])) := by
  obtain ⟨found, hfound, hcases⟩ := get?_stateOfDocument_inBlock hstate hreg.names hs hb
  rcases hplan.block_cases hs hb with ⟨hnone, hblank⟩
      | ⟨entries, hsome, hvalue, hplain, htrace⟩
  · -- a block without an instance is kept, since its section is cleared
    obtain rfl : none = found := Except.ok.inj (hnone.symm.trans hfound)
    rw [isCleared_of_blank h hs hb hblank, Option.isNone_none, Bool.and_true, Bool.or_true,
      if_pos rfl] at hcases
    exact .inl ⟨hcases, .inl hblank⟩
  · obtain rfl : some entries = found := Except.ok.inj (hsome.symm.trans hfound)
    rw [Option.isNone_some, Bool.false_and, Bool.or_false] at hcases
    cases hempty : (s.heldIn document).isEmpty with
    | true =>
        rw [hempty, if_pos rfl] at hcases
        exact .inl ⟨hcases, .inr rfl⟩
    | false =>
        rw [hempty, if_neg Bool.false_ne_true] at hcases
        obtain ⟨read, hread, hget⟩ := hcases
        obtain ⟨read', hread', hsame, hnan⟩ :=
          exists_declared_instance hreg h hs hb hvalue hplain htrace
        obtain rfl : read = read' := Except.ok.inj (hread.symm.trans hread')
        refine .inr ⟨entries, hvalue, rfl, ?_⟩
        rw [hget]
        constructor
        · refine .some (equals_list_iff.mpr ⟨_, rfl, .cons ?_ .nil⟩)
          exact equals_map_iff.mpr ⟨_, rfl, hsame⟩
        · intro v hv
          obtain rfl := Option.some.inj hv
          refine everywhere_list.mpr ⟨(fun hn => nomatch hn), ?_⟩
          intro item hitem
          rw [List.mem_singleton.mp hitem]
          exact hnan

end Names

variable (name) in
/-- **A document that mirrors a plan can be read over it.** -/
theorem exists_readOver :
    ∃ state, stateOfDocument sections name document (.map root) = .ok (.map state) ∧
      ReadOver sections name document root state := by
  obtain ⟨after, hafter⟩ := exists_overlaySections root fun s hs =>
      exists_toDeclaredInRoot hreg hplan h hs
  have hstate : stateOfDocument sections name document (.map root) =
      .ok (.map (Assoc.insert after "name" (.string name))) := by
    show (overlaySections document root sections root >>= fun state => Except.ok _) = _
    rw [hafter]
    rfl
  refine ⟨_, hstate, sorted_stateOfDocument hstate hplan.plain.sorted, ?_, ?_, ?_, ?_⟩
  · exact Assoc.get?_insert_self after "name" _
  · intro q hq hnone
    have hget := get?_stateOfDocument_of_not_mem hstate hnone
    rw [if_neg (Ne.symm hq)] at hget
    exact hget
  · exact fun s hs hb f hf => readsAs_topLevel hreg hplan h hstate hs hb hf
  · exact fun s hs block hb => readsAs_block hreg hplan h hstate hs hb

end Mirrored

/-! ## Well-formed plans -/

section WellFormed

variable {sections : List Section} {name : String} {document : Json}
  {root state : Assoc Value} {s : Section}

private theorem WellFormed.traceable (h : WellFormed sections name root) :
    PlanWith FieldKind.Traceable sections root :=
  h.planWith.imp fun _ _ hall => ⟨hall.1, hall.2.1⟩

private theorem WellFormed.laidOut (h : WellFormed sections name root) :
    PlanWith FieldKind.LaidOut sections root :=
  h.planWith.imp fun _ _ hall => hall.2.2

private theorem WellFormed.knownRow_instance (hreg : Regular sections)
    (h : WellFormed sections name root) (hs : s ∈ sections) {block : String}
    (hb : s.block = some block) {entries : Assoc Value}
    (hvalue : getOrNull root block = .list [.map entries]) :
    knownRow s.fields entries = entries := by
  have hnaming := hreg.naming s hs
  have hfield := fieldsFit_iff.mp h.fits (Field.table block ⟨s.fields, none, true⟩)
    (List.mem_flatMap.mpr ⟨s, hs, Section.mem_rootFields.mpr (.inr ⟨block, hb, rfl⟩)⟩)
  have hmem : entries ∈ (getOrNull root block).rows := by
    rw [hvalue]
    exact List.mem_singleton.mpr rfl
  have hfits := (FieldKind.fits_table_iff.mp hfield).2.2 entries hmem
  have hplain := (h.plain.getOrNull block).rows entries hmem
  refine knownRow_eq_self (checkNaming_names hnaming) hplain.sorted hfits.keys fun f hf => ?_
  refine FieldKind.known_eq_self (checkNaming_kinds hnaming f hf) (hplain.getOrNull f.name) ?_
  exact ((FieldKind.fits_iff _ _).mp (fieldsFit_iff.mp hfits.fields f hf)).imp
    fun _ _ hall => hall.2.2

/-- What is read under a name is what the plan has there. -/
theorem ReadOver.readsAs (h : ReadOver sections name document root state)
    (hreg : Regular sections) (hwf : WellFormed sections name root) (q : String) :
    ReadsAs (Assoc.get? state q) (Assoc.get? root q) := by
  by_cases hq : q ∈ sections.flatMap Section.rootNames
  · obtain ⟨s, hs, hq⟩ := List.mem_flatMap.mp hq
    cases hb : s.block with
    | none =>
        rw [Section.rootNames, hb] at hq
        obtain ⟨f, hf, rfl⟩ := List.mem_map.mp hq
        have hknown := FieldKind.known_eq_self (checkNaming_kinds (hreg.naming s hs) f hf)
          (hwf.plain.getOrNull f.name) (hwf.laidOut.topLevel hs hb hf)
        have hread := h.topLevel s hs hb f hf
        cases hv : Assoc.get? root f.name with
        | none => rw [hv] at hread; exact hread
        | some v =>
            rw [getOrNull_of_get? hv] at hknown
            rw [hv, Option.map_some, Field.known_eq_of_kind hknown] at hread
            exact hread
    | some block =>
        rw [Section.rootNames, hb] at hq
        obtain rfl := List.mem_singleton.mp hq
        rcases h.blocks s hs q hb with ⟨hkept, -⟩ | ⟨entries, hvalue, -, hread⟩
        · rw [hkept]
          exact hwf.plain.readsAs q
        · rw [hwf.knownRow_instance hreg hs hb hvalue] at hread
          rw [get?_of_getOrNull hvalue (fun hn => Value.noConfusion hn)]
          exact hread
  · by_cases hname : q = "name"
    · subst hname
      rw [h.name, ← hwf.get?_name]
      exact hwf.plain.readsAs "name"
    · rw [h.others q hname hq]
      exact hwf.plain.readsAs q

/-- **A document is read as the well-formed plan that it mirrors.** -/
theorem exists_stateOfDocument (hreg : Regular sections)
    (hwf : WellFormed sections name root) (h : Mirrors sections document root) :
    ∃ state, stateOfDocument sections name document (.map root) = .ok (.map state) ∧
      sameEntries equals state root = true ∧
      NaNFree (.map state) := by
  obtain ⟨state, hstate, hread⟩ := exists_readOver name hreg hwf.traceable h
  obtain ⟨hsame, hnan⟩ := sameEntries_of_readsAs hread.sorted hwf.plain.sorted
      (hread.readsAs hreg hwf)
  exact ⟨state, hstate, hsame, hnan⟩

end WellFormed

end TrafficConfig
