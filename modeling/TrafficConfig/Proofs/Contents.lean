import TrafficConfig.Catalog.TrafficManager.Sections
import TrafficConfig.Proofs.Payload
import TrafficConfig.Proofs.Tables

/-!
# The exact content of an update

The names of every section correspond one to one, and no two sections have one remote name. Then
nothing is merged in a payload, and its content is known entry by entry:

* **`Holds`** — sections hold what the fields for which `W` holds are sent as, under their remote
  names, and nothing else: no entry of another field, no section without an entry, no section of
  another name;
* **`Holds.unique`** — this leaves no choice, so it describes one collection of sections;
* **`updatePayload_holds`** — an update is nothing exactly when no section is touched, and else it
  is the collection that holds the written fields.
-/

namespace TrafficConfig

/-! ## What sections hold -/

/-- The fields of one section are those for which `W` holds, each with what it is sent as. -/
structure Section.HoldsFields (W : Field → Prop) (root : Assoc Value) (s : Section)
    (fields : Assoc Json) : Prop where
  sorted : Assoc.Sorted fields
  written : ∀ f ∈ s.fields, W f →
    ∃ j, f.sentAs (s.valueIn root f) = .ok j ∧ Assoc.get? fields f.remote = some j
  unwritten : ∀ f ∈ s.fields, ¬ W f → Assoc.get? fields f.remote = none
  others : ∀ q, q ∉ s.fields.map (·.remote) → Assoc.get? fields q = none

/-- Sections hold the fields for which `W` holds, and nothing else; a section without such fields
    is left out. -/
structure Holds (W : Section → Field → Prop) (root : Assoc Value) (sections : List Section)
    (sent : Assoc Json) : Prop where
  sorted : Assoc.Sorted sent
  written : ∀ s ∈ sections, (∃ f ∈ s.fields, W s f) →
    ∃ fields, Assoc.get? sent s.remote = some (.object fields) ∧ s.HoldsFields (W s) root fields
  omitted : ∀ s ∈ sections, (∀ f ∈ s.fields, ¬ W s f) → Assoc.get? sent s.remote = none
  others : ∀ name, name ∉ sections.map (·.remote) → Assoc.get? sent name = none

section Unique

variable {root : Assoc Value}

/-- Two sections that hold the same fields are the same. -/
theorem Section.HoldsFields.unique {W : Field → Prop} {s : Section}
    {a b : Assoc Json} (ha : s.HoldsFields W root a) (hb : s.HoldsFields W root b) : a = b := by
  refine Assoc.ext_of_sorted ha.sorted hb.sorted fun q => ?_
  by_cases hq : q ∈ s.fields.map (·.remote)
  · obtain ⟨f, hf, rfl⟩ := List.mem_map.mp hq
    by_cases hW : W f
    · obtain ⟨j, hj, hget⟩ := ha.written f hf hW
      obtain ⟨i, hi, hget'⟩ := hb.written f hf hW
      rw [hget, hget', Except.ok.inj (hj.symm.trans hi)]
    · rw [ha.unwritten f hf hW, hb.unwritten f hf hW]
  · rw [ha.others q hq, hb.others q hq]

/-- **What sections hold is one collection.** -/
theorem Holds.unique {W : Section → Field → Prop} {sections : List Section}
    {a b : Assoc Json} (ha : Holds W root sections a) (hb : Holds W root sections b) : a = b := by
  refine Assoc.ext_of_sorted ha.sorted hb.sorted fun name => ?_
  by_cases hname : name ∈ sections.map (·.remote)
  · obtain ⟨s, hs, rfl⟩ := List.mem_map.mp hname
    by_cases hW : ∃ f ∈ s.fields, W s f
    · obtain ⟨fields, hget, hfields⟩ := ha.written s hs hW
      obtain ⟨others, hget', hothers⟩ := hb.written s hs hW
      rw [hget, hget', hfields.unique hothers]
    · have hnone : ∀ f ∈ s.fields, ¬ W s f := fun f hf hf' => hW ⟨f, hf, hf'⟩
      rw [ha.omitted s hs hnone, hb.omitted s hs hnone]
  · rw [ha.others name hname, hb.others name hname]

end Unique

/-! ## No section is empty -/

/-- No section of a collection is without fields. -/
private def Filled (sections : Assoc Json) : Prop := ∀ e ∈ sections, e.2 ≠ .object []

private theorem Assoc.insert_ne_nil {α : Type} (m : Assoc α) (k : String) (x : α) :
    Assoc.insert m k x ≠ [] := by
  intro h
  have hself := Assoc.get?_insert_self m k x
  rw [h] at hself
  exact nomatch hself

private theorem Assoc.insertAll_ne_nil {α : Type} {es : List (String × α)} (h : es ≠ []) :
    ∀ m : Assoc α, Assoc.insertAll m es ≠ [] := by
  induction es with
  | nil => exact absurd rfl h
  | cons e rest ih =>
      intro m
      cases rest with
      | nil => exact insert_ne_nil m e.1 e.2
      | cons e' rest => exact ih (List.cons_ne_nil e' rest) _

/-- Putting fields into a section leaves no section empty. -/
theorem Filled.addFields {sections : Assoc Json} (h : Filled sections) (remote : String)
    (fields : Assoc Json) : Filled (addFields sections remote fields) := by
  have hinsert : ∀ new : Assoc Json, new ≠ [] →
      Filled (Assoc.insert sections remote (.object new)) := by
    intro new hnew e he
    rcases Assoc.mem_insert he with rfl | he
    · exact fun heq => hnew (Json.object.inj heq)
    · exact h e he
  rw [TrafficConfig.addFields]
  split
  · exact h
  · next hne =>
      rw [List.isEmpty_iff] at hne
      rw [mergeSection]
      split
      · next existing _ => exact hinsert _ (Assoc.insertAll_ne_nil hne existing)
      · exact hinsert fields hne

private theorem filled_updateSections {root : Assoc Value} {changes : ChangeSet}
    {sections : List Section} {acc result : Assoc Json × Bool}
    (h : updateSections root changes sections acc = .ok result) (hacc : Filled acc.1) :
    Filled result.1 := by
  induction sections generalizing acc with
  | nil =>
      obtain rfl := Except.ok.inj h
      exact hacc
  | cons s rest ih =>
      obtain ⟨properties, c⟩ := acc
      obtain ⟨⟨fields, changed⟩, -, h⟩ := Except.bind_eq_ok h
      exact ih h (hacc.addFields s.remote fields)

/-- No section of an update is empty. -/
theorem filled_updatePayload {config : Value} {sections : List Section}
    {changes : ChangeSet} {sent : Assoc Json}
    (h : updatePayload config sections changes = .ok (some (propertiesDocument sent))) :
    Filled sent := by
  obtain ⟨root, -, h⟩ := Except.bind_eq_ok h
  obtain ⟨⟨properties, changed⟩, hu, h⟩ := Except.bind_eq_ok h
  have hfilled : Filled properties := filled_updateSections hu fun _ he => nomatch he
  replace h := Except.ok.inj h
  by_cases hc : changed = true
  · rw [if_pos hc] at h
    have hsame := congrArg documentSections? (Option.some.inj h)
    rw [documentSections?_propertiesDocument, documentSections?_propertiesDocument] at hsame
    rwa [← Option.some.inj hsame]
  · rw [if_neg hc] at h
    exact nomatch h

/-! ## The content -/

section Content

variable {W : Section → Field → Prop} {root : Assoc Value} {sections : List Section}
  {sent : Assoc Json}

private theorem Carries.exists_of_get? (h : Carries W root sections sent) (hfilled : Filled sent)
    {name : String} {j : Json} (hj : Assoc.get? sent name = some j) :
    ∃ s ∈ sections, s.remote = name ∧ ∃ f ∈ s.fields, W s f := by
  obtain ⟨fields, rfl, -⟩ := h.sendable.object_of_get? hj
  cases fields with
  | nil => exact absurd rfl (hfilled _ (Assoc.mem_of_get? hj))
  | cons e rest =>
      have hfirst : fieldIn? sent name e.1 = some e.2 := by
        rw [fieldIn?, hj]
        exact (Assoc.get?_cons e.1 e.2 rest e.1).trans (if_pos rfl)
      obtain ⟨s, hs, f, hf, hname, -, hW, -⟩ := h.written hfirst
      exact ⟨s, hs, hname, f, hf, hW⟩

section Named

variable (h : Carries W root sections sent) (hremotes : (sections.map (·.remote)).Nodup)
include h hremotes

private theorem Carries.holdsFields {s : Section} (hs : s ∈ sections)
    (hnaming : checkNaming s.fields = .ok ()) {fields : Assoc Json}
    (hobject : Assoc.get? sent s.remote = some (.object fields))
    (hsorted : Assoc.Sorted fields) : s.HoldsFields (W s) root fields := by
  have hget : ∀ q, Assoc.get? fields q = fieldIn? sent s.remote q := by
    intro q
    rw [fieldIn?, hobject]
    rfl
  -- an entry of this section was written for the one field with its remote name
  have hof : ∀ {q j}, Assoc.get? fields q = some j → ∃ f ∈ s.fields, f.remote = q ∧ W s f ∧
      f.sentAs (s.valueIn root f) = .ok j := by
    intro q j hj
    rw [hget] at hj
    obtain ⟨t, ht, f, hf, hsection, hremote, hrest⟩ := h.written hj
    obtain rfl := List.inj_on_of_nodup_map hremotes ht hs hsection
    exact ⟨f, hf, hremote, hrest⟩
  have hone : ∀ {f j}, f ∈ s.fields → Assoc.get? fields f.remote = some j →
      W s f ∧ f.sentAs (s.valueIn root f) = .ok j := by
    intro f j hf hj
    obtain ⟨g, hg, hsame, hrest⟩ := hof hj
    obtain rfl := List.inj_on_of_nodup_map (checkNaming_remotes hnaming) hg hf hsame
    exact hrest
  refine ⟨hsorted, ?_, ?_, ?_⟩
  · intro f hf hW
    obtain ⟨j, hj⟩ := Option.isSome_iff_exists.mp (h.complete s hs f hf hW)
    rw [← hget] at hj
    exact ⟨j, (hone hf hj).2, hj⟩
  · intro f hf hW
    exact Option.eq_none_iff_forall_ne_some.mpr fun j hj => hW (hone hf hj).1
  · intro q hq
    refine Option.eq_none_iff_forall_ne_some.mpr fun j hj => hq ?_
    obtain ⟨f, hf, rfl, -⟩ := hof hj
    exact List.mem_map_of_mem hf

/-- So the collection holds just what it carries. -/
theorem Carries.holds (hfilled : Filled sent)
    (hnaming : ∀ s ∈ sections, checkNaming s.fields = .ok ()) :
    Holds W root sections sent where
  sorted := h.sendable.sorted
  written := by
    rintro s hs ⟨f, hf, hW⟩
    obtain ⟨i, hi⟩ := Option.isSome_iff_exists.mp (h.complete s hs f hf hW)
    obtain ⟨object, hobject, -⟩ := Option.bind_eq_some_iff.mp hi
    obtain ⟨j, hj, -⟩ := Option.bind_eq_some_iff.mp hobject
    obtain ⟨fields, rfl, hsorted⟩ := h.sendable.object_of_get? hj
    exact ⟨fields, hj, h.holdsFields hremotes hs (hnaming s hs) hj hsorted⟩
  omitted := by
    intro s hs hnone
    refine Option.eq_none_iff_forall_ne_some.mpr fun j hj => ?_
    obtain ⟨t, ht, hremote, f, hf, hW⟩ := h.exists_of_get? hfilled hj
    obtain rfl := List.inj_on_of_nodup_map hremotes ht hs hremote
    exact hnone f hf hW
  others := by
    intro name hname
    refine Option.eq_none_iff_forall_ne_some.mpr fun j hj => hname ?_
    obtain ⟨s, hs, rfl, -⟩ := h.exists_of_get? hfilled hj
    exact List.mem_map_of_mem hs

end Named

end Content

/-- **The content of an update is exact.** The names of every section correspond one to one, and
    no two sections have one remote name. An update is nothing exactly when no section is touched;
    else it is the one document of sections that hold the written fields: of a section that takes
    single fields those that changed and, if they have a value, those that are always sent; of a
    section that is replaced as a whole all of them, once it is touched. -/
theorem updatePayload_holds {root : Assoc Value} {sections : List Section} {changes : ChangeSet}
    {result : Option Json} (hnaming : ∀ s ∈ sections, checkNaming s.fields = .ok ())
    (hremotes : (sections.map (·.remote)).Nodup)
    (h : updatePayload (.map root) sections changes = .ok result) :
    (result = none ↔ ∀ s ∈ sections, s.touched changes = false) ∧
      ∀ payload, result = some payload → ∃ sent, payload = propertiesDocument sent ∧
        Holds (fun s => s.Writes root changes) root sections sent ∧
          ∀ other, Holds (fun s => s.Writes root changes) root sections other → other = sent := by
  obtain ⟨plan, hplan, ⟨rfl, huntouched⟩ | ⟨⟨s, hs, htouched⟩, sent, rfl, hcarries⟩⟩ :=
    updatePayload_cases h
  · exact ⟨iff_of_true rfl huntouched, fun _ hsome => nomatch hsome⟩
  · obtain rfl := Except.ok.inj hplan
    refine ⟨iff_of_false (fun hnone => nomatch hnone) fun hall =>
      Bool.noConfusion (htouched.symm.trans (hall s hs)), ?_⟩
    rintro payload hsome
    obtain rfl := Option.some.inj hsome
    have hholds := hcarries.holds hremotes (filled_updatePayload h) hnaming
    exact ⟨sent, rfl, hholds, fun other hother => hother.unique hholds⟩

section Member

open Catalog.TrafficManager

/-- A cluster member that is placed somewhere, with one of its two addresses. -/
private def placed : Assoc Value :=
  [("cloud_platform", .null), ("cluster_comms", .list [.map [("bind_ip", .string "10.0.0.1")]]),
    ("location", .string "north"), ("nameip", .null)]

/-- The platform was removed, and so was the other address. -/
private def removals : ChangeSet := .ofPaths ["cloud_platform", "cluster_comms.external_ip"]

private def cleared : Assoc Json :=
  [("basic", .object [("cloud_platform", .string ""), ("location", .string "north")]),
    ("cluster_comms", .object [("allow_update", .bool false), ("bind_ip", .string "10.0.0.1"),
      ("external_ip", .string ""), ("port", .int 0)])]

/-- One field of the first section is cleared, next to those that are always sent and have a
    value; the second section is sent as a whole, and the third one is not there. -/
theorem removals_of_member :
    updatePayload (.map placed) [basic, clusterComms, ec2] removals =
      .ok (some (propertiesDocument cleared)) ∧
      Holds (fun s => s.Writes placed removals) placed [basic, clusterComms, ec2] cleared := by
  have hupdate : updatePayload (.map placed) [basic, clusterComms, ec2] removals =
      .ok (some (propertiesDocument cleared)) := by rfl
  have hnaming : ∀ s ∈ [basic, clusterComms, ec2], checkNaming s.fields = .ok () := by
    decide +kernel
  obtain ⟨-, hholds⟩ := updatePayload_holds hnaming (by decide) hupdate
  obtain ⟨sent, hsent, hholds, -⟩ := hholds _ rfl
  have hsame := congrArg documentSections? hsent
  rw [documentSections?_propertiesDocument, documentSections?_propertiesDocument] at hsame
  obtain rfl := Option.some.inj hsame
  exact ⟨hupdate, hholds⟩

end Member

end TrafficConfig
