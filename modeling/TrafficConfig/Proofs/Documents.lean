import TrafficConfig.Proofs.Entries
import TrafficConfig.Api.Store

/-!
# Fields of documents

A document is read field by field:

* **`fieldIn?`** and **`heldField?`** — the view of a collection of sections and of a
  document: the field of a section;
* **`Sendable`** — collections of sections as payloads are built: ascending names, and
  every section an object with ascending names. `addFields` keeps it, and
  `fieldIn?_addFields` is its view;
* **`heldField?_mergeDocument`** — a payload over a document: the fields that it has are
  taken over, all others stay;
* **`Store.document?_putDocument`**, **`serve_get_putDocument`**, **`serve_getText_putText`**
  — a store finds again, and answers, what was put.
-/

namespace TrafficConfig

/-- The field of a section in a collection of sections. -/
def fieldIn? (sections : Assoc Json) (name field : String) : Option Json :=
  ((Assoc.get? sections name).bind Json.asObject?).bind fun fields =>
    Assoc.get? fields field

/-- The sections of a document. -/
def documentSections? (document : Json) : Option (Assoc Json) :=
  (document.field? "properties").bind Json.asObject?

/-- The field of a section in a document. -/
def heldField? (document : Json) (name field : String) : Option Json :=
  (documentSection? document name).bind fun fields => Assoc.get? fields field

/-- The section of a document is found among its sections. -/
theorem documentSection?_eq (document : Json) (name : String) :
    documentSection? document name =
      (documentSections? document).bind fun sections =>
        (Assoc.get? sections name).bind Json.asObject? := by
  rw [documentSection?, documentSections?, Json.field?]
  cases document.asObject?.bind fun fields => Assoc.get? fields "properties" with
  | none => rfl
  | some j => cases j <;> rfl

/-- What a document holds is found in its sections. -/
theorem heldField?_eq {document : Json} {sections : Assoc Json}
    (h : documentSections? document = some sections) (name field : String) :
    heldField? document name field = fieldIn? sections name field := by
  rw [heldField?, documentSection?_eq, h]
  rfl

/-- A document that is built of sections has them. -/
theorem documentSections?_propertiesDocument (sections : Assoc Json) :
    documentSections? (propertiesDocument sections) = some sections := by
  simp [documentSections?, propertiesDocument, Json.field?, Json.asObject?, Assoc.get?]

/-- A document with sections, all of them objects. -/
def HasObjectSections (document : Json) : Prop :=
  ∃ sections, documentSections? document = some sections ∧
    ∀ name j, Assoc.get? sections name = some j → ∃ fields, j = .object fields

/-- The empty document has no section that is no object. -/
theorem hasObjectSections_empty : HasObjectSections emptyDocument :=
  ⟨[], documentSections?_propertiesDocument [], fun _ _ h => nomatch h⟩

/-! ## Sections of a payload -/

/-- Sections as payloads are built: in ascending order, each of them an object in
    ascending order. -/
structure Sendable (sections : Assoc Json) : Prop where
  sorted : Assoc.Sorted sections
  objects : ∀ e ∈ sections, ∃ fields, e.2 = .object fields ∧ Assoc.Sorted fields

theorem Sendable.nil : Sendable [] := ⟨List.Pairwise.nil, fun _ h => nomatch h⟩

/-- What is sent under a name is a section with its fields in order. -/
theorem Sendable.object_of_get? {sections : Assoc Json} (h : Sendable sections)
    {name : String} {j : Json} (hj : Assoc.get? sections name = some j) :
    ∃ fields, j = .object fields ∧ Assoc.Sorted fields :=
  h.objects _ (Assoc.mem_of_get? hj)

/-- A section with its fields in order can be put to those that are sent. -/
theorem Sendable.insert {sections : Assoc Json} (h : Sendable sections)
    {fields : Assoc Json} (hf : Assoc.Sorted fields) (name : String) :
    Sendable (Assoc.insert sections name (.object fields)) where
  sorted := Assoc.sorted_insert h.sorted name _
  objects := by
    intro e he
    rcases Assoc.mem_insert he with rfl | he
    · exact ⟨fields, rfl, hf⟩
    · exact h.objects e he

/-- Payloads stay sendable when fields are put into a section. -/
theorem Sendable.addFields {sections : Assoc Json} (h : Sendable sections)
    {fields : Assoc Json} (hf : Assoc.Sorted fields) (name : String) :
    Sendable (addFields sections name fields) := by
  rw [TrafficConfig.addFields, mergeSection]
  split
  · exact h
  · split
    · next existing hex =>
        obtain ⟨j, hj, hobj⟩ := Option.bind_eq_some_iff.mp hex
        obtain ⟨old, rfl, hold⟩ := h.object_of_get? hj
        obtain rfl : old = existing := Option.some.inj hobj
        exact h.insert (Assoc.sorted_insertAll hold fields) name
    · exact h.insert hf name

/-- The view of a payload after fields were put into a section. -/
theorem fieldIn?_addFields {sections : Assoc Json} {fields : Assoc Json}
    (hf : Assoc.Sorted fields) (remote name field : String) :
    fieldIn? (addFields sections remote fields) name field =
      if name = remote then (Assoc.get? fields field).or (fieldIn? sections name field)
      else fieldIn? sections name field := by
  rw [addFields]
  by_cases hempty : fields.isEmpty = true
  · -- without fields no section is made
    rw [if_pos hempty, List.isEmpty_iff.mp hempty, Assoc.get?_nil]
    by_cases hn : name = remote
    · rw [if_pos hn]
      rfl
    · rw [if_neg hn]
  · rw [if_neg hempty]
    rw [mergeSection]
    cases hex : (Assoc.get? sections remote).bind Json.asObject? with
    | none =>
        by_cases hn : name = remote
        · subst hn
          simp [fieldIn?, hex, Json.asObject?]
        · simp [fieldIn?, Assoc.get?_insert, hn, Ne.symm hn]
    | some existing =>
        by_cases hn : name = remote
        · subst hn
          simp [fieldIn?, hex, Json.asObject?, Assoc.get?_insertAll_of_sorted existing hf]
        · simp [fieldIn?, Assoc.get?_insert, hn, Ne.symm hn]

/-! ## Merging -/

/-- A name whose section is not sent keeps what was stored. -/
theorem get?_mergeSections_of_none : ∀ {sent stored : Assoc Json} {name : String},
    Assoc.get? sent name = none →
      Assoc.get? (mergeSections stored sent) name = Assoc.get? stored name
  | [], _, _, _ => rfl
  | (k, j) :: sent, stored, name, h => by
    rw [Assoc.get?_cons] at h
    by_cases hk : k = name
    · rw [if_pos hk] at h
      exact nomatch h
    · rw [if_neg hk] at h
      rw [mergeSections, List.foldl_cons]
      exact (get?_mergeSections_of_none h).trans (by rw [Assoc.get?_insert, if_neg hk])

/-- A section that is sent is put over the stored one. -/
theorem get?_mergeSections_of_some :
    ∀ {sent stored : Assoc Json} {name : String} {j : Json}, Assoc.Sorted sent →
      Assoc.get? sent name = some j →
        Assoc.get? (mergeSections stored sent) name =
          some (mergeFields ((Assoc.get? stored name).getD (.object [])) j)
  | (k, i) :: sent, stored, name, j, hs, h => by
    have hs' := List.pairwise_cons.mp hs
    rw [Assoc.get?_cons] at h
    rw [mergeSections, List.foldl_cons]
    by_cases hk : k = name
    · subst hk
      rw [if_pos rfl] at h
      obtain rfl := Option.some.inj h
      -- no later section has the name, so what is put here stays
      refine (get?_mergeSections_of_none (Assoc.get?_eq_none_of_lt hs'.1)).trans ?_
      rw [Assoc.get?_insert, if_pos rfl]
    · rw [if_neg hk] at h
      refine (get?_mergeSections_of_some hs'.2 h).trans ?_
      rw [Assoc.get?_insert, if_neg hk]

variable {document : Json} {sent : Assoc Json}

private theorem documentSections?_mergeDocument {sections : Assoc Json}
    (h : documentSections? document = some sections) (sent : Assoc Json) :
    documentSections? (mergeDocument document (propertiesDocument sent)) =
      some (mergeSections sections sent) := by
  have hp : ((propertiesDocument sent).field? "properties").bind
      Json.asObject? = some sent :=
    documentSections?_propertiesDocument sent
  have hd : (document.field? "properties").bind Json.asObject? = some sections := h
  rw [mergeDocument]
  rw [hp, hd]
  cases document with
  | object fields => simp [documentSections?, Json.field?, Json.asObject?]
  | _ => simp [documentSections?, Json.field?, Json.asObject?] at h

/-- A document with object sections keeps them when a payload is put over it. -/
theorem HasObjectSections.merge (h : HasObjectSections document) (hs : Sendable sent) :
    HasObjectSections (mergeDocument document (propertiesDocument sent)) := by
  obtain ⟨sections, hd, hobj⟩ := h
  refine ⟨_, documentSections?_mergeDocument hd sent, ?_⟩
  intro name j hj
  cases hn : Assoc.get? sent name with
  | none =>
      rw [get?_mergeSections_of_none hn] at hj
      exact hobj name j hj
  | some i =>
      rw [get?_mergeSections_of_some hs.sorted hn] at hj
      obtain rfl := Option.some.inj hj
      obtain ⟨new, rfl, -⟩ := hs.object_of_get? hn
      cases hold : Assoc.get? sections name with
      | none => exact ⟨_, rfl⟩
      | some old =>
          obtain ⟨fields, rfl⟩ := hobj name old hold
          exact ⟨_, rfl⟩

/-- **A payload over a document**: the fields that the payload has are taken over, all
    others stay. -/
theorem heldField?_mergeDocument (h : HasObjectSections document) (hs : Sendable sent)
    (name field : String) :
    heldField? (mergeDocument document (propertiesDocument sent)) name field =
      (fieldIn? sent name field).or (heldField? document name field) := by
  obtain ⟨sections, hd, hobj⟩ := h
  rw [heldField?_eq (documentSections?_mergeDocument hd sent), heldField?_eq hd]
  simp only [fieldIn?]
  cases hn : Assoc.get? sent name with
  | none =>
      rw [get?_mergeSections_of_none hn]
      rfl
  | some i =>
      obtain ⟨new, rfl, hnew⟩ := hs.object_of_get? hn
      rw [get?_mergeSections_of_some hs.sorted hn]
      cases hold : Assoc.get? sections name with
      | none =>
          -- a section that was not there holds what is sent and nothing else
          show Assoc.get? (Assoc.insertAll [] new) field = (Assoc.get? new field).or none
          rw [Assoc.get?_insertAll_of_sorted [] hnew]
          rfl
      | some old =>
          obtain ⟨fields, rfl⟩ := hobj name old hold
          show Assoc.get? (Assoc.insertAll fields new) field =
            (Assoc.get? new field).or (Assoc.get? fields field)
          rw [Assoc.get?_insertAll_of_sorted fields hnew]

/-- A payload over the document without sections is all that it has. -/
theorem heldField?_mergeDocument_empty (hs : Sendable sent) (name field : String) :
    heldField? (mergeDocument emptyDocument (propertiesDocument sent)) name field =
      fieldIn? sent name field := by
  have hempty : heldField? emptyDocument name field = none := by
    show heldField? (propertiesDocument []) name field = none
    rw [heldField?_eq (documentSections?_propertiesDocument [])]
    rfl
  rw [heldField?_mergeDocument hasObjectSections_empty hs, hempty, Option.or_none]

/-! ## Stores -/

namespace Store

variable (store : Store) (a : Address)

/-- A document that was put is there. -/
theorem document?_putDocument (document : Json) :
    (store.putDocument a document).document? a = some document :=
  if_pos rfl

/-- A look at a document that was put is answered with it. -/
theorem serve_get_putDocument (document : Json) :
    serve (store.putDocument a document) (.get a) =
      (.ok document, store.putDocument a document) := by
  rw [serve, document?_putDocument]

/-- A look at a text that was put is answered with it. -/
theorem serve_getText_putText (body : String) :
    serve (store.putText a body) (.getText a) = (.ok body, store.putText a body) := by
  rw [serve, show (store.putText a body).text? a = some body from if_pos rfl]

end Store

end TrafficConfig
