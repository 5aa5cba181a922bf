import TrafficConfig.Proofs.Demands
import TrafficConfig.Proofs.Documents

/-!
# Objects that were created

What a create without errors leaves on a store that keeps what is written, and answers:

* **`create_eq_write`** — its plan is named, and can be written;
* **`created_document`** — the payload of the plan is the document of the object, and the
  state is what is read of it over the plan;
* **`created_text`** — the state is what the text of the plan is read as.
-/

namespace TrafficConfig

open Value

variable {r : Resource} {planned : Value} {store : Store}
  (hcreated : Diagnostic.anyError
    ((r.create planned).run Store.serve store).1.reports = false)
include hcreated

/-- A create without an error was not refused. -/
theorem not_refused_of_created : ¬ (Demand.create planned).Refused r :=
  (Resource.course_create planned Store.serve store (r := r)).not_refused hcreated

/-- A create without errors is the write of its plan. -/
theorem create_eq_write :
    ∃ name write, objectName (r.filled planned) = some name ∧
      r.Makes name (r.filled planned) write ∧
        r.create planned = r.write "create" name write (r.filled planned)
          (r.filled planned) (r.schema.prepare planned).2 := by
  have hrefused := not_refused_of_created hcreated
  have hvalid : ¬ Diagnostic.anyError (r.schema.prepare planned).2 = true :=
    fun h => hrefused (.inl h)
  obtain ⟨name, hname⟩ := Option.ne_none_iff_exists'.mp fun h => hrefused (.inr (.inl h))
  obtain ⟨report, -, -, hbad⟩ | ⟨write, hwrite, hmakes, -⟩ :=
    r.creation_cases name (r.filled planned)
  · exact absurd (.inr (.inr hbad)) hrefused
  · refine ⟨name, write, hname, hmakes, ?_⟩
    unfold Resource.create
    simp only [Resource.filled] at hname hwrite ⊢
    rw [if_neg hvalid]
    simp only [hname, hwrite]

/-- **A created document** is stored as its payload, and its state is what is read of it
    over the plan. -/
theorem created_document {sections : List Section} (hc : r.content = .document sections) :
    ∃ name payload, objectName (r.filled planned) = some name ∧
      createPayload (r.filled planned) sections = .ok payload ∧
        ((r.create planned).run Store.serve store).2.document? (r.address name) =
          some (mergeDocument emptyDocument payload) ∧
        ∀ state, stateOfDocument sections name (mergeDocument emptyDocument payload)
          (r.filled planned) = .ok state →
            ((r.create planned).run Store.serve store).1.state = state := by
  obtain ⟨name, write, hname, hmakes, hwrite⟩ := create_eq_write hcreated
  simp only [Resource.Makes, hc] at hmakes
  obtain ⟨payload, hpayload, rfl⟩ := hmakes
  refine ⟨name, payload, hname, hpayload, ?_⟩
  -- the store answers the look after the write with what was written
  have hget := store.serve_get_putDocument (r.address name) (mergeDocument emptyDocument payload)
  rw [hwrite, Resource.run_write, Resource.run_fetch hc]
  show (Store.serve (store.putDocument (r.address name) (mergeDocument emptyDocument payload))
      (.get (r.address name))).2.document? (r.address name) = _ ∧
    ∀ state, _ → (r.settled name _ _ (r.lookedAt sections name (r.filled planned) (Store.serve
      (store.putDocument (r.address name) (mergeDocument emptyDocument payload))
        (.get (r.address name))).1)).state = state
  rw [hget]
  refine ⟨store.document?_putDocument _ _, fun state hstate => ?_⟩
  simp only [Resource.lookedAt, hstate]
  rfl

/-- **The state of a created text** is what the text is read as. -/
theorem created_text {form : TextForm} (hc : r.content = .text form) :
    ∃ name body, form.encode (getOrNull (r.filled planned).root form.attributeName) = .ok body ∧
      ((r.create planned).run Store.serve store).1.state =
        form.stateOf name body (r.filled planned) := by
  obtain ⟨name, write, -, hmakes, hwrite⟩ := create_eq_write hcreated
  simp only [Resource.Makes, hc] at hmakes
  obtain ⟨body, hbody, rfl⟩ := hmakes
  refine ⟨name, body, hbody, ?_⟩
  have hget := store.serve_getText_putText (r.address name) body
  rw [hwrite, Resource.run_write]
  show (r.settled name _ _ ((r.fetch name (r.filled planned)).run Store.serve
    (store.putText (r.address name) body)).1).state = _
  simp only [Resource.fetch, hc, Operation.run_call, hget]
  rfl

end TrafficConfig
