import TrafficConfig.Proofs.Demands

/-!
# Which calls a demand makes

A demand to a manager makes at most one write, and looks at the object at most once:

* **`WrittenThenLooked`** — one write, and one look after it if and only if the write was
  accepted;
* **`Demand.Performs`** — the calls of a demand that goes ahead, by what is asked for;
* **`calls_of_demand`** — a demand that is refused or has nothing to send makes no call,
  every other makes the calls that it performs. All of them are about one object of the
  manager's own collection.
-/

namespace TrafficConfig

/-- One write, and one look after it if and only if the write was accepted. -/
inductive WrittenThenLooked (write look : Call) : List Answered → Prop
  | refused {reason : ApiError} : WrittenThenLooked write look [⟨write, .error reason⟩]
  | accepted {result : write.Result} {answer : look.Answer} :
      WrittenThenLooked write look [⟨write, .ok result⟩, ⟨look, answer⟩]

namespace Demand

/-- The calls of a demand that goes ahead. -/
def Performs (r : Resource) (name : String) (demand : Demand) (calls : List Answered) :
    Prop :=
  match demand with
  | .create planned =>
      ∃ write, r.Makes name (r.filled planned) write ∧
        WrittenThenLooked write (r.look name) calls
  | .read _ => ∃ answer, calls = [⟨r.look name, answer⟩]
  | .update _ planned changes =>
      ∃ write, r.Changes name (r.filled planned) changes write ∧
        WrittenThenLooked write (r.look name) calls
  | .delete _ => ∃ answer, calls = [⟨.delete (r.address name), answer⟩]

end Demand

/-! ## The addresses of calls -/

/-- A look at an object goes to the address of the object. -/
theorem Resource.look_address (r : Resource) (name : String) :
    (r.look name).address = r.address name := by
  unfold Resource.look
  cases r.content <;> rfl

/-- The call that makes an object goes to the address of the object. -/
theorem Resource.Makes.address_eq {r : Resource} {name : String} {plan : Value} {c : Call}
    (h : r.Makes name plan c) : c.address = r.address name := by
  unfold Resource.Makes at h
  split at h <;> obtain ⟨_, -, rfl⟩ := h <;> rfl

/-- The call that changes an object goes to the address of the object. -/
theorem Resource.Changes.address_eq {r : Resource} {name : String} {plan : Value}
    {changes : ChangeSet} {c : Call} (h : r.Changes name plan changes c) :
    c.address = r.address name := by
  unfold Resource.Changes at h
  split at h
  · obtain ⟨_, -, rfl⟩ := h
    rfl
  · exact h.address_eq

/-- A write and the look after it go where each of them goes. -/
theorem WrittenThenLooked.address_eq {write look : Call} {calls : List Answered}
    (h : WrittenThenLooked write look calls) {a : Address} (hwrite : write.address = a)
    (hlook : look.address = a) : ∀ call ∈ calls, call.call.address = a := by
  cases h <;> simp [hwrite, hlook]

/-- All calls of a demand are about the object with its name. -/
theorem Demand.Performs.address_eq {r : Resource} {name : String} {demand : Demand}
    {calls : List Answered} (h : demand.Performs r name calls) :
    ∀ call ∈ calls, call.call.address = ⟨r.collection, name⟩ := by
  cases demand with
  | create planned =>
      obtain ⟨write, hmakes, hcalls⟩ := h
      exact hcalls.address_eq hmakes.address_eq (r.look_address name)
  | read current =>
      obtain ⟨answer, rfl⟩ := h
      intro call hcall
      obtain rfl := List.mem_singleton.mp hcall
      exact r.look_address name
  | update prior planned changes =>
      obtain ⟨write, hchanges, hcalls⟩ := h
      exact hcalls.address_eq hchanges.address_eq (r.look_address name)
  | delete prior =>
      obtain ⟨answer, rfl⟩ := h
      intro call hcall
      obtain rfl := List.mem_singleton.mp hcall
      rfl

/-- A demand that goes ahead makes a call. -/
theorem Demand.Performs.ne_nil {r : Resource} {name : String} {demand : Demand}
    {calls : List Answered} (h : demand.Performs r name calls) : calls ≠ [] := by
  rintro rfl
  cases demand with
  | create | update =>
      obtain ⟨write, -, hcalls⟩ := h
      exact nomatch hcalls
  | read | delete =>
      obtain ⟨answer, hcalls⟩ := h
      exact nomatch hcalls

/-! ## The calls of a course -/

private theorem written_then_looked {r : Resource} {name : String} {prior : Value}
    {write : Call} {result : write.Result} {look : Answered} {fetched : Fetched}
    (hlooked : Looked r name prior look fetched) :
    WrittenThenLooked write (r.look name) [⟨write, .ok result⟩, look] := by
  obtain ⟨call, answer⟩ := look
  obtain rfl : call = r.look name := hlooked.call_eq
  exact .accepted

/-- What a demand sends, and the look after it, are what it performs. -/
theorem performs_of_sends {r : Resource} {name : String} {demand : Demand}
    {write : Call} {calls : List Answered} (hwrite : demand.Sends r name write)
    (hcalls : WrittenThenLooked write (r.look name) calls) :
    demand.Performs r name calls := by
  cases demand with
  | create planned => exact ⟨write, hwrite, hcalls⟩
  | update prior planned changes => exact ⟨write, hwrite, hcalls⟩
  | read current => exact hwrite.elim
  | delete prior => exact hwrite.elim

/-- A course has no call, because there is none to make, or the calls that are performed
    for the name of the demand. -/
theorem Course.calls {r : Resource} {demand : Demand} {calls : List Answered}
    {reply : Reply} (h : Course r demand calls reply) :
    (demand.Refused r ∨ demand.SendsNothing r) ∧ calls = [] ∨
      ¬ (demand.Refused r ∨ demand.SendsNothing r) ∧
        ∃ name, demand.name? r = some name ∧ demand.Performs r name calls := by
  cases h with
  | refused hrefused => exact .inl ⟨.inl hrefused, rfl⟩
  | idle hrefused hidle => exact .inl ⟨.inr hidle, rfl⟩
  | unwritten hrefused hidle hname hwrite =>
      exact .inr ⟨not_or.mpr ⟨hrefused, hidle⟩, _, hname, performs_of_sends hwrite .refused⟩
  | written hrefused hidle hname hwrite herror hlooked =>
      exact .inr ⟨not_or.mpr ⟨hrefused, hidle⟩, _, hname,
        performs_of_sends hwrite (written_then_looked hlooked)⟩
  | @looked current name look fetched hread hname hlooked =>
      subst hread
      obtain ⟨call, answer⟩ := look
      obtain rfl : call = r.look name := hlooked.call_eq
      refine .inr ⟨?_, name, hname, answer, rfl⟩
      rintro (h | h)
      · exact nomatch hname.symm.trans h
      · exact h
  | deleted hdelete hname =>
      subst hdelete
      refine .inr ⟨?_, _, hname, _, rfl⟩
      rintro (h | h)
      · exact nomatch hname.symm.trans h
      · exact h

/-- **A demand makes the calls that it performs and no other**: none when it is refused,
    has nothing to send, or meets a manager that is not connected. Every call is about the
    object of the demand's name in the collection of the resource type. -/
theorem calls_of_demand {σ : Type} (m : Manager) (demand : Demand) (server : Server σ)
    (s : σ) :
    let r := m.resource
    let calls := (m.handle demand).history server s
    (calls = [] ↔
      m.connected = false ∨ demand.Refused r ∨ demand.SendsNothing r) ∧
      (calls ≠ [] → ∃ name, demand.name? r = some name ∧ demand.Performs r name calls ∧
        ∀ call ∈ calls, call.call.address = ⟨r.collection, name⟩) := by
  intro r calls
  cases hm : m.connected with
  | false =>
      have hnone : calls = [] := Manager.history_of_not_connected hm demand server s
      exact ⟨⟨fun _ => .inl rfl, fun _ => hnone⟩, fun hsome => absurd hnone hsome⟩
  | true =>
      obtain ⟨hstopped, hnone⟩ | ⟨hgoes, name, hname, hperforms⟩ :=
        (Manager.course hm demand server s).calls
      · exact ⟨⟨fun _ => .inr hstopped, fun _ => hnone⟩, fun hsome => absurd hnone hsome⟩
      · refine ⟨⟨fun hnone => absurd hnone hperforms.ne_nil, ?_⟩, fun _ =>
          ⟨name, hname, hperforms, hperforms.address_eq⟩⟩
        rintro (h | h)
        · exact nomatch h
        · exact absurd h hgoes

end TrafficConfig
