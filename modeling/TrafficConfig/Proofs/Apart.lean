import TrafficConfig.Api.Store

/-!
# Objects apart

A server keeps its objects apart when a call sees and changes nothing but the object that it
is about:

* **`Server.Splits`** — what the server holds is a part for each object. The answer to a call
  goes by the part of its object, and the other parts stay;
* **`Splits.answer_after`**, **`Splits.state_comm`** — calls about different objects can
  change places: neither the answers nor what the server holds at the end depend on their
  order;
* **`Store.splits`** — a store keeps its objects apart;
* **`FailingStore.splits`** — also when the calls about each object fail as told. Without
  faults such a store is the store (**`FailingStore.run_of_no_faults`**).
-/

namespace TrafficConfig

/-- What a server holds is a part for each object: a call goes by the part of its object,
    and leaves the other parts alone. -/
structure Server.Splits {σ κ : Type} (server : Server σ) (part : σ → Address → κ) : Prop where
  /-- There is nothing besides the parts. -/
  ext : ∀ {s s' : σ}, (∀ a, part s a = part s' a) → s = s'
  elsewhere : ∀ (s : σ) {c : Call} {a : Address}, a ≠ c.address →
    part (server s c).2 a = part s a
  answer : ∀ {s s' : σ} {c : Call}, part s c.address = part s' c.address →
    (server s c).1 = (server s' c).1
  here : ∀ {s s' : σ} {c : Call}, part s c.address = part s' c.address →
    part (server s c).2 c.address = part (server s' c).2 c.address

namespace Server.Splits

variable {σ κ : Type} {server : Server σ} {part : σ → Address → κ}

/-- A call is answered the same after a call about another object. -/
theorem answer_after (h : server.Splits part) (s : σ) {c d : Call}
    (hne : c.address ≠ d.address) : (server (server s d).2 c).1 = (server s c).1 :=
  h.answer (h.elsewhere s hne)

private theorem part_comm (h : server.Splits part) (s : σ) {c d : Call}
    (hne : c.address ≠ d.address) :
    part (server (server s c).2 d).2 c.address =
      part (server (server s d).2 c).2 c.address := by
  calc part (server (server s c).2 d).2 c.address
      = part (server s c).2 c.address := h.elsewhere _ hne
    _ = part (server (server s d).2 c).2 c.address := h.here (h.elsewhere s hne).symm

/-- Calls about different objects leave the same behind in either order. -/
theorem state_comm (h : server.Splits part) (s : σ) {c d : Call}
    (hne : c.address ≠ d.address) :
    (server (server s c).2 d).2 = (server (server s d).2 c).2 := by
  apply h.ext
  intro a
  by_cases hc : a = c.address
  · rw [hc]
    exact h.part_comm s hne
  · by_cases hd : a = d.address
    · rw [hd]
      exact (h.part_comm s hne.symm).symm
    · rw [h.elsewhere _ hd, h.elsewhere _ hc, h.elsewhere _ hc, h.elsewhere _ hd]

end Server.Splits

/-! ## Stores -/

namespace Store

/-- The document and the text of an object. -/
def kept (s : Store) (a : Address) : Option Json × Option String := (s.document? a, s.text? a)

@[simp] theorem kept_putDocument (s : Store) (a : Address) (j : Json) :
    (s.putDocument a j).kept a = (some j, s.text? a) := by
  simp [kept, putDocument]

@[simp] theorem kept_putText (s : Store) (a : Address) (body : String) :
    (s.putText a body).kept a = (s.document? a, some body) := by
  simp [kept, putText]

@[simp] theorem kept_remove (s : Store) (a : Address) :
    (s.remove a).kept a = (none, none) := by
  simp [kept, remove]

/-- Putting a document leaves other objects alone. -/
theorem kept_putDocument_of_ne (s : Store) {a b : Address} (h : b ≠ a) (j : Json) :
    (s.putDocument a j).kept b = s.kept b := by
  simp [kept, putDocument, h]

/-- Putting a text leaves other objects alone. -/
theorem kept_putText_of_ne (s : Store) {a b : Address} (h : b ≠ a) (body : String) :
    (s.putText a body).kept b = s.kept b := by
  simp [kept, putText, h]

/-- Removing an object leaves other objects alone. -/
theorem kept_remove_of_ne (s : Store) {a b : Address} (h : b ≠ a) :
    (s.remove a).kept b = s.kept b := by
  simp [kept, remove, h]

/-- A call leaves the other objects alone. -/
theorem kept_serve_of_ne (s : Store) {c : Call} {a : Address} (h : a ≠ c.address) :
    (s.serve c).2.kept a = s.kept a := by
  cases c with
  | create b payload => exact s.kept_putDocument_of_ne h _
  | get b =>
      rw [serve]
      cases s.document? b <;> rfl
  | update b payload =>
      rw [serve]
      cases s.document? b with
      | none => rfl
      | some document => exact s.kept_putDocument_of_ne h _
  | delete b =>
      rw [serve]
      split
      · exact s.kept_remove_of_ne h
      · rfl
  | putText b body => exact s.kept_putText_of_ne h _
  | getText b =>
      rw [serve]
      cases s.text? b <;> rfl

/-- What a call brings, and leaves of its object, goes by what is kept of the object. -/
theorem serve_congr {s s' : Store} {c : Call} (h : s.kept c.address = s'.kept c.address) :
    (s.serve c).1 = (s'.serve c).1 ∧
      (s.serve c).2.kept c.address = (s'.serve c).2.kept c.address := by
  have hdocument : s.document? c.address = s'.document? c.address := congrArg Prod.fst h
  have htext : s.text? c.address = s'.text? c.address := congrArg Prod.snd h
  cases c with
  | create a payload =>
      simp only [Call.address] at htext
      simp [serve, Call.address, htext]
  | get a =>
      simp only [Call.address] at hdocument h
      rw [serve, serve, hdocument]
      cases s'.document? a <;> exact ⟨rfl, h⟩
  | update a payload =>
      simp only [Call.address] at hdocument htext h
      rw [serve, serve, hdocument]
      cases s'.document? a with
      | none => exact ⟨rfl, h⟩
      | some document => simp [Call.address, htext]
  | delete a =>
      simp only [Call.address] at hdocument htext h
      rw [serve, serve, hdocument, htext]
      split
      · simp [Call.address]
      · exact ⟨rfl, h⟩
  | putText a body =>
      simp only [Call.address] at hdocument
      simp [serve, Call.address, hdocument]
  | getText a =>
      simp only [Call.address] at htext h
      rw [serve, serve, htext]
      cases s'.text? a <;> exact ⟨rfl, h⟩

/-- **A store keeps its objects apart.** -/
theorem splits : Server.Splits serve kept where
  ext := by
    intro s s' h
    obtain ⟨document?, text?⟩ := s
    obtain ⟨document?', text?'⟩ := s'
    congr 1
    · exact funext fun a => congrArg Prod.fst (h a)
    · exact funext fun a => congrArg Prod.snd (h a)
  elsewhere := kept_serve_of_ne
  answer h := (serve_congr h).1
  here h := (serve_congr h).2

end Store

/-- A store where calls may fail: for each object, what the coming calls about it fail with,
    if they do. The faults of a `FaultyStore` go by the order of all calls, and so a call
    about one object could use up the fault of another. -/
structure FailingStore where
  store : Store
  faults : Address → List (Option ApiError)

namespace FailingStore

/-- The faults after a call about an object. -/
def faultsAfter (s : FailingStore) (a : Address) : Address → List (Option ApiError) :=
  fun b => if b = a then (s.faults b).drop 1 else s.faults b

/-- Answer a call, or let it fail without an effect. -/
def serve : Server FailingStore := fun s c =>
  match (s.faults c.address).head?.join with
  | some reason => (.error reason, ⟨s.store, s.faultsAfter c.address⟩)
  | none => ((s.store.serve c).1, ⟨(s.store.serve c).2, s.faultsAfter c.address⟩)

/-- Without faults it is the store. -/
theorem serve_of_no_faults (store : Store) (c : Call) :
    serve ⟨store, fun _ => []⟩ c =
      ((store.serve c).1, ⟨(store.serve c).2, fun _ => []⟩) := by
  have hfaults : faultsAfter ⟨store, fun _ => []⟩ c.address = fun _ => [] := by
    funext b
    exact ite_self []
  rw [serve, hfaults]
  rfl

/-- Without faults an operation runs as against the store. -/
theorem run_of_no_faults {α : Type} (op : Operation α) (store : Store) :
    op.run serve ⟨store, fun _ => []⟩ =
      ((op.run Store.serve store).1, ⟨(op.run Store.serve store).2, fun _ => []⟩) := by
  induction op generalizing store with
  | done a => rfl
  | call c next ih =>
      show Operation.run serve (serve ⟨store, fun _ => []⟩ c).2
        (next (serve ⟨store, fun _ => []⟩ c).1) = _
      rw [serve_of_no_faults]
      exact ih _ _

/-- What is kept of an object, and the faults of the calls about it. -/
def kept (s : FailingStore) (a : Address) :
    (Option Json × Option String) × List (Option ApiError) :=
  (s.store.kept a, s.faults a)

/-- **A store keeps its objects apart also when calls fail.** -/
theorem splits : Server.Splits serve kept where
  ext := by
    intro s s' h
    obtain ⟨store, faults⟩ := s
    obtain ⟨store', faults'⟩ := s'
    congr 1
    · exact Store.splits.ext fun a => congrArg Prod.fst (h a)
    · exact funext fun a => congrArg Prod.snd (h a)
  elsewhere := by
    intro s c a h
    rw [serve]
    cases (s.faults c.address).head?.join with
    | some reason => simp only [kept, faultsAfter, if_neg h]
    | none => simp only [kept, faultsAfter, if_neg h, Store.kept_serve_of_ne _ h]
  answer := by
    intro s s' c h
    obtain ⟨hkept, hfaults⟩ := Prod.mk.inj h
    simp only [serve, hfaults]
    cases (s'.faults c.address).head?.join with
    | some reason => rfl
    | none => exact (Store.serve_congr hkept).1
  here := by
    intro s s' c h
    obtain ⟨hkept, hfaults⟩ := Prod.mk.inj h
    simp only [serve, hfaults]
    cases (s'.faults c.address).head?.join with
    | some reason => simp only [kept, faultsAfter, hkept, hfaults]
    | none => simp only [kept, faultsAfter, (Store.serve_congr hkept).2, hfaults]

end FailingStore

end TrafficConfig
