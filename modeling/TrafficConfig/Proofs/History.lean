import TrafficConfig.Proofs.Payload
import TrafficConfig.Resource.Lifecycle

/-!
# What happens during an operation

An operation against a server makes calls and gets answers:

* **`Operation.history`** — the calls with their answers, in order. A change of the result
  changes neither the history nor the server (**`history_map`**, **`run_map`**);
* **`Resource.create_cases`**, **`update_cases`**, **`read_cases`** — what an operation on
  an object comes down to: it ends at once, it writes and reads back, or it fetches;
* **`run_write`** — a write that is refused leaves the given state, and one that is
  accepted is read back.
-/

namespace TrafficConfig

/-- A call with its answer. -/
structure Answered where
  call : Call
  answer : call.Answer

namespace Operation

variable {σ α β : Type} {server : Server σ}

/-- The calls of an operation against a server with their answers, the first one first. -/
def history (server : Server σ) : σ → Operation α → List Answered
  | _, .done _ => []
  | s, .call c next =>
      ⟨c, (server s c).1⟩ :: history server (server s c).2 (next (server s c).1)

/-- A call is answered, and what follows goes on from there. -/
theorem run_call (c : Call) (next : c.Answer → Operation α) (s : σ) :
    run server s (.call c next) = run server (server s c).2 (next (server s c).1) := rfl

theorem history_call (c : Call) (next : c.Answer → Operation α) (s : σ) :
    history server s (.call c next) =
      ⟨c, (server s c).1⟩ :: history server (server s c).2 (next (server s c).1) := rfl

/-- Changing the result changes no call. -/
theorem history_map (change : α → β) (op : Operation α) (s : σ) :
    history server s (change <$> op) = history server s op := by
  induction op generalizing s with
  | done a => rfl
  | call c next ih =>
      show _ :: history server _ (change <$> next _) = _ :: history server _ (next _)
      rw [ih]

/-- Changing the result changes nothing else. -/
theorem run_map (change : α → β) (op : Operation α) (s : σ) :
    run server s (change <$> op) = (change (run server s op).1, (run server s op).2) := by
  induction op generalizing s with
  | done a => rfl
  | call c next ih =>
      show run server _ (change <$> next _) = _
      rw [ih]
      rfl

end Operation

namespace Resource

variable {σ : Type} {server : Server σ} {r : Resource} {sections : List Section}

/-! ## Looking at an object -/

/-- What an answer to a look at a document brings. -/
def lookedAt (r : Resource) (sections : List Section) (name : String) (prior : Value) :
    Except ApiError Json → Fetched
  | .ok document =>
    match stateOfDocument sections name document prior with
    | .ok state => .found state
    | .error e => .failed (r.failure "read" name e.message)
  | .error reason => r.unfetched name reason

variable (hc : r.content = .document sections)
include hc

/-- A fetch ends with what the look at the object brought. -/
theorem run_fetch (name : String) (prior : Value) (s : σ) :
    (r.fetch name prior).run server s =
      (r.lookedAt sections name prior (server s (.get (r.address name))).1,
        (server s (.get (r.address name))).2) := by
  simp only [fetch, hc, Operation.run_call]
  cases (server s (.get (r.address name))).1 <;> rfl

/-- A fetch makes one call, the look at the object. -/
theorem history_fetch (name : String) (prior : Value) (s : σ) :
    (r.fetch name prior).history server s =
      [⟨.get (r.address name), (server s (.get (r.address name))).1⟩] := by
  simp only [fetch, hc, Operation.history_call]
  cases (server s (.get (r.address name))).1 <;> rfl

omit hc

/-! ## Writing -/

/-- What a call answers when it is refused. -/
def refusal? {c : Call} : c.Answer → Option ApiError
  | .ok _ => none
  | .error reason => some reason

/-- **A write that is refused leaves the given state; one that is accepted is read back
    over the plan.** -/
theorem run_write (action name : String) (c : Call) (plan refused : Value)
    (reports : List Diagnostic) (s : σ) :
    (r.write action name c plan refused reports).run server s =
      match refusal? (server s c).1 with
      | some reason => (⟨refused, reports ++ [r.failure action name reason.message]⟩,
          (server s c).2)
      | none => (r.settled name plan reports
          ((r.fetch name plan).run server (server s c).2).1,
          ((r.fetch name plan).run server (server s c).2).2) := by
  rw [write, Operation.run_call]
  cases (server s c).1 with
  | error reason => rfl
  | ok result => exact Operation.run_map _ _ _

/-- A write is one call, and a look at the object unless the write was refused. -/
theorem history_write (action name : String) (c : Call) (plan refused : Value)
    (reports : List Diagnostic) (s : σ) :
    (r.write action name c plan refused reports).history server s =
      ⟨c, (server s c).1⟩ :: match refusal? (server s c).1 with
        | some _ => []
        | none => (r.fetch name plan).history server (server s c).2 := by
  rw [write, Operation.history_call]
  cases (server s c).1 with
  | error reason => rfl
  | ok result =>
      show _ :: Operation.history server _
        (r.settled name plan reports <$> r.fetch name plan) = _
      rw [Operation.history_map]
      rfl

/-! ## The operations -/

/-- A report that is an error makes reports an error. -/
theorem anyError_append {report : Diagnostic} (h : report.isError = true)
    (reports : List Diagnostic) : Diagnostic.anyError (reports ++ [report]) = true := by
  simp [Diagnostic.anyError, h]

/-- What comes of a create: the plan with an error, or a write. -/
theorem create_cases (hc : r.content = .document sections) (planned : Value) :
    (∃ reports, Diagnostic.anyError reports = true ∧
      r.create planned = .done ⟨(r.schema.prepare planned).1, reports⟩) ∨
      ∃ name payload, objectName (r.schema.prepare planned).1 = some name ∧
        createPayload (r.schema.prepare planned).1 sections = .ok payload ∧
          r.create planned = r.write "create" name (.create (r.address name) payload)
            (r.schema.prepare planned).1
            (r.schema.prepare planned).1 (r.schema.prepare planned).2 := by
  unfold create creation
  by_cases herror : Diagnostic.anyError (r.schema.prepare planned).2 = true
  · left
    exact ⟨_, herror, if_pos herror⟩
  · cases hname : objectName (r.schema.prepare planned).1 with
    | none =>
        left
        refine ⟨(r.schema.prepare planned).2 ++ [nameMissing], anyError_append rfl _, ?_⟩
        simp only [herror, hname]
        rfl
    | some name =>
        cases hpayload : createPayload (r.schema.prepare planned).1 sections with
        | error e =>
            left
            refine ⟨(r.schema.prepare planned).2 ++ [r.failure "create" name e.message],
              anyError_append rfl _, ?_⟩
            simp only [herror, hname, hc, hpayload]
            rfl
        | ok payload =>
            right
            refine ⟨name, payload, rfl, rfl, ?_⟩
            simp only [herror, hname, hc, hpayload]
            rfl

/-- What comes of an update: the prior state with an error, the plan when there is nothing
    to write, or a write. -/
theorem update_cases (hc : r.content = .document sections) (prior planned : Value)
    (changes : ChangeSet) :
    (∃ reports, Diagnostic.anyError reports = true ∧
      r.update prior planned changes = .done ⟨prior, reports⟩) ∨
      ∃ name, (objectName prior).or (objectName (r.schema.prepare planned).1) = some name ∧
        Diagnostic.anyError (r.schema.prepare planned).2 = false ∧
          ((updatePayload (r.schema.prepare planned).1 sections changes = .ok none ∧
              r.update prior planned changes = .done
                ⟨(r.schema.prepare planned).1, (r.schema.prepare planned).2⟩) ∨
            ∃ payload, updatePayload (r.schema.prepare planned).1 sections
              changes = .ok (some payload) ∧
              r.update prior planned changes = r.write "update" name
                (.update (r.address name) payload)
                (r.schema.prepare planned).1 prior (r.schema.prepare planned).2) := by
  simp only [update, revision, untouchedBy]
  simp only [hc]
  by_cases herror : Diagnostic.anyError (r.schema.prepare planned).2 = true
  · -- the plan itself is in error
    left
    exact ⟨(r.schema.prepare planned).2, herror, if_pos herror⟩
  · rw [Bool.not_eq_true] at herror
    simp only [herror, Bool.false_eq_true, if_false]
    cases hname : (objectName prior).or (objectName (r.schema.prepare planned).1) with
    | none =>
        left
        exact ⟨_, anyError_append rfl _, rfl⟩
    | some name =>
        cases hpayload : updatePayload (r.schema.prepare planned).1 sections changes with
        | error e =>
            left
            exact ⟨_, anyError_append rfl _, rfl⟩
        | ok payload? =>
            right
            refine ⟨name, rfl, trivial, ?_⟩
            cases payload? with
            | none =>
                left
                exact ⟨rfl, rfl⟩
            | some payload =>
                right
                exact ⟨payload, rfl, rfl⟩

/-- The state that a look at an object brings. -/
def refreshed (current : Value) : Fetched → Refreshed
  | .found state => ⟨some state, []⟩
  | .gone _ => ⟨none, []⟩
  | .failed report => ⟨some current, [report]⟩

/-- What comes of a read: the state with a report, or a look at the object. -/
theorem read_cases (current : Value) :
    (objectName current = none ∧
      ∃ reports, r.read current = .done ⟨some current, reports⟩) ∨
      ∃ name, objectName current = some name ∧ r.read current = refreshed current <$>
        r.fetch name current := by
  rw [read]
  cases hname : objectName current with
  | none => exact .inl ⟨rfl, _, rfl⟩
  | some name =>
      right
      refine ⟨name, rfl, ?_⟩
      congr 1

end Resource

end TrafficConfig
