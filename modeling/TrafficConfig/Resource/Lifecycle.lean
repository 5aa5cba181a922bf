import TrafficConfig.Resource
import TrafficConfig.Api.Operation

/-!
# The life of an object

An object is created, read, updated and deleted. Nothing is called before the plan is valid, the
object has a name and the payload is made; after every write the object is read back, with the
plan as the prior:

* **`Resource.create`** answers with the plan until the write is accepted, and with what was read
  back after it;
* **`Resource.update`** answers with the prior state until then, and with the plan when there is
  nothing to write;
* **`Resource.read`** has no state when the object is gone;
* **`Resource.delete`** does not mind an object that is gone.

A failed read after a write leaves the plan as the state: the write was accepted.
-/

namespace TrafficConfig

/-- A state and the reports that came with it. -/
structure Applied where
  state : Value
  reports : List Diagnostic

/-- The state of an object that may be gone, and the reports that came with it. -/
structure Refreshed where
  state? : Option Value
  reports : List Diagnostic

/-- What a look at an object brings. -/
inductive Fetched where
  | found (state : Value)
  /-- The remote side knows no such object. -/
  | gone (reason : ApiError)
  | failed (report : Diagnostic)

/-- The report of a plan without a name. -/
def nameMissing : Diagnostic :=
  (Diagnostic.ofError (.requiredFieldNotSet "name")).atPath (Path.ofName "name")

namespace Resource

/-- The outcome of a call that brings nothing to read. -/
def unfetched (r : Resource) (name : String) (reason : ApiError) : Fetched :=
  if reason.isNotFound then .gone reason else .failed (r.failure "read" name reason.message)

/-- Fetch an object over a prior state. -/
def fetch (r : Resource) (name : String) (prior : Value) : Operation Fetched :=
  match r.content with
  | .document sections => .call (.get (r.address name)) fun
    | .ok document => .done <|
      match stateOfDocument sections name document prior with
      | .ok state => .found state
      | .error e => .failed (r.failure "read" name e.message)
    | .error reason => .done (r.unfetched name reason)
  | .text form => .call (.getText (r.address name)) fun
    | .ok body => .done (.found (form.stateOf name body prior))
    | .error reason => .done (r.unfetched name reason)

/-- The report of an object that is gone right after it was written. -/
def lost (r : Resource) (name : String) (reason : ApiError) : Diagnostic :=
  match r.content with
  | .document _ =>
    .error s!"Failed to read {r.typeName}"
      s!"{r.typeName} '{name}' was not found right after it was written"
  | .text _ => r.failure "read" name reason.message

/-- What is answered after a write, by what was read back. -/
def settled (r : Resource) (name : String) (plan : Value) (reports : List Diagnostic) :
    Fetched → Applied
  | .found state => ⟨state, reports⟩
  | .gone reason => ⟨plan, reports ++ [r.lost name reason]⟩
  | .failed report => ⟨plan, reports ++ [report]⟩

/-- Write, and read back; a write that is refused leaves a given state. -/
def write (r : Resource) (action name : String) (c : Call) (plan refused : Value)
    (reports : List Diagnostic) : Operation Applied :=
  .call c fun
    | .ok _ => r.settled name plan reports <$> r.fetch name plan
    | .error reason => .done ⟨refused, reports ++ [r.failure action name reason.message]⟩

/-- Make an object as planned. -/
def create (r : Resource) (planned : Value) : Operation Applied :=
  let (plan, reports) := r.schema.prepare planned
  if Diagnostic.anyError reports then .done ⟨plan, reports⟩
  else match objectName plan with
    | none => .done ⟨plan, reports ++ [nameMissing]⟩
    | some name =>
      match r.creation name plan with
      | .error report => .done ⟨plan, reports ++ [report]⟩
      | .ok c => r.write "create" name c plan plan reports

/-- The state of an object now. -/
def read (r : Resource) (current : Value) : Operation Refreshed :=
  match objectName current with
  | none => .done ⟨some current, [r.nameless "read"]⟩
  | some name =>
    (fun
      | .found state => ⟨some state, []⟩
      | .gone _ => ⟨none, []⟩
      | .failed report => ⟨some current, [report]⟩) <$> r.fetch name current

/-- Change an object as planned. It keeps the name that it has. -/
def update (r : Resource) (prior planned : Value) (changes : ChangeSet) : Operation Applied :=
  let (plan, reports) := r.schema.prepare planned
  if Diagnostic.anyError reports then .done ⟨prior, reports⟩
  else if r.untouchedBy changes then .done ⟨plan, reports⟩
  else match (objectName prior).or (objectName plan) with
    | none => .done ⟨prior, reports ++ [r.nameless "update"]⟩
    | some name =>
      match r.revision name plan changes with
      | .error report => .done ⟨prior, reports ++ [report]⟩
      | .ok none => .done ⟨plan, reports⟩
      | .ok (some c) => r.write "update" name c plan prior reports

/-- Remove an object. -/
def delete (r : Resource) (prior : Value) : Operation (List Diagnostic) :=
  match objectName prior with
  | none => .done [r.nameless "delete"]
  | some name => .call (.delete (r.address name)) fun
    | .ok _ => .done []
    | .error reason =>
      .done (if reason.isNotFound then [] else [r.failure "delete" name reason.message])

end Resource

end TrafficConfig
