import TrafficConfig.Diagnostic
import TrafficConfig.Schema.Validation
import TrafficConfig.Section.Declared
import TrafficConfig.Payload
import TrafficConfig.Value.Access
import TrafficConfig.Api

/-!
# Resources

A resource type is a schema, the collection in which its objects live, and the way in which an
object holds what was declared:

* **`Content`**: an object is a document of sections, or a text that one attribute stands for;
* **`stateOfDocument`** and **`TextForm.stateOf`** bring what was fetched over a prior state.
  Whatever the remote side leaves out stays as the prior has it.
-/

namespace TrafficConfig

/-- How an attribute is written as a text, and read from one. -/
structure TextForm where
  attributeName : String
  encode : Value → Except ConfigError String
  decode : String → Value

/-- What the objects of a resource type are. -/
inductive Content where
  | document (sections : List Section)
  | text (form : TextForm)

/-- A resource type. -/
structure Resource where
  typeName : String
  collection : String
  schema : Schema
  content : Content

/-- The name in a state, unless it is empty; it is the identity of the object. -/
def objectName (state : Value) : Option String :=
  (state.getString (Path.ofName "name")).toOption.filter (!·.isEmpty)

/-- Put what sections hold over a state. Every section is read with the same prior. -/
def overlaySections (document : Json) (prior : Assoc Value) :
    List Section → Assoc Value → Except ConfigError (Assoc Value)
  | [], state => .ok state
  | s :: rest, state => do
    let values ← s.toDeclaredInRoot (documentSection? document s.remote) prior
    overlaySections document prior rest (Assoc.insertAll state values)

/-- The state that a fetched document stands for. -/
def stateOfDocument (sections : List Section) (name : String) (document : Json) (prior : Value) :
    Except ConfigError Value := do
  let state ← overlaySections document prior.root sections prior.root
  return .map (Assoc.insert state "name" (.string name))

/-- The state that a fetched text stands for. -/
def TextForm.stateOf (form : TextForm) (name body : String) (prior : Value) : Value :=
  .map (Assoc.insert (Assoc.insert prior.root "name" (.string name)) form.attributeName
    (form.decode body))

namespace Resource

def address (r : Resource) (name : String) : Address := ⟨r.collection, name⟩

/-- The report of an action on a named object that failed. -/
def failure (r : Resource) (action name reason : String) : Diagnostic :=
  .error s!"Failed to {action} {r.typeName}" s!"{r.typeName} '{name}': {reason}"

/-- The report of an action on a state without a name. -/
def nameless (r : Resource) (action : String) : Diagnostic :=
  .error s!"Failed to {action} {r.typeName}" "State has no name"

/-- The call that makes an object. -/
def creation (r : Resource) (name : String) (plan : Value) : Except Diagnostic Call :=
  match r.content with
  | .document sections =>
    match createPayload plan sections with
    | .ok payload => .ok (.create (r.address name) payload)
    | .error e => .error (r.failure "create" name e.message)
  | .text form =>
    match form.encode (Value.getOrNull plan.root form.attributeName) with
    | .ok body => .ok (.putText (r.address name) body)
    | .error e =>
      .error ((Diagnostic.error s!"Invalid {form.attributeName}" e.message).atPath
        (Path.ofName form.attributeName))

/-- The call that changes an object, if it takes one. -/
def revision (r : Resource) (name : String) (plan : Value) (changes : ChangeSet) :
    Except Diagnostic (Option Call) :=
  match r.content with
  | .document sections =>
    match updatePayload plan sections changes with
    | .ok payload => .ok (payload.map (.update (r.address name)))
    | .error e => .error (r.failure "update" name e.message)
  | .text _ => (r.creation name plan).map some

/-- Changes that concern nothing an object holds need not even a name. A document is compared
section by section later. -/
def untouchedBy (r : Resource) (changes : ChangeSet) : Bool :=
  match r.content with
  | .document _ => false
  | .text form => !changes.hasChange form.attributeName

end Resource

end TrafficConfig
