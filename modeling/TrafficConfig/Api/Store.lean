import TrafficConfig.Api.Operation
import TrafficConfig.Payload

/-!
# A store of objects

A server that keeps what is written:

* **`mergeDocument`** puts the fields of a payload over those of a document, section by section;
* **`Store.serve`** answers every call from the documents and texts that were stored;
* **`FaultyStore.serve`** lets calls fail as told, without any effect, and notes the calls in order.
-/

namespace TrafficConfig

/-- A document without sections. -/
def emptyDocument : Json := propertiesDocument []

/-- Put the fields of a section over those of a section; a section that is no object neither gives
nor takes. -/
def mergeFields (stored : Json) (sent : Json) : Json :=
  match stored, sent with
  | .object old, .object new => .object (Assoc.insertAll old new)
  | stored, _ => stored

/-- Put the sections of a payload over those of a document. -/
def mergeSections (stored : Assoc Json) (sent : Assoc Json) : Assoc Json :=
  sent.foldl (fun acc (name, fields) =>
    Assoc.insert acc name (mergeFields ((Assoc.get? acc name).getD (.object [])) fields)) stored

/-- Put a payload over a document. A payload without sections changes nothing; a document without
sections loses whatever else it held. -/
def mergeDocument (stored payload : Json) : Json :=
  match (payload.field? "properties").bind Json.asObject? with
  | none => stored
  | some sent =>
    match stored, (stored.field? "properties").bind Json.asObject? with
    | .object fields, some sections =>
      .object (Assoc.insert fields "properties" (.object (mergeSections sections sent)))
    | _, _ => propertiesDocument (mergeSections [] sent)

/-- The documents and texts of a server. -/
structure Store where
  document? : Address → Option Json
  text? : Address → Option String

namespace Store

def empty : Store := ⟨fun _ => none, fun _ => none⟩

def putDocument (s : Store) (a : Address) (j : Json) : Store :=
  { s with document? := fun q => if q = a then some j else s.document? q }

def putText (s : Store) (a : Address) (body : String) : Store :=
  { s with text? := fun q => if q = a then some body else s.text? q }

/-- Remove a document and a text. -/
def remove (s : Store) (a : Address) : Store :=
  ⟨fun q => if q = a then none else s.document? q, fun q => if q = a then none else s.text? q⟩

/-- The answer to a call about an object that is not there. -/
def notFound (a : Address) : ApiError := .api 404 s!"{a.collection}/{a.name} does not exist" none

/-- Answer a call. -/
def serve : Server Store
  | s, .create a payload =>
    let document := mergeDocument emptyDocument payload
    (.ok document, s.putDocument a document)
  | s, .get a =>
    match s.document? a with
    | some document => (.ok document, s)
    | none => (.error (notFound a), s)
  | s, .update a payload =>
    match s.document? a with
    | some document =>
      let document := mergeDocument document payload
      (.ok document, s.putDocument a document)
    | none => (.error (notFound a), s)
  | s, .delete a =>
    if (s.document? a).isSome || (s.text? a).isSome then (.ok (), s.remove a)
    else (.error (notFound a), s)
  | s, .putText a body => (.ok (), s.putText a body)
  | s, .getText a =>
    match s.text? a with
    | some body => (.ok body, s)
    | none => (.error (notFound a), s)

end Store

/-- A store that lets calls fail: for each coming call an error or none, and the calls so far, the
latest first. -/
structure FaultyStore where
  store : Store
  faults : List (Option ApiError)
  calls : List Call

/-- Answer a call, or let it fail without an effect. -/
def FaultyStore.serve : Server FaultyStore := fun s c =>
  let rest := s.faults.drop 1
  match s.faults.head?.join with
  | some e => (.error e, ⟨s.store, rest, c :: s.calls⟩)
  | none =>
    let (answer, store) := s.store.serve c
    (answer, ⟨store, rest, c :: s.calls⟩)

end TrafficConfig
