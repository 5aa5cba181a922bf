import TrafficConfig.Section.Remote
import TrafficConfig.ChangeSet

/-!
# Payloads

The documents that are sent. A create sends everything that is configured. An update sends what
changed, at the granularity at which the remote side takes each section:

* **`Section.fieldUpdate`**: the changed fields, and with them those that are always sent;
* **`Section.wholeUpdate`**: every writable field, once anything in the section changed;
* a changed field without a value is sent as cleared;
* **`updatePayload`** is nothing when nothing changed, so fields that are always sent never cause
  an update.
-/

namespace TrafficConfig

/-- Sections as a document. -/
def propertiesDocument (sections : Assoc Json) : Json := .object [("properties", .object sections)]

/-- The section of a document. -/
def documentSection? (document : Json) (name : String) : Option (Assoc Json) :=
  ((document.field? "properties").bind fun properties => properties.field? name).bind Json.asObject?

/-- The root of a configuration; one that is not set has no attributes. -/
def configRoot (config : Value) : Except ConfigError (Assoc Value) :=
  match config with
  | .map entries => .ok entries
  | .null => .ok []
  | other => .error (.typeMismatch "object" other.kindName)

/-- Put fields into a section, over those that are there already. -/
def mergeSection (properties : Assoc Json) (remote : String) (fields : Assoc Json) : Assoc Json :=
  match (Assoc.get? properties remote).bind Json.asObject? with
  | some existing => Assoc.insert properties remote (.object (Assoc.insertAll existing fields))
  | none => Assoc.insert properties remote (.object fields)

/-- Put fields into a section, unless there are none. -/
def addFields (properties : Assoc Json) (remote : String) (fields : Assoc Json) : Assoc Json :=
  if fields.isEmpty then properties else mergeSection properties remote fields

/-- The sections of a create, over those of earlier ones. -/
def createSections (root : Assoc Value) :
    List Section → Assoc Json → Except ConfigError (Assoc Json)
  | [], properties => .ok properties
  | s :: rest, properties => do
    let fields ← s.toRemoteFromRoot root
    createSections root rest (addFields properties s.remote fields)

/-- The document of a create: every configured field. -/
def createPayload (config : Value) (sections : List Section) : Except ConfigError Json := do
  let root ← configRoot config
  return propertiesDocument (← createSections root sections [])

/-- The fields of an update, in the order of the table: those that `wanted` selects. A selected
field without a value is cleared when it changed, and left out when it did not. -/
def updateEntries (values : Assoc Value) (changed : Field → Bool) :
    List Field → Except ConfigError (List (String × Json))
  | [] => .ok []
  | f :: rest =>
    if f.readOnly || !(changed f || f.alwaysSent) then updateEntries values changed rest
    else do
      match ← f.toJson? (Value.getOrNull values f.name) with
      | some j => return (f.remote, j) :: (← updateEntries values changed rest)
      | none =>
        if changed f then return (f.remote, f.kind.cleared) :: (← updateEntries values changed rest)
        else updateEntries values changed rest

namespace Section

/-- The values of the section's attributes: the root, or the instance of its block, which has none
when it is absent. -/
def valuesIn (s : Section) (root : Assoc Value) : Except ConfigError (Assoc Value) :=
  match s.block with
  | some block => (instance? root block).map (·.getD [])
  | none => .ok root

/-- The fields to send when the remote side keeps what is left out, and whether a field changed. -/
def fieldUpdate (s : Section) (root : Assoc Value) (changes : ChangeSet) :
    Except ConfigError (Assoc Json × Bool) := do
  let values ← s.valuesIn root
  let changed (f : Field) := changes.hasChange (s.pathOf f)
  let entries ← updateEntries values changed s.fields
  return (Assoc.ofEntries entries, s.fields.any fun f => !f.readOnly && changed f)

/-- Whether anything in a section changed that is replaced as a whole. -/
def wholeChanged (s : Section) (changes : ChangeSet) : Bool :=
  match s.block with
  | some block => changes.hasChange block
  | none => s.fields.any fun f => !f.readOnly && changes.hasChange f.name

/-- The fields to send when the remote side replaces the section, and whether the section
changed. -/
def wholeUpdate (s : Section) (root : Assoc Value) (changes : ChangeSet) :
    Except ConfigError (Assoc Json × Bool) :=
  if s.wholeChanged changes then do
    let values ← s.valuesIn root
    let entries ← updateEntries values (fun _ => true) s.fields
    return (Assoc.ofEntries entries, true)
  else return ([], false)

/-- The fields of the section to send, and whether the section changed. -/
def update (s : Section) (root : Assoc Value) (changes : ChangeSet) :
    Except ConfigError (Assoc Json × Bool) :=
  match s.granularity with
  | .field => s.fieldUpdate root changes
  | .section => s.wholeUpdate root changes

end Section

/-- The sections of an update, over those of earlier ones, and whether anything changed. -/
def updateSections (root : Assoc Value) (changes : ChangeSet) :
    List Section → Assoc Json × Bool → Except ConfigError (Assoc Json × Bool)
  | [], acc => .ok acc
  | s :: rest, (properties, changed) => do
    let (fields, sectionChanged) ← s.update root changes
    updateSections root changes rest
      (addFields properties s.remote fields, changed || sectionChanged)

/-- The document of an update, or nothing when there is nothing to send. -/
def updatePayload (config : Value) (sections : List Section) (changes : ChangeSet) :
    Except ConfigError (Option Json) := do
  let root ← configRoot config
  let (properties, changed) ← updateSections root changes sections ([], false)
  return if changed then some (propertiesDocument properties) else none

end TrafficConfig
