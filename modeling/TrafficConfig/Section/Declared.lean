import TrafficConfig.Section.Scalar
import TrafficConfig.Section.Rows

/-!
# From a remote section to declared values

What was declared before is the prior. A field that the remote side omits keeps its prior value. A
field that the prior leaves unset stays unset while the remote side holds only what a removed
value is sent as. Every other field takes the remote value; remote fields that no table names are
passed over.
-/

namespace TrafficConfig

/-- The declared value of a field in a prior, if there is a prior and it has one. -/
def priorValue? (prior : Option (Assoc Value)) (name : String) : Option Value :=
  prior.bind fun values => Assoc.get? values name

/-- Whether there is a prior and it leaves a field unset. -/
def unsetIn (prior : Option (Assoc Value)) (name : String) : Bool :=
  prior.isSome && (priorValue? prior name).all Value.isAbsent

/-- The rows of a prior value. -/
def priorRows (prior : Option Value) : List (Assoc Value) :=
  ((prior.bind Value.elements?).getD []).filterMap Value.asMap?

/-- The remote name of a table's key. -/
def remoteKey (fields : List Field) (key : String) : String :=
  match fields.find? (·.name = key) with
  | some f => f.remote
  | none => key

/-- The prior row with the key of a remote row; the first one, and only for a key that is a
string. -/
def matchingRow? (fields : List Field) (key : Option String) (earlier : List (Assoc Value))
    (row : Assoc Json) : Option (Assoc Value) :=
  key.bind fun key =>
    ((Assoc.get? row (remoteKey fields key)).bind Json.asString?).bind fun id =>
      Rows.find? earlier key id

mutual

/-- The declared value of a remote one. -/
def FieldKind.toValue (name : String) : FieldKind → Json → Option Value → Except ConfigError Value
  | _, .null, _ => .ok .null
  | .string, j, _ => j.toValueString
  | .bool, j, _ => j.toValueBool
  | .int, j, _ => j.toValueInt
  | .list, j, _ => j.toValueList
  | .set, j, _ => j.toValueSet
  | .table ⟨fields, key, ordered⟩, j, prior =>
    match j with
    | .array rows => do
      let earlier := priorRows prior
      let rows ← rows.mapM fun
        | .object row => do
          return Assoc.ofEntries
            (← declaredEntries fields row (matchingRow? fields key earlier row))
        | other => .error (.typeMismatch s!"{name} row" other.kindName)
      let rows := (Rows.arrange ⟨fields, key, ordered⟩ earlier rows).map Value.map
      return if ordered then .list rows else .set rows
    | other => .error (.typeMismatch s!"{name} rows" other.kindName)

/-- The declared values of remote fields, in the order of the table. -/
def declaredEntries :
    List Field → Assoc Json → Option (Assoc Value) → Except ConfigError (List (String × Value))
  | [], _, _ => .ok []
  | ⟨name, remote, kind, _, _⟩ :: rest, fields, prior =>
    let kept : List (String × Value) := (priorValue? prior name).toList.map fun v => (name, v)
    match Assoc.get? fields remote with
    | none => return kept ++ (← declaredEntries rest fields prior)
    | some j =>
      if unsetIn prior name && kind.isCleared j then
        return kept ++ (← declaredEntries rest fields prior)
      else do
        let v ← kind.toValue name j (priorValue? prior name)
        return (name, v) :: (← declaredEntries rest fields prior)

end

namespace Section

/-- The declared values of a remote section. -/
def toDeclared (s : Section) (remote : Assoc Json) (prior : Option (Assoc Value)) :
    Except ConfigError (Assoc Value) :=
  (declaredEntries s.fields remote prior).map Assoc.ofEntries

/-- No writable field of the remote section holds anything. -/
def isCleared (s : Section) (remote : Assoc Json) : Bool :=
  s.fields.all fun f => f.readOnly || match Assoc.get? remote f.remote with
    | none => true
    | some .null => true
    | some j => f.kind.isCleared j

/-- What a remote section puts into the root: its attributes, or its block with the one instance.
A block stays as it was when the section holds nothing to learn. -/
def toDeclaredInRoot (s : Section) (remote : Option (Assoc Json)) (priorRoot : Assoc Value) :
    Except ConfigError (Assoc Value) :=
  let remote := remote.getD []
  match s.block with
  | none => s.toDeclared remote (some priorRoot)
  | some block => do
    let prior ← instance? priorRoot block
    if remote.isEmpty || (prior.isNone && s.isCleared remote) then
      return (Assoc.get? priorRoot block).toList.map fun v => (block, v)
    else
      let values ← s.toDeclared remote prior
      return [(block, .list [.map values])]

end Section

end TrafficConfig
