import TrafficConfig.Section.Scalar

/-!
# From declared values to a remote section

The fields of a section that are written: those with a value, the read-only ones apart. An absent
value and an absent block leave nothing.
-/

namespace TrafficConfig

mutual

/-- The document of a value that is not absent. -/
def FieldKind.toJson (name : String) : FieldKind → Value → Except ConfigError Json
  | .string, v => v.toJsonString
  | .bool, v => v.toJsonBool
  | .int, v => v.toJsonInt
  | .list, v => v.toJsonStrings
  | .set, v => v.toJsonStrings
  | .table ⟨fields, _, _⟩, v =>
    match v.elements? with
    | none => .error (.typeMismatch s!"{name} rows" v.kindName)
    | some rows => do
      let rows ← rows.mapM fun
        | .map row => do return .object (Assoc.ofEntries (← remoteEntries fields row))
        | other => .error (.typeMismatch s!"{name} row" other.kindName)
      return .array rows

/-- The remote fields of declared values, in the order of the table. -/
def remoteEntries : List Field → Assoc Value → Except ConfigError (List (String × Json))
  | [], _ => .ok []
  | ⟨name, remote, kind, readOnly, _⟩ :: rest, values =>
    if readOnly then remoteEntries rest values
    else match Assoc.get? values name with
      | none => remoteEntries rest values
      | some v =>
        if v.isAbsent then remoteEntries rest values
        else do
          let j ← kind.toJson name v
          return (remote, j) :: (← remoteEntries rest values)

end

/-- The document of a value; nothing for an absent one. -/
def Field.toJson? (f : Field) (v : Value) : Except ConfigError (Option Json) :=
  if v.isAbsent then .ok none else (f.kind.toJson f.name v).map some

namespace Section

/-- The remote fields of the values that the section's attributes have. -/
def toRemote (s : Section) (values : Assoc Value) : Except ConfigError (Assoc Json) :=
  (remoteEntries s.fields values).map Assoc.ofEntries

/-- The remote fields of the section, read from the root; nothing when its block is absent. -/
def toRemoteFromRoot (s : Section) (root : Assoc Value) : Except ConfigError (Assoc Json) :=
  match s.block with
  | none => s.toRemote root
  | some block => do
    match ← instance? root block with
    | some values => s.toRemote values
    | none => return []

end Section

end TrafficConfig
