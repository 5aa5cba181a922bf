import TrafficConfig.Section

/-!
# Names correspond one to one

Declared and remote names correspond one to one when no name on either side is used twice, in a
table of fields and in every table nested in it. The key of a table has to be a field of it.
-/

namespace TrafficConfig

/-- Why the names of a table do not correspond. -/
inductive NamingFault where
  | nameTwice (name : String)
  | remoteTwice (remote : String)
  | keyMissing (table key : String)
  deriving DecidableEq

/-- The words for a fault. -/
def NamingFault.message : NamingFault → String
  | .nameTwice name => s!"declarative name {name} is used twice"
  | .remoteTwice remote => s!"remote name {remote} is used twice"
  | .keyMissing table key => s!"{table} is keyed by missing field {key}"

/-- The first clash of a field's names with those of later fields. -/
def clash (name remote : String) : List Field → Except NamingFault Unit
  | [] => .ok ()
  | other :: rest =>
    if name = other.name then .error (.nameTwice name)
    else if remote = other.remote then .error (.remoteTwice remote)
    else clash name remote rest

mutual

/-- Check the table of a field, if it has one. -/
def FieldKind.checkNaming (name : String) : FieldKind → Except NamingFault Unit
  | .table ⟨fields, key, _⟩ =>
    match key with
    | some key =>
      if fields.any (·.name = key) then checkNaming fields else .error (.keyMissing name key)
    | none => checkNaming fields
  | _ => .ok ()

/-- Check a table; the first fault is reported. -/
def checkNaming : List Field → Except NamingFault Unit
  | [] => .ok ()
  | ⟨name, remote, kind, _, _⟩ :: rest => do
    clash name remote rest
    kind.checkNaming name
    checkNaming rest

end

end TrafficConfig
