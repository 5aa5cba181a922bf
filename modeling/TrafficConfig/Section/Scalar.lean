import TrafficConfig.Section
import TrafficConfig.Number.Shortest

/-!
# Values of one field

Strings, booleans, integers and collections of strings in both directions. Nothing is converted: a
value of another shape is a type mismatch that names what was expected and what was found.
-/

namespace TrafficConfig

namespace Value

/-- The strings of a list or a set, in stored order. -/
def toStrings (v : Value) : Except ConfigError (List String) :=
  match v.elements? with
  | none => .error (.typeMismatch "list or set of strings" v.kindName)
  | some items => items.mapM fun
    | .string s => .ok s
    | other => .error (.typeMismatch "string" other.kindName)

def toJsonString : Value → Except ConfigError Json
  | .string s => .ok (.string s)
  | other => .error (.typeMismatch "string" other.kindName)

def toJsonBool : Value → Except ConfigError Json
  | .bool b => .ok (.bool b)
  | other => .error (.typeMismatch "bool" other.kindName)

/-- An integer: whole, and below 2⁶³ in magnitude. -/
def toJsonInt : Value → Except ConfigError Json
  | .number x =>
    match x.toInt? with
    | none => .error (.typeMismatch "whole number" ("number " ++ x.display))
    | some z =>
      if z.natAbs < Number.int64Bound then .ok (.int z)
      else .error (.typeMismatch "64-bit integer" ("number " ++ x.display))
  | other => .error (.typeMismatch "number" other.kindName)

def toJsonStrings (v : Value) : Except ConfigError Json :=
  v.toStrings.map fun ss => .array (ss.map .string)

end Value

namespace Json

def toValueString : Json → Except ConfigError Value
  | .string s => .ok (.string s)
  | other => .error (.typeMismatch "string" other.kindName)

def toValueBool : Json → Except ConfigError Value
  | .bool b => .ok (.bool b)
  | other => .error (.typeMismatch "bool" other.kindName)

/-- An integer, or a double without a fraction. -/
def toValueInt : Json → Except ConfigError Value
  | .int z => .ok (.number (Number.ofInt z))
  | .float x =>
    if x.isWhole then .ok (.number x)
    else .error (.typeMismatch "whole number" ("number " ++ x.display))
  | other => .error (.typeMismatch "number" other.kindName)

/-- The strings of an array, as values. -/
def toValueStrings : Json → Except ConfigError (List Value)
  | .array items => items.mapM fun
    | .string s => .ok (.string s)
    | other => .error (.typeMismatch "string" other.kindName)
  | other => .error (.typeMismatch "array" other.kindName)

def toValueList (j : Json) : Except ConfigError Value := j.toValueStrings.map .list

def toValueSet (j : Json) : Except ConfigError Value := j.toValueStrings.map .set

end Json

end TrafficConfig
