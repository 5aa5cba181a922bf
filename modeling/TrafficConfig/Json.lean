import TrafficConfig.Assoc
import TrafficConfig.Number

/-!
# JSON documents

The documents of the configuration API. A numeral without fraction and exponent stays an integer,
every other numeral is a double; the two are different values even when they denote the same
number. Objects are maps with string keys.
-/

namespace TrafficConfig

/-- A JSON document. -/
inductive Json where
  | null
  | bool (b : Bool)
  | int (z : Int)
  | float (x : Number)
  | string (s : String)
  | array (items : List Json)
  | object (fields : List (String × Json))
  deriving Inhabited

namespace Json

/-- The kind of a document, as messages call it. -/
def kindName : Json → String
  | .null => "null"
  | .bool _ => "bool"
  | .int _ => "number"
  | .float _ => "number"
  | .string _ => "string"
  | .array _ => "array"
  | .object _ => "object"

def isNull : Json → Bool
  | .null => true
  | _ => false

def asString? : Json → Option String
  | .string s => some s
  | _ => none

def asObject? : Json → Option (Assoc Json)
  | .object fields => some fields
  | _ => none

/-- The value of an object's field; nothing for any other document. -/
def field? (j : Json) (name : String) : Option Json :=
  j.asObject?.bind fun fields => Assoc.get? fields name

mutual

/-- How many arrays and objects are nested in each other at the deepest place. -/
def depth : Json → Nat
  | .array items => depthItems items + 1
  | .object fields => depthFields fields + 1
  | _ => 0

def depthItems : List Json → Nat
  | [] => 0
  | j :: rest => max (depth j) (depthItems rest)

def depthFields : List (String × Json) → Nat
  | [] => 0
  | (_, j) :: rest => max (depth j) (depthFields rest)

end

mutual

/-- The keys of every object are strictly ascending, as reading a text makes them. -/
def Sorted : Json → Prop
  | .array items => SortedItems items
  | .object fields => Assoc.Sorted fields ∧ SortedFields fields
  | _ => True

def SortedItems : List Json → Prop
  | [] => True
  | j :: rest => Sorted j ∧ SortedItems rest

def SortedFields : List (String × Json) → Prop
  | [] => True
  | (_, j) :: rest => Sorted j ∧ SortedFields rest

end

end Json

end TrafficConfig
