import TrafficConfig.Value
import TrafficConfig.Json.Printer
import TrafficConfig.Json.Reader
import TrafficConfig.Error

/-!
# Values as JSON documents

A set is written as an array, an unknown value as a mark, a whole number that fits a 64-bit
integer as an integer. Reading gives lists for arrays and unknown values for the mark; texts
nested deeper than 127 are refused.
-/

namespace TrafficConfig

/-- The string that stands for an unknown value. -/
def unknownMark : String := "__unknown__"

namespace Number

/-- A number in a document. -/
def toJson (x : Number) : Json :=
  match x.toInt? with
  | some z => if z.natAbs < int64Bound then .int z else .float x
  | none => if x.isFinite then .float x else .null

end Number

namespace Value

mutual

/-- The document of a value. -/
def toJson : Value → Json
  | .null => .null
  | .bool b => .bool b
  | .number x => x.toJson
  | .string s => .string s
  | .list items => .array (toJsonItems items)
  | .set items => .array (toJsonItems items)
  | .map entries => .object (toJsonFields entries)
  | .unknown => .string unknownMark

def toJsonItems : List Value → List Json
  | [] => []
  | v :: rest => toJson v :: toJsonItems rest

def toJsonFields : List (String × Value) → List (String × Json)
  | [] => []
  | (k, v) :: rest => (k, toJson v) :: toJsonFields rest

end

mutual

/-- The value of a document. -/
def ofJson : Json → Value
  | .null => .null
  | .bool b => .bool b
  | .int z => .number (Number.ofInt z)
  | .float x => .number x
  | .string s => if s = unknownMark then .unknown else .string s
  | .array items => .list (ofJsonItems items)
  | .object fields => .map (ofJsonFields fields)

def ofJsonItems : List Json → List Value
  | [] => []
  | j :: rest => ofJson j :: ofJsonItems rest

def ofJsonFields : List (String × Json) → List (String × Value)
  | [] => []
  | (k, j) :: rest => (k, ofJson j) :: ofJsonFields rest

end

/-- The JSON text of a value. -/
def encode (v : Value) : String := v.toJson.text

/-- How deeply a text may nest arrays and objects. -/
def nestingLimit : Nat := 127

/-- The value of a JSON text. -/
def decode (text : String) : Except ConfigError Value :=
  match Json.read? (some nestingLimit) text with
  | some j => .ok (ofJson j)
  | none => .error (.decoding "json decoding failed")

/-- The value of the bytes of a JSON text; bytes that are no UTF-8 are refused. -/
def decodeBytes (bytes : ByteArray) : Except ConfigError Value :=
  match String.fromUTF8? bytes with
  | some text => decode text
  | none => .error (.decoding "json decoding failed")

end Value

end TrafficConfig
