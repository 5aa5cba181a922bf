import TrafficConfig.Api
import TrafficConfig.Json.Outline
import TrafficConfig.Value.Document

/-!
# Explanations of errors

The remote side explains an error in the body of an answer. An object is taken apart before its
members are read: those that say nothing about the error are not read at all, and those that do
must not be repeated.

* **`ofMembers?`**: the fault of an object, of which the keys are read;
* **`ofText?`**: the fault that a text explains.
-/

namespace TrafficConfig

namespace RemoteFault

/-- The string of a literal. -/
def string? (literal : List Char) : Option String :=
  (Json.read? none (String.ofList literal)).bind Json.asString?

/-- The members of an object, with their keys read and their values as they are written. -/
def named? : List Json.Outline.Element → Option (List (String × List Char))
  | [] => some []
  | m :: rest =>
    (string? m.key).bind fun name => (named? rest).map fun members => (name, m.value) :: members

/-- What is written behind a name. -/
def valuesOf (members : List (String × List Char)) (name : String) : List (List Char) :=
  (members.filter fun m => m.1 = name).map (·.2)

/-- Further information; its member may be missing. The object around it is one level of
nesting. -/
def info? : List (List Char) → Option (Option Json)
  | [] => some none
  | [value] =>
    (Json.read? (some (Value.nestingLimit - 1)) (String.ofList value)).map fun j =>
      infoOf (some j)
  | _ => none

/-- The fault of an object's members. -/
def ofMembers? (members : List (String × List Char)) : Option RemoteFault :=
  match valuesOf members "error_id", valuesOf members "error_text" with
  | [id], [text] =>
    (string? id).bind fun id => (string? text).bind fun text =>
      (info? (valuesOf members "error_info")).map fun info => ⟨id, text, info⟩
  | _, _ => none

/-- The fault that a text explains. -/
def ofText? (text : String) : Option RemoteFault :=
  match Json.Outline.pastBlanks text.toList with
  | [] => none
  | c :: rest =>
    if c = '\x7b' then ((Json.Outline.members? rest).bind named?).bind ofMembers?
    else if c = '[' then
      match Json.read? (some Value.nestingLimit) text with
      | some (.array items) => ofItems? items
      | _ => none
    else none

end RemoteFault

end TrafficConfig
