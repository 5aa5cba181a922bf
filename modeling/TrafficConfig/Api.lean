import TrafficConfig.Json

/-!
# The configuration API

Every object lives at a collection and a name. Structured objects are documents of sections, rules
and zone files are plain texts:

* **`Call`** is what can be asked of the API, and `Call.Result` what a successful call brings;
* **`ApiError`** is why a call failed, with the error document of the remote side where there is
  one.
-/

namespace TrafficConfig

/-- The document in which the remote side explains an error. -/
structure RemoteFault where
  id : String
  text : String
  info : Option Json

namespace RemoteFault

/-- The fault on one line. -/
def display (f : RemoteFault) : String := f.id ++ ": " ++ f.text

/-- Further information, where it is not null. -/
def infoOf : Option Json → Option Json
  | some .null => none
  | other => other

/-- The fault of its members in order. -/
def ofItems? : List Json → Option RemoteFault
  | [.string id, .string text] => some ⟨id, text, none⟩
  | [.string id, .string text, info] => some ⟨id, text, infoOf (some info)⟩
  | _ => none

/-- Read a fault: an object with both texts, or an array of its members in order. -/
def ofJson? : Json → Option RemoteFault
  | .object fields =>
    match Assoc.get? fields "error_id", Assoc.get? fields "error_text" with
    | some (.string id), some (.string text) =>
      some ⟨id, text, infoOf (Assoc.get? fields "error_info")⟩
    | _, _ => none
  | .array items => ofItems? items
  | _ => none

/-- The document of a fault. -/
def toJson (f : RemoteFault) : Json :=
  .object (Assoc.ofEntries
    ([("error_id", .string f.id), ("error_text", .string f.text)] ++
      f.info.toList.map fun j => ("error_info", j)))

end RemoteFault

/-- Why a call failed. -/
inductive ApiError where
  /-- The request could not be made, or its answer not be read. -/
  | request (reason : String)
  /-- The remote side answered with an error status. -/
  | api (status : Nat) (message : String) (details : Option RemoteFault)
  /-- The answer is no JSON. -/
  | parse (reason : String)
  /-- The address of the server cannot be used. -/
  | invalidEndpoint (reason : String)
  | auth
  | timeout (seconds : Nat)
  | unavailable

namespace ApiError

/-- The text of an error. -/
def message : ApiError → String
  | .request reason => s!"HTTP request failed: {reason}"
  | .api status text _ => s!"API returned error (HTTP {status}): {text}"
  | .parse reason => s!"Failed to parse response: {reason}"
  | .invalidEndpoint reason => s!"Invalid endpoint: {reason}"
  | .auth => "Authentication failed"
  | .timeout seconds => s!"Request timeout after {seconds} seconds"
  | .unavailable => "Service unavailable, retry later"

/-- The status that the remote side answered with, where it is known. -/
def status? : ApiError → Option Nat
  | .api status _ _ => some status
  | .auth => some 401
  | _ => none

/-- The remote side says that there is no such object. -/
def isNotFound : ApiError → Bool
  | .api status _ _ => status == 404
  | _ => false

/-- The explanation of the remote side. -/
def details? : ApiError → Option RemoteFault
  | .api _ _ details => details
  | _ => none

end ApiError

/-- Where an object lives. -/
structure Address where
  collection : String
  name : String
  deriving DecidableEq

/-- The address in one text: the name stands behind the last slash. -/
def Address.ofText (text : String) : Address :=
  let (name, collection) := text.toList.reverse.span (· ≠ '/')
  ⟨String.ofList (collection.drop 1).reverse, String.ofList name.reverse⟩

/-- What can be asked of the API. -/
inductive Call where
  | create (address : Address) (payload : Json)
  | get (address : Address)
  | update (address : Address) (payload : Json)
  | delete (address : Address)
  | putText (address : Address) (body : String)
  | getText (address : Address)

namespace Call

/-- The object that a call is about. -/
def address : Call → Address
  | .create a _ => a
  | .get a => a
  | .update a _ => a
  | .delete a => a
  | .putText a _ => a
  | .getText a => a

/-- What a successful call brings. -/
@[reducible] def Result : Call → Type
  | .create _ _ => Json
  | .get _ => Json
  | .update _ _ => Json
  | .delete _ => Unit
  | .putText _ _ => Unit
  | .getText _ => String

/-- What a call is answered with. -/
abbrev Answer (c : Call) : Type := Except ApiError c.Result

end Call

end TrafficConfig
