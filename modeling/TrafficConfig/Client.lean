import TrafficConfig.Api
import TrafficConfig.Json.Printer
import TrafficConfig.Text.Base64
import TrafficConfig.Url

/-!
# Clients

A client knows the root of a configuration, who asks, and how patient it is:

* **`Client.of`** checks the address of the server;
* **`Client.objectUrl`** is where an object lives: the root, the collection, and the name as one
  segment;
* **`Client.request`** is the request for a call.
-/

namespace TrafficConfig

/-- Who may ask which server, and how patiently. -/
structure Client where
  root : String
  username : String
  password : String
  /-- How often a request is repeated. -/
  retries : Nat
  /-- How many seconds an answer may take. -/
  timeout : Nat

/-- Characters without slashes at the end. -/
def dropSlashes (cs : List Char) : List Char := (cs.reverse.dropWhile (· = '/')).reverse

/-- A client of the server at a URL. -/
def Client.of (server username password version : String) (retries timeout : Nat) :
    Except ApiError Client :=
  match Location.parse server with
  | .error fault => .error (.invalidEndpoint (server ++ ": " ++ fault.message))
  | .ok (.other _) => .error (.invalidEndpoint (server ++ ": scheme must be http or https"))
  | .ok (.web _) => .ok {
      root := String.ofList (dropSlashes server.toList) ++ "/api/tm/" ++ version ++ "/config/active"
      username, password, retries, timeout }

/-- What is done to an object. -/
inductive Method where
  | get
  | put
  | delete
  deriving DecidableEq

/-- A request. -/
structure Request where
  method : Method
  target : String
  authorization : String
  accept : String
  contentType : Option String
  body : String
  deriving DecidableEq

/-- Any bytes, the form of texts. -/
def bytesType : String := "application/octet-stream"

namespace Call

def method : Call → Method
  | .create _ _ => .put
  | .get _ => .get
  | .update _ _ => .put
  | .delete _ => .delete
  | .putText _ _ => .put
  | .getText _ => .get

/-- What may be answered. -/
def accept : Call → String
  | .getText _ => bytesType
  | _ => "*/*"

/-- What is sent, and its type. -/
def content : Call → String × Option String
  | .create _ payload => (payload.text, some "application/json")
  | .update _ payload => (payload.text, some "application/json")
  | .putText _ body => (body, some bytesType)
  | _ => ("", none)

end Call

namespace Client

/-- Where an object lives. -/
def objectUrl (c : Client) (a : Address) : String :=
  c.root ++ "/" ++ String.ofList (dropSlashes (a.collection.toList.dropWhile (· = '/'))) ++ "/" ++
    Percent.encodeName a.name

/-- The user's name and password, as a request tells them. -/
def authorization (c : Client) : String := "Basic " ++ Text.base64 (c.username ++ ":" ++ c.password)

/-- The request for a call. -/
def request (c : Client) (call : Call) : Except ApiError Request :=
  match Location.parse (c.objectUrl call.address) with
  | .ok (.web target) => .ok {
      method := call.method, target, authorization := c.authorization, accept := call.accept
      contentType := call.content.2, body := call.content.1 }
  | .ok (.other scheme) => .error (.request ("no requests to " ++ scheme))
  | .error fault => .error (.request fault.message)

end Client

end TrafficConfig
