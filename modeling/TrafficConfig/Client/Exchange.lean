import TrafficConfig.Api.Explanation
import TrafficConfig.Api.Operation
import TrafficConfig.Client
import TrafficConfig.Text.Word
import TrafficConfig.Value.Document

/-!
# Exchanges

A request is answered, or fails on its way. What can pass by itself, too many requests, a fault of
the server, no answer in time and no connection, is tried again as often as the client is patient:

* **`judge`** says of one outcome whether it is the last word;
* **`exchange`** repeats a request until the last word, or until the patience ends. How long it
  waits in between does not matter here;
* **`Client.serve`** makes a client of an HTTP server a server of calls.
-/

namespace TrafficConfig

/-- What becomes of a request. -/
inductive Exchange where
  /-- An answer, with its body unless that could not be read to its end. -/
  | reply (status : Nat) (body : Option String)
  | timedOut
  | unreachable
  | broken (reason : String)

/-- An HTTP server; it may change its state. -/
abbrev Transport (σ : Type) := σ → Request → Exchange × σ

/-- Whether an outcome is the last word. -/
inductive Verdict where
  | settled (outcome : Except ApiError String)
  /-- Worth another attempt; the error stands if there is none. -/
  | again (reason : ApiError)

/-- The error that an answer reports. -/
def ApiError.ofReply (status : Nat) (body : Option String) : ApiError :=
  let text := body.getD "Unknown error"
  match RemoteFault.ofText? text with
  | some fault => .api status fault.text (some fault)
  | none => .api status text none

/-- Whether an outcome is the last word for a client that waits so many seconds. -/
def judge (timeout : Nat) : Exchange → Verdict
  | .reply status body =>
    if 200 ≤ status && status < 300 then
      match body with
      | some text => .settled (.ok text)
      | none => .settled (.error (.request "the body of the answer ends too early"))
    else if status = 401 then .settled (.error .auth)
    else if status = 429 || (500 ≤ status && status < 600) then .again (.ofReply status body)
    else .settled (.error (.ofReply status body))
  | .timedOut => .again (.timeout timeout)
  | .unreachable => .again .unavailable
  | .broken reason => .settled (.error (.request reason))

/-- Repeat a request while it is worth it, up to a number of times. -/
def exchange {σ : Type} (transport : Transport σ) (timeout : Nat) (request : Request) :
    Nat → σ → Except ApiError String × σ
  | retries, s =>
    let (outcome, s') := transport s request
    match judge timeout outcome, retries with
    | .settled result, _ => (result, s')
    | .again reason, 0 => (.error reason, s')
    | .again _, retries + 1 => exchange transport timeout request retries s'

/-- The document of an answer; an empty one is null. -/
def documentOf (text : String) : Except ApiError Json :=
  if text.toList.all Text.isBlank then .ok .null
  else match Json.read? (some Value.nestingLimit) text with
    | some document => .ok document
    | none => .error (.parse "Failed to parse response: no JSON")

/-- What the body of an answer means for a call. -/
def Call.conclude (result : Except ApiError String) : (call : Call) → call.Answer
  | .create _ _ => result.bind documentOf
  | .get _ => result.bind documentOf
  | .update _ _ => result.bind documentOf
  | .delete _ => result.map fun _ => ()
  | .putText _ _ => result.map fun _ => ()
  | .getText _ => result

/-- Answer calls by requests, of which a library tells what becomes of them. A call without a
request is not answered by anybody. -/
def Client.ask {σ : Type} (c : Client) (library : Transport σ) : Server σ := fun s call =>
  match c.request call with
  | .error reason => (call.conclude (.error reason), s)
  | .ok request =>
    let (result, s') := exchange library c.timeout request c.retries s
    (call.conclude result, s')

/-- A client without any time gets no answer. -/
def Client.reach {σ : Type} (c : Client) (transport : Transport σ) : Transport σ := fun s request =>
  if c.timeout = 0 then (.timedOut, s) else transport s request

/-- Answer calls by requests to an HTTP server. -/
def Client.serve {σ : Type} (c : Client) (transport : Transport σ) : Server σ :=
  c.ask (c.reach transport)

end TrafficConfig
