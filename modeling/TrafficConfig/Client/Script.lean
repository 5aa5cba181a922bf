import TrafficConfig.Client.Exchange

/-!
# Scripted servers

An HTTP server that answers one request after the other as told, and notes the requests.
-/

namespace TrafficConfig

/-- What the server does with a request. -/
inductive Turn where
  /-- Answers; a truncated answer ends before the length that it announced. -/
  | reply (status : Nat) (body : String) (truncated : Bool)
  /-- Closes the connection. -/
  | close
  /-- Never answers. -/
  | hang

/-- Answers with such a status have no body. -/
def isBodiless (status : Nat) : Bool := status = 101 || status = 204 || status = 304

/-- What the client sees of a turn. Other informational answers are no answers, and a status has
three digits. -/
def Turn.exchange : Turn → Exchange
  | .reply status body truncated =>
    if isBodiless status then .reply status (some "")
    else if status < 200 || 1000 ≤ status then .broken "no answer"
    else .reply status (if truncated then none else some body)
  | .close => .broken "connection closed"
  | .hang => .timedOut

/-- The turns to come, and the requests so far, the latest first. -/
structure Script where
  turns : List Turn
  requests : List Request

/-- Take the next turn; a script that is used up is a fault of the server. -/
def Script.transport : Transport Script := fun s request =>
  let turn := s.turns.head?.getD (.reply 500 "script exhausted" false)
  (turn.exchange, ⟨s.turns.drop 1, request :: s.requests⟩)

/-- Nobody listens. -/
def nobody {σ : Type} : Transport σ := fun s _ => (.unreachable, s)

end TrafficConfig
