import TrafficConfig.Api

/-!
# Operations

An operation is a finite tree of calls: it ends with a result, or makes a call and goes on with
the answer. What the answers are is up to a server, so an operation is the same against every
server:

* **`Operation`** with its monad;
* **`Operation.run`** runs an operation against a server that has a state.
-/

namespace TrafficConfig

/-- A program that calls the API and ends with a result. -/
inductive Operation (α : Type) : Type where
  | done (result : α)
  | call (c : Call) (next : c.Answer → Operation α)

/-- A server answers calls and may change its state. -/
abbrev Server (σ : Type) := σ → (c : Call) → c.Answer × σ

namespace Operation

/-- One operation after the other. -/
def bind {α β : Type} : Operation α → (α → Operation β) → Operation β
  | .done a, next => next a
  | .call c k, next => .call c fun answer => (k answer).bind next

instance : Monad Operation where
  pure := .done
  bind := bind

/-- The result of an operation against a server, and the state of the server afterwards. -/
def run {σ α : Type} (server : Server σ) : σ → Operation α → α × σ
  | s, .done a => (a, s)
  | s, .call c next =>
    let (answer, s') := server s c
    run server s' (next answer)

end Operation

end TrafficConfig
