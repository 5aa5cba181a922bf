import TrafficConfig.Resource.Lifecycle

/-!
# Managers

A manager looks after the objects of one resource type. It has to be connected to the API before
it can do so: until then it calls nothing, changes no state and says why.
-/

namespace TrafficConfig

/-- What a manager is given to work with. -/
inductive Connection where
  | api
  /-- Something that is no connection to the API. -/
  | foreign
  | missing

/-- A resource type, and whether its objects can be reached. -/
structure Manager where
  resource : Resource
  connected : Bool

namespace Manager

/-- A manager without a connection. -/
def of (r : Resource) : Manager := ⟨r, false⟩

/-- Take a connection. One that was taken before stays when the new one cannot be used. -/
def connect (m : Manager) : Connection → Manager × List Diagnostic
  | .api => ({ m with connected := true }, [])
  | .foreign =>
    (m, [.error "Invalid provider data" "Failed to extract VtmProviderData from provider data"])
  | .missing => (m, [.error "No provider data" "No provider data was provided to the resource"])

/-- The report of a manager without a connection. -/
def unconnected : Diagnostic :=
  .error "Provider not configured" "Provider data was not properly configured"

def create (m : Manager) (planned : Value) : Operation Applied :=
  if m.connected then m.resource.create planned else .done ⟨planned, [unconnected]⟩

def read (m : Manager) (current : Value) : Operation Refreshed :=
  if m.connected then m.resource.read current else .done ⟨some current, [unconnected]⟩

def update (m : Manager) (prior planned : Value) (changes : ChangeSet) : Operation Applied :=
  if m.connected then m.resource.update prior planned changes else .done ⟨prior, [unconnected]⟩

def delete (m : Manager) (prior : Value) : Operation (List Diagnostic) :=
  if m.connected then m.resource.delete prior else .done [unconnected]

end Manager

end TrafficConfig
