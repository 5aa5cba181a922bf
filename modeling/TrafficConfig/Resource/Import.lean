import TrafficConfig.Diagnostic
import TrafficConfig.Value.Access

/-!
# Import

An object that exists already is taken over by its identity alone: the imported state holds the
identity and nothing else.
-/

namespace TrafficConfig

/-- The state with an identity at a path. -/
def importState (typeName : String) (path : Path) (id : String) : Except Diagnostic Value :=
  if id.isEmpty then
    .error ((Diagnostic.error "Missing import ID"
      s!"An ID is required to import {typeName}").atPath path)
  else
    match (Value.map []).store path (.string id) with
    | (state, .ok ()) => .ok state
    | (_, .error e) =>
      .error ((Diagnostic.error s!"Failed to set import ID: {e.message}"
        s!"Could not set attribute '{path.display}' to value '{id}'").atPath path)

end TrafficConfig
