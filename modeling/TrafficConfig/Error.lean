import TrafficConfig.Path

/-!
# Errors

What can go wrong with a configuration, and the text for each cause.
-/

namespace TrafficConfig

/-- Why a value, a path or a configuration was refused. -/
inductive ConfigError where
  | resourceNotFound (typeName : String)
  | providerNotConfigured
  | invalidConfiguration (reason : String)
  | requiredFieldNotSet (name : String)
  | encoding (reason : String)
  | decoding (reason : String)
  | typeMismatch (expected actual : String)
  | attributeNotFound (name : String)
  | validationFailed (reason : String)
  /-- A list has no element at this position. -/
  | indexOutOfBounds (position : Nat)
  /-- A path leads on through a value of this kind, which has no such step. -/
  | cannotFollow (path : Path) (kind : String)
  /-- A value cannot be stored behind a value that has no such step. -/
  | cannotStore
  | custom (text : String)
  deriving DecidableEq

/-- The text of an error. -/
def ConfigError.message : ConfigError → String
  | .resourceNotFound typeName => s!"Resource type not found: {typeName}"
  | .providerNotConfigured => "Provider not configured"
  | .invalidConfiguration reason => s!"Invalid configuration: {reason}"
  | .requiredFieldNotSet name => Text.quote name ++ ": required field is not set"
  | .encoding reason => s!"Encoding error: {reason}"
  | .decoding reason => s!"Decoding error: {reason}"
  | .typeMismatch expected actual => s!"Type mismatch: expected {expected}, got {actual}"
  | .attributeNotFound name => s!"Attribute not found: {name}"
  | .validationFailed reason => s!"Validation failed: {reason}"
  | .indexOutOfBounds position => s!"list index {position} out of bounds"
  | .cannotFollow path kind => "invalid path navigation at " ++ path.display ++ " through " ++ kind
  | .cannotStore => "invalid path navigation"
  | .custom text => text

end TrafficConfig
