import TrafficConfig.Schema.Defaults

/-!
# Validation

All violations of a configuration, in the order of the declarations: first the attributes of a
block, then its nested blocks with their instances.
-/

namespace TrafficConfig

/-- The report of a required attribute or block that is missing. -/
def missing (name : String) (path : Path) : Diagnostic :=
  (Diagnostic.error (ConfigError.requiredFieldNotSet name).message
    ("The argument \"" ++ path.display ++ "\" is required, but no definition was found.")).atPath
      path

/-- The violations of one attribute in an instance at a path. -/
def Attribute.validate (a : Attribute) (origin : Path) (values : Assoc Value) : List Diagnostic :=
  let path := origin.name a.name
  match Value.getOrNull values a.name with
  | .null => if a.required then [missing a.name path] else []
  | .unknown => []
  | v =>
    if a.type.accepts v then a.validators.flatMap fun check => check.validate path v
    else [(Diagnostic.error ("Invalid value for " ++ path.display)
      (ConfigError.typeMismatch a.type.display v.kindName).message).atPath path]

/-- The instances of a block: the elements of a list or a set, or a map as the only one. -/
def Value.instances : Value → List Value
  | .list items => items
  | .set items => items
  | .map entries => [.map entries]
  | _ => []

/-- Violations of the number of instances. -/
def NestedBlock.countViolations (name : String) (minItems maxItems : Int) (path : Path)
    (count : Nat) : List Diagnostic :=
  (if count = 0 ∧ 0 < minItems then [missing name path] else []) ++
    (if 0 < maxItems ∧ maxItems < count then
      [(Diagnostic.error s!"Too many {name} blocks"
        s!"No more than {maxItems} \"{name}\" blocks are allowed").atPath path]
    else [])

mutual

/-- The violations of an instance at a path. -/
def Block.violations : Block → Path → Assoc Value → List Diagnostic
  | .mk _ _ attributes blocks, origin, values =>
    attributes.flatMap (fun a => a.validate origin values) ++ nestedViolations blocks origin values

/-- The violations of nested blocks. -/
def Block.nestedViolations : List NestedBlock → Path → Assoc Value → List Diagnostic
  | [], _, _ => []
  | .mk name _ minItems maxItems block :: rest, origin, values =>
    let path := origin.name name
    let instances := (Value.getOrNull values name).instances
    NestedBlock.countViolations name minItems maxItems path instances.length ++
      instances.zipIdx.flatMap (fun
        | (.map entries, i) => violations block (path.index i) entries
        | _ => []) ++
      nestedViolations rest origin values

end

/-- The violations of a configuration; anything but a map is an empty one. -/
def Block.validate (b : Block) (config : Value) : List Diagnostic := b.violations [] config.root

/-- A configuration with its defaults, and all its violations. -/
def Schema.prepare (schema : Schema) (config : Value) : Value × List Diagnostic :=
  let prepared := match config with
    | .map entries => .map (schema.block.applyDefaults entries)
    | v => v
  (prepared, schema.block.validate prepared)

end TrafficConfig
