import TrafficConfig.Schema

/-!
# Defaults

Attributes that are not set take their defaults, in the root and in every instance of every nested
block. An unknown value counts as set.
-/

namespace TrafficConfig

/-- The default of an attribute, where it is not set. -/
def Attribute.fill (a : Attribute) (values : Assoc Value) : Assoc Value :=
  match a.default with
  | none => values
  | some d =>
    if (Value.getOrNull values a.name).isNull then Assoc.insert values a.name d else values

/-- A function on instances, applied to the instances of one block. -/
def Value.mapInstances (f : Assoc Value → Assoc Value) : Value → Value
  | .list items => .list (items.map fun
    | .map entries => .map (f entries)
    | v => v)
  | .set items => .set (items.map fun
    | .map entries => .map (f entries)
    | v => v)
  | .map entries => .map (f entries)
  | v => v

mutual

/-- The values with the defaults of a block. -/
def Block.applyDefaults : Block → Assoc Value → Assoc Value
  | .mk _ _ attributes blocks, values =>
    applyNestedDefaults blocks (attributes.foldl (fun acc a => a.fill acc) values)

/-- The values with the defaults of nested blocks inside their instances. -/
def Block.applyNestedDefaults : List NestedBlock → Assoc Value → Assoc Value
  | [], values => values
  | .mk name _ _ _ block :: rest, values =>
    applyNestedDefaults rest
      (match Assoc.get? values name with
        | some v => Assoc.insert values name (v.mapInstances (applyDefaults block))
        | none => values)

end

end TrafficConfig
