import TrafficConfig.Section
import TrafficConfig.Schema

/-!
# Declarations from tables of fields

The attributes and nested blocks that a table of fields stands for. A read-only field becomes a
computed attribute, a table a nested block in which the key is required. What a table does not
say, descriptions, validators and defaults, is added by a function that is told the dotted path of
every attribute.
-/

namespace TrafficConfig

/-- Additions to an attribute at a dotted path. -/
abbrev Customize := String → Attribute → Attribute

/-- The attribute type of a field; a table has none. -/
def FieldKind.attributeType? : FieldKind → Option AttributeType
  | .string => some .string
  | .bool => some .bool
  | .int => some .number
  | .list => some .strings
  | .set => some .stringSet
  | .table _ => none

/-- A name below a dotted path. -/
def dotted (origin : Option String) (name : String) : String :=
  match origin with
  | some path => path ++ "." ++ name
  | none => name

/-- The attribute of a field; a table has none. -/
def Field.attribute? (f : Field) (origin key : Option String) (customize : Customize) :
    Option Attribute :=
  f.kind.attributeType?.map fun type =>
    let a := Attribute.of f.name type
    customize (dotted origin f.name)
      (if key = some f.name then a.require else if f.readOnly then a.compute else a.allow)

/-- The attributes of a table's fields. -/
def declaredAttributes (fields : List Field) (origin key : Option String) (customize : Customize) :
    List Attribute :=
  fields.filterMap fun f => f.attribute? origin key customize

mutual

/-- The nested block of a table field. -/
def FieldKind.nestedBlock? (name : String) (path : String) (customize : Customize) :
    FieldKind → Option NestedBlock
  | .table ⟨fields, key, ordered⟩ =>
    some (.many name (if ordered then .list else .set) ""
      (declaredAttributes fields (some path) key customize)
      (declaredBlocks (some path) customize fields))
  | _ => none

/-- The nested blocks of a table's fields. -/
def declaredBlocks (origin : Option String) (customize : Customize) : List Field → List NestedBlock
  | [] => []
  | ⟨name, _, kind, _, _⟩ :: rest =>
    (kind.nestedBlock? name (dotted origin name) customize).toList ++
      declaredBlocks origin customize rest

end

/-- The block that declares a section's fields, when they are not top-level attributes. -/
def Section.nestedBlock? (s : Section) (customize : Customize) : Option NestedBlock :=
  s.block.map fun block =>
    .single block "" (declaredAttributes s.fields (some block) none customize)
      (declaredBlocks (some block) customize s.fields)

end TrafficConfig
