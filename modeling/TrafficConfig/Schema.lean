import TrafficConfig.ChangeSet
import TrafficConfig.Validator
import TrafficConfig.Text.Lowercase

/-!
# Schemas

What a resource or the provider may be configured with:

* **`AttributeType`** is the shape of an attribute; `accepts` says which known values have it;
* **`Block`** declares attributes and nested blocks. `Schema.Defaults` fills in its defaults,
  `Schema.Validation` collects the violations of a configuration;
* **`Attribute`** has one function for each flag, so that a declaration reads from left to right.
-/

namespace TrafficConfig

/-- The shape of an attribute's value. -/
inductive AttributeType where
  | string
  | number
  | bool
  | list (element : AttributeType)
  | set (element : AttributeType)
  | map (element : AttributeType)
  /-- A fixed set of attributes. -/
  | object (fields : List (String × AttributeType))

namespace AttributeType

/-- Lists and sets of strings. -/
def strings : AttributeType := .list .string

def stringSet : AttributeType := .set .string

mutual

/-- Whether a value has the shape. A set may be given as a list; nothing speaks against an absent
value. -/
def accepts : AttributeType → Value → Bool
  | _, .null => true
  | _, .unknown => true
  | .string, .string _ => true
  | .number, .number _ => true
  | .bool, .bool _ => true
  | .list element, .list items => items.all (accepts element)
  | .set element, .set items => items.all (accepts element)
  | .set element, .list items => items.all (accepts element)
  | .map element, .map entries => entries.all fun e => accepts element e.2
  | .object fields, .map entries => entries.all fun e => acceptsField fields e.1 e.2
  | _, _ => false

/-- Whether a field is declared and its value has the declared shape. -/
def acceptsField : List (String × AttributeType) → String → Value → Bool
  | [], _, _ => false
  | (name, t) :: rest, q, v => if name = q then accepts t v else acceptsField rest q v

end

mutual

/-- The shape as messages show it, before it is put into lower case. -/
def spell : AttributeType → String
  | .string => "String"
  | .number => "Number"
  | .bool => "Bool"
  | .list element => "List(" ++ spell element ++ ")"
  | .set element => "Set(" ++ spell element ++ ")"
  | .map element => "Map(" ++ spell element ++ ")"
  | .object fields => "Object(\x7b" ++ String.intercalate ", " (spellFields fields) ++ "\x7d)"

def spellFields : List (String × AttributeType) → List String
  | [] => []
  | (name, t) :: rest => (Text.quote name ++ ": " ++ spell t) :: spellFields rest

end

/-- The shape as messages show it. -/
def display (t : AttributeType) : String := Text.lowercase (spell t)

end AttributeType

/-- An attribute of a block. -/
structure Attribute where
  name : String
  type : AttributeType
  description : String
  required : Bool
  optional : Bool
  /-- Set by the provider. -/
  computed : Bool
  /-- Not to be shown. -/
  sensitive : Bool
  /-- A change can only be applied by making the object anew. -/
  requiresReplace : Bool
  validators : List Validator
  default : Option Value

namespace Attribute

/-- An attribute without any flag. -/
def of (name : String) (type : AttributeType) : Attribute :=
  { name, type, description := "", required := false, optional := false, computed := false,
    sensitive := false, requiresReplace := false, validators := [], default := none }

def describe (a : Attribute) (text : String) : Attribute := { a with description := text }

/-- Required, and so no longer optional. -/
def require (a : Attribute) : Attribute := { a with required := true, optional := false }

/-- Optional, and so no longer required. -/
def allow (a : Attribute) : Attribute := { a with optional := true, required := false }

def compute (a : Attribute) : Attribute := { a with computed := true }

def hide (a : Attribute) : Attribute := { a with sensitive := true }

def replaceOnChange (a : Attribute) : Attribute := { a with requiresReplace := true }

/-- One validator more, behind the others. -/
def check (a : Attribute) (v : Validator) : Attribute :=
  { a with validators := a.validators ++ [v] }

def orElse (a : Attribute) (value : Value) : Attribute := { a with default := some value }

end Attribute

/-- How the instances of a nested block are kept together. -/
inductive Nesting where
  | invalid
  | single
  | list
  | set
  | map
  | group
  deriving DecidableEq

mutual

/-- The attributes and nested blocks of a resource, of the provider, or of a nested block. -/
inductive Block where
  | mk (description : String) (deprecated : Bool) (attributes : List Attribute)
      (blocks : List NestedBlock)

/-- A block inside another one: its name, how many instances it may have (no upper bound when
`maxItems` is 0), and what an instance may hold. -/
inductive NestedBlock where
  | mk (name : String) (nesting : Nesting) (minItems maxItems : Int) (block : Block)

end

namespace Block

def description : Block → String
  | .mk description _ _ _ => description

def deprecated : Block → Bool
  | .mk _ deprecated _ _ => deprecated

def attributes : Block → List Attribute
  | .mk _ _ attributes _ => attributes

def blocks : Block → List NestedBlock
  | .mk _ _ _ blocks => blocks

/-- A block without a deprecation. -/
def of (description : String) (attributes : List Attribute) (blocks : List NestedBlock) : Block :=
  .mk description false attributes blocks

/-- The attribute with a name. -/
def attribute? (b : Block) (name : String) : Option Attribute := b.attributes.find? (·.name = name)

end Block

namespace NestedBlock

def name : NestedBlock → String
  | .mk name _ _ _ _ => name

def nesting : NestedBlock → Nesting
  | .mk _ nesting _ _ _ => nesting

def minItems : NestedBlock → Int
  | .mk _ _ minItems _ _ => minItems

def maxItems : NestedBlock → Int
  | .mk _ _ _ maxItems _ => maxItems

def block : NestedBlock → Block
  | .mk _ _ _ _ block => block

/-- A list block with at most one instance. -/
def single (name description : String) (attributes : List Attribute) (blocks : List NestedBlock) :
    NestedBlock :=
  .mk name .list 0 1 (.of description attributes blocks)

/-- A block with any number of instances. -/
def many (name : String) (nesting : Nesting) (description : String) (attributes : List Attribute)
    (blocks : List NestedBlock) : NestedBlock :=
  .mk name nesting 0 0 (.of description attributes blocks)

end NestedBlock

namespace Block

/-- The nested block with a name. -/
def nested? (b : Block) (name : String) : Option NestedBlock := b.blocks.find? (·.name = name)

/-- The nested block at a path of names. -/
def nestedAt? (b : Block) : List String → Option NestedBlock
  | [] => none
  | [name] => b.nested? name
  | name :: rest => (b.nested? name).bind fun n => n.block.nestedAt? rest

/-- The changed attributes that only a new object can take over. -/
def replacedBy (b : Block) (changes : ChangeSet) : List Path :=
  (b.attributes.filter fun a => a.requiresReplace && changes.hasChange a.name).map fun a =>
    Path.ofName a.name

end Block

/-- The schema of a resource or the provider; the version grows when the layout of states
changes. -/
structure Schema where
  version : Int
  block : Block

end TrafficConfig
