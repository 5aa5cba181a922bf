import TrafficConfig.Schema

/-!
# Attributes of the catalog

The attributes that resource types are declared with, each with its description. An attribute is
optional unless it says otherwise.
-/

namespace TrafficConfig

namespace Attribute

def orText (a : Attribute) (s : String) : Attribute := a.orElse (.string s)

def orWhole (a : Attribute) (z : Int) : Attribute := a.orElse (.number (Number.ofInt z))

end Attribute

namespace Catalog

/-- The name of an object. It can only be changed by making the object anew. -/
def identity (description : String) : Attribute :=
  ((Attribute.of "name" .string).describe description).require.replaceOnChange

def text (name description : String) : Attribute :=
  ((Attribute.of name .string).describe description).allow

def whole (name description : String) : Attribute :=
  ((Attribute.of name .number).describe description).allow

def flag (name description : String) : Attribute :=
  ((Attribute.of name .bool).describe description).allow

/-- A flag with a default. -/
def switch (name description : String) (default : Bool) : Attribute :=
  (flag name description).orElse (.bool default)

def texts (name description : String) : Attribute :=
  ((Attribute.of name .strings).describe description).allow

def textSet (name description : String) : Attribute :=
  ((Attribute.of name .stringSet).describe description).allow

/-- An attribute that is only read. -/
def computed (name : String) (type : AttributeType) (description : String) : Attribute :=
  ((Attribute.of name type).describe description).compute

/-- A whole number of 32 bits without a sign. -/
def natural (name : String) : Validator :=
  .wholeWithin 0 4294967295 (some s!"{name} must be a positive integer")

def portNumber (name : String) : Validator :=
  .wholeWithin 1 65535 (some s!"{name} must be a valid port number within 1-65535")

/-- The first version of a schema. -/
def firstSchema (description : String) (attributes : List Attribute) (blocks : List NestedBlock) :
    Schema :=
  { version := 0, block := .of description attributes blocks }

end Catalog

end TrafficConfig
