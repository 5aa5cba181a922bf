import TrafficConfig.Value
import TrafficConfig.Error
import TrafficConfig.Json

/-!
# Sections

A remote document consists of sections, and a section of fields. A table of fields says once, for
every section, which declared attribute feeds which remote field and in what shape; everything
else about the mapping is derived from it:

* **`Field`**, **`FieldKind`**, **`Table`**: one attribute, its shape, and the rows of a nested
  table;
* **`Section`**: the fields of a remote section, and the block that they are declared in, if any;
* **`Section.instance?`** finds the one instance of that block.
-/

namespace TrafficConfig

mutual

/-- The shape of a field on both sides. -/
inductive FieldKind where
  | string
  | bool
  | int
  /-- Strings whose order matters. -/
  | list
  /-- Strings whose order does not matter. -/
  | set
  /-- Records. -/
  | table (rows : Table)

/-- The records of a table field. -/
structure Table where
  fields : List Field
  /-- The field that identifies a row. -/
  key : Option String
  /-- Rows are a list when their order matters, else a set. -/
  ordered : Bool

/-- One attribute and its remote field. -/
structure Field where
  name : String
  remote : String
  kind : FieldKind
  /-- Set by the remote side; read, but never sent. -/
  readOnly : Bool
  /-- Sent with every update, changed or not. -/
  alwaysSent : Bool

end

namespace Field

/-- A field with one name on both sides. -/
def of (kind : FieldKind) (name : String) : Field :=
  { name, remote := name, kind, readOnly := false, alwaysSent := false }

def string : String → Field := of .string

def bool : String → Field := of .bool

def int : String → Field := of .int

def list : String → Field := of .list

def set : String → Field := of .set

def table (name : String) (rows : Table) : Field := of (.table rows) name

/-- Another name on the remote side. -/
def named (f : Field) (remote : String) : Field := { f with remote }

def fetched (f : Field) : Field := { f with readOnly := true }

def always (f : Field) : Field := { f with alwaysSent := true }

end Field

namespace Table

/-- Rows in order, identified by a key. -/
def orderedBy (key : String) (fields : List Field) : Table :=
  { fields, key := some key, ordered := true }

/-- Rows without order, identified by a key. -/
def unorderedBy (key : String) (fields : List Field) : Table :=
  { fields, key := some key, ordered := false }

end Table

/-- How the remote side takes a partial update of a section. -/
inductive Granularity where
  /-- Fields that are left out keep their values. -/
  | field
  /-- The section is replaced as a whole. -/
  | section
  deriving DecidableEq

/-- A section of a remote document. -/
structure Section where
  /-- The single-instance block that declares the fields; without one they are top-level
  attributes. -/
  block : Option String
  remote : String
  fields : List Field
  granularity : Granularity

namespace Section

/-- A section of top-level attributes, of which any part may be sent. -/
def topLevel (remote : String) (fields : List Field) : Section :=
  { block := none, remote, fields, granularity := .field }

/-- A section with a block of its own, sent as a whole. -/
def inBlock (block remote : String) (fields : List Field) : Section :=
  { block := some block, remote, fields, granularity := .section }

end Section

/-- What a field is sent as when its value was removed. -/
def FieldKind.cleared : FieldKind → Json
  | .string => .string ""
  | .bool => .bool false
  | .int => .int 0
  | .list => .array []
  | .set => .array []
  | .table _ => .array []

/-- Whether a document is what a removed value is sent as. -/
def FieldKind.isCleared : FieldKind → Json → Bool
  | .string, .string s => s == ""
  | .bool, .bool b => !b
  | .int, .int z => z == 0
  | .list, .array items => items.isEmpty
  | .set, .array items => items.isEmpty
  | .table _, .array items => items.isEmpty
  | _, _ => false

/-- Only the cleared value of a field is cleared. -/
theorem FieldKind.isCleared_iff (kind : FieldKind) (j : Json) :
    kind.isCleared j = true ↔ j = kind.cleared := by
  cases kind <;> cases j <;> simp [FieldKind.isCleared, FieldKind.cleared]

namespace Section

/-- The field with a declared name. -/
def field? (s : Section) (name : String) : Option Field := s.fields.find? (·.name = name)

/-- The field with a remote name. -/
def remoteField? (s : Section) (remote : String) : Option Field :=
  s.fields.find? (·.remote = remote)

/-- The change-set path of a field of the section. -/
def pathOf (s : Section) (f : Field) : String :=
  match s.block with
  | some block => block ++ "." ++ f.name
  | none => f.name

/-- The instance of a single-instance block, if one is configured: a map, or the only element of a
list or a set. -/
def instance? (root : Assoc Value) (block : String) : Except ConfigError (Option (Assoc Value)) :=
  let several (items : List Value) : Except ConfigError (Option (Assoc Value)) :=
    match items with
    | [] => .ok none
    | [.map entries] => .ok (some entries)
    | [other] => .error (.typeMismatch s!"{block} block" other.kindName)
    | _ => .error (.typeMismatch s!"a single {block} block" s!"{items.length} blocks")
  match Assoc.get? root block with
  | none => .ok none
  | some .null => .ok none
  | some .unknown => .ok none
  | some (.map entries) => .ok (some entries)
  | some (.list items) => several items
  | some (.set items) => several items
  | some other => .error (.typeMismatch s!"{block} block" other.kindName)

end Section

end TrafficConfig
