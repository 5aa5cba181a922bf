import TrafficConfig.Value
import TrafficConfig.Error
import TrafficConfig.Number.Shortest

/-!
# Reading and storing along paths

* **`follow`** walks a path through maps and lists to the value it names;
* the typed getters refuse a value of another kind instead of converting it;
* **`store`** puts a value at a path. It makes the maps and lists that are missing on the way, and
  keeps them even when a later step fails, so it returns the value in both cases.
-/

namespace TrafficConfig

namespace Value

/-- Walk steps; the whole path is what an error names. -/
def followFrom (whole : Path) : Value → List Step → Except ConfigError Value
  | v, [] => .ok v
  | .map entries, .name n :: rest =>
    match Assoc.get? entries n with
    | some v => followFrom whole v rest
    | none => .error (.attributeNotFound n)
  | .map entries, .key n :: rest =>
    match Assoc.get? entries n with
    | some v => followFrom whole v rest
    | none => .error (.attributeNotFound n)
  | .list items, .index i :: rest =>
    match items[Step.slot i]? with
    | some v => followFrom whole v rest
    | none => .error (.indexOutOfBounds (Step.slot i))
  | v, _ :: _ => .error (.cannotFollow whole v.kindName)

/-- The value at a path. -/
def follow (v : Value) (path : Path) : Except ConfigError Value := followFrom path v path

/-- The value at a path, if there is one. -/
def get? (v : Value) (path : Path) : Option Value := (v.follow path).toOption

/-! ## Typed getters -/

/-- A value of the wanted kind, or an error that names both kinds. -/
def expect {α : Type} (expected : String) (pick : Value → Option α) (v : Value) :
    Except ConfigError α :=
  match pick v with
  | some x => .ok x
  | none => .error (.typeMismatch expected v.kindName)

def asNumber? : Value → Option Number
  | .number x => some x
  | _ => none

def asBool? : Value → Option Bool
  | .bool b => some b
  | _ => none

def asList? : Value → Option (List Value)
  | .list items => some items
  | _ => none

def asSet? : Value → Option (List Value)
  | .set items => some items
  | _ => none

def getString (v : Value) (path : Path) : Except ConfigError String :=
  v.follow path >>= expect "string" asString?

def getNumber (v : Value) (path : Path) : Except ConfigError Number :=
  v.follow path >>= expect "number" asNumber?

def getBool (v : Value) (path : Path) : Except ConfigError Bool :=
  v.follow path >>= expect "bool" asBool?

def getList (v : Value) (path : Path) : Except ConfigError (List Value) :=
  v.follow path >>= expect "list" asList?

def getSet (v : Value) (path : Path) : Except ConfigError (List Value) :=
  v.follow path >>= expect "set" asSet?

def getMap (v : Value) (path : Path) : Except ConfigError (Assoc Value) :=
  v.follow path >>= expect "map" asMap?

/-- An integer cut to 64 bits. -/
def clamp64 (z : Int) : Int := max (-Number.int64Bound) (min z (Number.int64Bound - 1))

/-- A whole number, cut to 64 bits. -/
def getInt (v : Value) (path : Path) : Except ConfigError Int := do
  let x ← v.getNumber path
  match x.toInt? with
  | some z => .ok (clamp64 z)
  | none => .error (.typeMismatch "whole number" x.display)

/-! ## Storing -/

/-- What is made where an entry is missing: a list before an index, else a map. -/
def blank : List Step → Value
  | .index _ :: _ => .list []
  | _ => .map []

/-- Store a value behind steps; the value as it is afterwards, and whether every step could be
taken. -/
def storeFrom (x : Value) : Value → List Step → Value × Except ConfigError Unit
  | _, [] => (x, .ok ())
  | .map entries, .name n :: rest =>
    let (child, outcome) := storeFrom x ((Assoc.get? entries n).getD (blank rest)) rest
    (.map (Assoc.insert entries n child), outcome)
  | .map entries, .key n :: rest =>
    let (child, outcome) := storeFrom x ((Assoc.get? entries n).getD (blank rest)) rest
    (.map (Assoc.insert entries n child), outcome)
  | .list items, .index i :: rest =>
    match items[Step.slot i]? with
    | some item =>
      let (child, outcome) := storeFrom x item rest
      (.list (items.set (Step.slot i) child), outcome)
    | none => (.list items, .error (.indexOutOfBounds (Step.slot i)))
  | v, _ :: _ => (v, .error .cannotStore)

/-- Store a value at a path. The empty path names the whole value; before any other path a root
that is no map becomes one. -/
def store (v : Value) (path : Path) (x : Value) : Value × Except ConfigError Unit :=
  match path with
  | [] => (x, .ok ())
  | steps =>
    match v with
    | .map entries => storeFrom x (.map entries) steps
    | _ => storeFrom x (.map []) steps

end Value

end TrafficConfig
