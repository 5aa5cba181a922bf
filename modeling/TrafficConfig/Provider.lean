import TrafficConfig.Client
import TrafficConfig.Schema
import TrafficConfig.Value.Access

/-!
# The provider

The connection to the API is configured by attributes, and where those are not set by environment
variables:

* **`Provider.schema`** declares the attributes, all optional;
* **`Provider.configure`** makes a client, or reports what is missing.
-/

namespace TrafficConfig

namespace Provider

def typeName : String := "vtm"

def schema : Schema where
  version := 0
  block := .of "Configuration of the vTM REST API connection" [
    ((Attribute.of "server" .string).describe
      "Base URL of the REST API, e.g. https://vtm:9070").allow,
    ((Attribute.of "username" .string).describe "REST API user").allow,
    ((Attribute.of "password" .string).describe "REST API password").allow.hide,
    ((Attribute.of "api_version" .string).describe "REST API version").allow,
    ((Attribute.of "insecure" .bool).describe "Accept invalid TLS certificates").allow,
    ((Attribute.of "timeout" .number).describe "Per-request timeout in seconds").allow] []

/-- Environment variables by name. -/
abbrev Environment := Assoc String

/-- The variable that stands in for an attribute. -/
def variableOf (name : String) : String := "VTM_" ++ name.toUpper

/-- A text that is not empty. An empty one in the configuration hides the variable. -/
def text? (config : Value) (env : Environment) (name : String) : Option String :=
  (((config.get? (Path.ofName name)).bind Value.asString?).or
    (Assoc.get? env (variableOf name))).filter (!·.isEmpty)

/-- A boolean, or a variable that spells one. -/
def flag? (config : Value) (env : Environment) (name : String) : Option Bool :=
  match config.get? (Path.ofName name) with
  | some (.bool b) => some b
  | _ =>
    match Assoc.get? env (variableOf name) with
    | some "true" => some true
    | some "false" => some false
    | _ => none

/-- The largest number of seconds: 2⁶⁴ - 1. -/
def mostSeconds : Nat := 18446744073709551615

/-- A number that a variable spells in decimal digits, perhaps with a plus sign. -/
def natural? (text : String) : Option Nat :=
  let digits := if text.toList.head? = some '+' then text.toList.drop 1 else text.toList
  if digits.isEmpty then none else Text.number? 10 digits

/-- The seconds of a number that is at least one, without its fraction. -/
def wholeSeconds? : Number → Option Nat
  | .infinite false => some mostSeconds
  | x =>
    match x.units? with
    | some u =>
      if (Number.unitsPerOne : Int) ≤ u then some (min mostSeconds (u.toNat / Number.unitsPerOne))
      else none
    | none => none

/-- Seconds, at least one, or else a variable that spells them. -/
def seconds? (config : Value) (env : Environment) (name : String) : Option Nat :=
  let configured :=
    match config.get? (Path.ofName name) with
    | some (.number x) => wholeSeconds? x
    | _ => none
  configured.or (((Assoc.get? env (variableOf name)).bind natural?).filter fun n =>
    0 < n && n ≤ mostSeconds)

/-- The report of an attribute that is set nowhere. -/
def required (name : String) : Diagnostic :=
  (Diagnostic.error
    (name ++ " is required (set in provider config or " ++ variableOf name ++ " env var)")
    "").atPath
    (Path.ofName name)

def defaultVersion : String := "3.8"

def defaultRetries : Nat := 3

def defaultTimeout : Nat := 30

/-- What the connection is made of. -/
structure Settings where
  server : Option String
  username : Option String
  password : Option String
  version : String
  /-- Whether invalid certificates are accepted. -/
  insecure : Bool
  timeout : Nat

/-- The settings of a configuration and an environment. -/
def settings (config : Value) (env : Environment) : Settings where
  server := text? config env "server"
  username := text? config env "username"
  password := text? config env "password"
  version := (text? config env "api_version").getD defaultVersion
  insecure := (flag? config env "insecure").getD false
  timeout := (seconds? config env "timeout").getD defaultTimeout

/-- A client, or reports of everything that is missing, or of an address that cannot be used. -/
def configure (config : Value) (env : Environment) : Except (List Diagnostic) Client :=
  let s := settings config env
  match s.server, s.username, s.password with
  | some server, some username, some password =>
    match Client.of server username password s.version defaultRetries s.timeout with
    | .ok client => .ok client
    | .error reason => .error [.error "Failed to create API client" reason.message]
  | server, username, password =>
    .error ((if server.isNone then [required "server"] else []) ++
      (if username.isNone then [required "username"] else []) ++
      (if password.isNone then [required "password"] else []))

end Provider

end TrafficConfig
