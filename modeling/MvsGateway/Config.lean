import MvsGateway.Toml.Reader

/-!
# Configuration

Where the service listens, how large a body may be, for whom the host acts,
and what the service says about itself. A TOML document may set any of it;
what it leaves out keeps its default.
-/

namespace MvsGateway

structure ServerConfig where
  host : String := "0.0.0.0"
  port : Nat := 10018
  deriving DecidableEq, Repr

structure LimitsConfig where
  /-- The largest body, in bytes. -/
  maxBodyBytes : Nat := 10 * 1024 * 1024
  deriving DecidableEq, Repr

structure BackendConfig where
  /-- The user for whom the host acts. -/
  user : String := "IBMUSER"
  deriving DecidableEq, Repr

structure ServiceInfo where
  name : String := "zos-restfiles-service"
  version : String := "0.1.0"
  machine : String := "mainframe-system"
  deriving DecidableEq, Repr

structure Config where
  server : ServerConfig := {}
  limits : LimitsConfig := {}
  backend : BackendConfig := {}
  serviceInfo : ServiceInfo := {}
  deriving DecidableEq, Repr

namespace Config

/-! ## Reading -/

/-- How the settings of a section are found, by name and by place: nothing for
a section of the wrong kind. A date sets nothing. -/
def settings? : Toml.Item → Option (String → Nat → Option Toml.Item)
  | .table _ _ fields => some fun name _ => Table.find name fields
  | .inlineTable fields => some fun name _ => Table.find name fields
  | .array items => some fun _ place => items[place]?
  | .tables elements => some fun _ place => elements[place]?
  | .datetime => some fun _ _ => none
  | _ => none

def text? : Toml.Item → Option String
  | .string s => some s
  | _ => none

/-- A whole number below a bound. -/
def number? (bound : Nat) : Toml.Item → Option Nat
  | .integer (.ofNat n) => if n < bound then some n else none
  | _ => none

/-- A setting, or its default where it is absent. -/
def orDefault {α : Type} (read : Toml.Item → Option α) (default : α) :
    Option Toml.Item → Option α
  | some item => read item
  | none => some default

def serverOf? (item : Toml.Item) : Option ServerConfig := do
  let setting ← settings? item
  let host ← orDefault text? ({} : ServerConfig).host (setting "host" 0)
  let port ← orDefault (number? UInt16.size) ({} : ServerConfig).port (setting "port" 1)
  return { host, port }

def limitsOf? (item : Toml.Item) : Option LimitsConfig := do
  let setting ← settings? item
  let maxBodyBytes ← orDefault (number? UInt64.size) ({} : LimitsConfig).maxBodyBytes
    (setting "max_body_bytes" 0)
  return { maxBodyBytes }

def backendOf? (item : Toml.Item) : Option BackendConfig := do
  let setting ← settings? item
  let user ← orDefault text? ({} : BackendConfig).user (setting "user" 0)
  return { user }

def serviceInfoOf? (item : Toml.Item) : Option ServiceInfo := do
  let setting ← settings? item
  let name ← orDefault text? ({} : ServiceInfo).name (setting "name" 0)
  let version ← orDefault text? ({} : ServiceInfo).version (setting "version" 1)
  let machine ← orDefault text? ({} : ServiceInfo).machine (setting "machine" 2)
  return { name, version, machine }

/-- The configuration that a TOML document describes. -/
def ofToml? (text : String) : Option Config := do
  let root ← Toml.read? text
  let server ← orDefault serverOf? {} (root.field? "server")
  let limits ← orDefault limitsOf? {} (root.field? "limits")
  let backend ← orDefault backendOf? {} (root.field? "backend")
  let serviceInfo ← orDefault serviceInfoOf? {} (root.field? "service_info")
  return { server, limits, backend, serviceInfo }

/-! ## Overrides -/

/-- A port number, with or without a plus sign. -/
def port? (raw : String) : Option Nat :=
  let digits := match raw.toList with
    | '+' :: r => r
    | s => s
  match Chars.decimal? digits with
  | some n => if n < UInt16.size then some n else none
  | none => none

/-- The configuration with another port, if the override is a port number. -/
def overridePort (c : Config) (raw : Option String) : Config :=
  match raw.bind port? with
  | some port => { c with server := { c.server with port } }
  | none => c

/-- Where the service listens. -/
def bindAddress (c : Config) : String := c.server.host ++ ":" ++ Text.decimal c.server.port

end Config

end MvsGateway
