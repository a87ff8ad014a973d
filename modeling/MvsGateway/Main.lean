import MvsGateway.Host.Machine
import MvsGateway.Http.Service
import MvsGateway.Json.Printer
import Std.Http
import Std.Time

/-!
# The program

Serves the gateway over HTTP for one machine in memory. The argument behind
`--config` names a TOML file, and the environment variable `RESTFILES_PORT`
overrides its port. A file that cannot be used is reported, and the defaults
hold.
-/

namespace MvsGateway.Program

open Std.Async (Async ContextAsync)
open Std.Http.Server (Handler)

/-! ## Settings -/

/-- The argument behind a flag. -/
def argument? (flag : String) : List String → Option String
  | [] => none
  | arg :: rest => if arg == flag then rest.head? else argument? flag rest

def readConfig (path : String) : IO Config := do
  try
    match Config.ofToml? (← IO.FS.readFile path) with
    | some config => return config
    | none => throw (IO.userError "not a configuration")
  catch e =>
    IO.eprintln ("Failed to load config, using defaults: " ++ path ++ ": " ++ toString e)
    return {}

def loadConfig (args : List String) : IO Config := do
  let config ← match argument? "--config" args with
    | some path => readConfig path
    | none => pure {}
  return config.overridePort (← IO.getEnv "RESTFILES_PORT")

/-! ## The clock -/

/-- Two digits. -/
def pair (n : Int) : String := Text.decimalPadded 2 n.toNat

/-- A time of day with full stops. -/
def timeOfDay (t : Std.Time.PlainTime) : String :=
  pair t.hour.val ++ "." ++ pair t.minute.val ++ "." ++ pair t.second.val

/-- A point of universal time as text. -/
def timeText (t : Std.Time.PlainDateTime) : String :=
  Text.decimalPadded 4 t.date.year.toInt.toNat ++ "-" ++ pair t.date.month.val ++ "-" ++
    pair t.date.day.val ++ "T" ++ pair t.time.hour.val ++ ":" ++ pair t.time.minute.val ++ ":" ++
    pair t.time.second.val ++ "." ++ Text.decimalPadded 9 t.time.nanosecond.val.toNat ++ "+00:00"

def instant : IO Http.Instant := do
  let now ← Std.Time.Timestamp.now
  let universal := Std.Time.DateTime.ofTimestampWithZone now .UTC
  return ⟨now.toSecondsSinceUnixEpoch.val, timeText universal.toPlainDateTime⟩

/-! ## The server -/

/-- A running service: its configuration and the machine behind it. -/
structure Server where
  config : Config
  machine : IO.Ref Host.Machine

def Server.answer (server : Server) (message : Http.Message) : IO Http.Response := do
  let now ← instant
  let time := timeOfDay (← Std.Time.PlainTime.now)
  server.machine.modifyGet (Http.respond server.config (Host.Machine.backend time) now message)

def encode (response : Http.Response) : Async (Std.Http.Response Std.Http.Body.Full) :=
  let status := (Std.Http.Status.ofCode none response.status.toUInt16).getD .internalServerError
  let builder := Std.Http.Response.withStatus status
  match response.body with
  | some body => builder.json body.render
  | none => builder.fromBytes .empty

instance : Handler Server where
  ResponseBody := Std.Http.Body.Full
  onRequest server request := do
    let body : ByteArray ← request.body.readAll
    let message := ⟨toString request.line.method, toString request.line.uri, body.toList⟩
    encode (← server.answer message)

/-- The address to listen at. -/
def listenAddress (config : ServerConfig) : IO Std.Net.SocketAddress :=
  let port := config.port.toUInt16
  match Std.Net.IPv4Addr.ofString config.host, Std.Net.IPv6Addr.ofString config.host with
  | some host, _ => return .v4 ⟨host, port⟩
  | none, some host => return .v6 ⟨host, port⟩
  | none, none => throw (IO.userError ("Failed to bind " ++ config.host))

/-- The server accepts the bodies that the gateway accepts, and larger ones up
to a fixed bound, which the gateway refuses itself. -/
def serverConfig (limits : LimitsConfig) : Std.Http.Config :=
  { maxBodySize := 2 * limits.maxBodyBytes + 64 * 1024 * 1024 }

/-- Serves until it is stopped. -/
def serve (config : Config) : IO Unit := do
  let machine ← IO.mkRef (Host.Machine.initial config.backend.user)
  let address ← listenAddress config.server
  IO.println ("REST files service starting at " ++ config.bindAddress)
  Async.block do
    let server ← Std.Http.Server.serve address (Server.mk config machine)
      (serverConfig config.limits)
    server.waitShutdown

end MvsGateway.Program

def main (args : List String) : IO Unit := do
  MvsGateway.Program.serve (← MvsGateway.Program.loadConfig args)
