import MvsGateway.Config
import MvsGateway.Http.Route
import MvsGateway.Http.Uri
import MvsGateway.Pipeline

/-!
# The service

One HTTP request in, one response out, on a host of any kind. The path is
decoded first, then the query, then the body is taken, and only then is the
request looked at.
-/

namespace MvsGateway.Http

open Host (Backend)

/-- The time that a request is answered at: seconds of Unix time, and the same
as text. -/
structure Instant where
  second : Int
  text : String
  deriving DecidableEq, Repr

structure Message where
  method : String
  uri : String
  body : Body
  deriving DecidableEq, Repr

/-- A status and a JSON body, or none. -/
structure Response where
  status : Nat
  body : Option Json

namespace Response

def ofReply (r : Reply) : Response := ⟨r.status, some (.object r.body)⟩

def ofErrorReply (e : ErrorReply) : Response := ⟨e.status, some e.body⟩

def ofResult : Except RequestError Reply → Response
  | .ok reply => ofReply reply
  | .error e => ofErrorReply (.ofError e)

end Response

/-! ## The service about itself -/

def infoBody (info : ServiceInfo) (now : Instant) : Json :=
  .object [("build", .object <| Json.Fields.ofList [
    ("name", .string info.name), ("operatingSystem", .string "z/OS"), ("time", .string now.text),
    ("machine", .string info.machine), ("number", .string "n/a"),
    ("version", .string info.version)])]

def healthBody : Json := .object [("status", .string "UP")]

/-! ## Requests for the host -/

/-- The decoded text behind a route's own path, empty on a route without. -/
def captured (route : Route) : Except ErrorReply String :=
  match route.capture? with
  | none => .ok ""
  | some (name, tail) =>
    match Uri.decodePath? tail with
    | some text => .ok text
    | none => .error (.rejection 400 ("Invalid URL: Invalid UTF-8 in `" ++ name ++ "`"))

/-- The body for an endpoint that reads it, up to the limit. -/
def takeBody (limits : LimitsConfig) (e : Endpoint) (body : Body) : Except ErrorReply Body :=
  if !readsBody e then .ok []
  else if body.length > limits.maxBodyBytes then
    .error (.rejection 413 "Failed to buffer the request body: length limit exceeded")
  else .ok body

/-- The ending of a data set path that asks for the members. -/
def membersEnding : String := "/member"

/-- What an endpoint makes of a request. A data set path with the members'
ending asks for its members, and on the route without paths the query names
the file. -/
def accepted (route : Route) (e : Endpoint) (raw : String) (q : Query) (body : Body) :
    Except RequestError Request :=
  match route, e with
  | .dataSet _, .readDataSet =>
    match Text.before? membersEnding raw with
    | some name => Endpoint.listMembers.accept name q body
    | none => e.accept raw q body
  | .files, .listFiles => e.accept raw q body
  | .files, _ => do e.accept (← q.path) q body
  | _, _ => e.accept raw q body

variable {σ : Type}

/-- The response of an endpoint. -/
def serve (config : Config) (b : Backend σ) (now : Instant) (route : Route) (e : Endpoint)
    (query : String) (body : Body) (s : σ) : Response × σ :=
  let taken : Except ErrorReply (String × Body) := do
    let raw ← captured route
    let body ← takeBody config.limits e body
    return (raw, body)
  match taken with
  | .error reply => (.ofErrorReply reply, s)
  | .ok (raw, body) =>
    let (result, s) := run b now.second (accepted route e raw (Uri.decodeQuery query) body) s
    (.ofResult result, s)

/-- The response to a request, and the host's state after it. -/
def respond (config : Config) (b : Backend σ) (now : Instant) (m : Message) (s : σ) :
    Response × σ :=
  let uri := Uri.ofText m.uri
  let method := Method.ofText m.method
  let (response, s) : Response × σ :=
    match Route.ofPath? uri.path with
    | none => (.ofErrorReply (.ofError (.notFound ("no route for " ++ uri.path))), s)
    | some route =>
      match route.handler? method with
      | none => (⟨405, none⟩, s)
      | some .info => (⟨200, some (infoBody config.serviceInfo now)⟩, s)
      | some .health => (⟨200, some healthBody⟩, s)
      | some (.endpoint e) => serve config b now route e uri.query m.body s
  if method == .head then (⟨response.status, none⟩, s) else (response, s)

end MvsGateway.Http
