import MvsGateway.Request.Endpoint
import MvsGateway.Text

/-!
# Routes

Which paths the service knows, and which endpoint serves a method on them. A
path is compared as it stands; what follows a known path and a slash is taken
over undecoded, and must not be empty.
-/

namespace MvsGateway.Http

inductive Route
  | info
  | health
  | dataSets
  | dataSet (tail : String)
  | files
  | file (tail : String)
  | jobs
  | job (tail : String)
  deriving DecidableEq, Repr

namespace Route

def infoPath : String := "/zosservice/application/info"

def healthPath : String := "/zosservice/application/health"

def dataSetsPath : String := "/zosmf/restfiles/ds"

def filesPath : String := "/zosmf/restfiles/fs"

def jobsPath : String := "/zosmf/restjobs/jobs"

/-- What follows a known path and a slash, if there is something. -/
def tail? (base path : String) : Option String :=
  (Text.after? (base ++ "/") path).filter (· != "")

def ofPath? (path : String) : Option Route :=
  if path == infoPath then some .info
  else if path == healthPath then some .health
  else if path == dataSetsPath then some .dataSets
  else if path == filesPath then some .files
  else if path == jobsPath then some .jobs
  else match tail? dataSetsPath path, tail? filesPath path, tail? jobsPath path with
    | some tail, _, _ => some (.dataSet tail)
    | _, some tail, _ => some (.file tail)
    | _, _, some tail => some (.job tail)
    | _, _, _ => none

/-- What follows the known path, with the name that messages give it. -/
def capture? : Route → Option (String × String)
  | .dataSet tail => some ("dsn", tail)
  | .file tail => some ("path", tail)
  | .job tail => some ("path", tail)
  | _ => none

end Route

inductive Method
  | get
  | head
  | put
  | post
  | delete
  | other
  deriving DecidableEq, Repr

def Method.ofText : String → Method
  | "GET" => .get
  | "HEAD" => .head
  | "PUT" => .put
  | "POST" => .post
  | "DELETE" => .delete
  | _ => .other

/-- Who answers a request: the service itself, or an endpoint. -/
inductive Handler
  | info
  | health
  | endpoint (e : Endpoint)
  deriving DecidableEq, Repr

/-- Who answers a method on a route; HEAD is answered like GET. -/
def Route.handler? : Route → Method → Option Handler
  | .info, .get | .info, .head => some .info
  | .health, .get | .health, .head => some .health
  | .dataSets, .get | .dataSets, .head => some (.endpoint .listDataSets)
  | .dataSet _, .get | .dataSet _, .head => some (.endpoint .readDataSet)
  | .dataSet _, .put => some (.endpoint .writeDataSet)
  | .dataSet _, .post => some (.endpoint .createDataSet)
  | .dataSet _, .delete => some (.endpoint .deleteDataSet)
  | .files, .get | .files, .head => some (.endpoint .listFiles)
  | .file _, .get | .file _, .head => some (.endpoint .readUnixFile)
  | .files, .put | .file _, .put => some (.endpoint .putFile)
  | .files, .post | .file _, .post => some (.endpoint .createFile)
  | .files, .delete | .file _, .delete => some (.endpoint .deleteFile)
  | .jobs, .get | .jobs, .head => some (.endpoint .listJobs)
  | .jobs, .put => some (.endpoint .submitJob)
  | .job _, .get | .job _, .head => some (.endpoint .getJob)
  | .job _, .delete => some (.endpoint .deleteJob)
  | _, _ => none

/-- Whether an endpoint reads the body. -/
def readsBody : Endpoint → Bool
  | .writeDataSet | .putFile | .createFile | .submitJob => true
  | _ => false

end MvsGateway.Http
