import MvsGateway.Host.Call
import MvsGateway.Host.Jcl

/-!
# The job queue

Jobs in the order of submission. A job runs as soon as it is submitted and
leaves three spool files. Its number is never given again.
-/

namespace MvsGateway.Host

structure SpoolFile where
  key : Nat
  ddname : String
  stepname : String
  records : String
  deriving DecidableEq, Repr

structure Job where
  jobid : String
  jobname : String
  owner : String
  correlator : String
  jcl : String
  retcode : String
  spool : List SpoolFile
  deriving DecidableEq, Repr

structure JobQueue where
  jobs : List Job
  lastNumber : Nat
  deriving DecidableEq, Repr

namespace Job

def systemName : String := "ZOS1"

def idOf (number : Nat) : String := "JOB" ++ Text.decimalPadded 5 number

def correlatorOf (number : Nat) (jobname : String) : String :=
  "J" ++ Text.decimalPadded 7 number ++ systemName ++ "." ++
    String.ofList (Chars.padRight '.' 8 jobname.toList)

/-- A job is found by its identifier in any letter case, or by its correlator. -/
def answersTo (id : String) (job : Job) : Bool :=
  Text.sameLetters job.jobid id || job.correlator == id

/-- All jobs stand on the output queue. -/
def status : String := "OUTPUT"

def entry (job : Job) : JobEntry :=
  { jobname := some job.jobname, jobid := some job.jobid, owner := some job.owner,
    status := some status, fullStatus := some status, retcode := some job.retcode,
    correlator := some job.correlator }

/-! ## Spool files -/

/-- The messages of start and end, each behind the time of day. -/
def messages (time jobid jobname : String) (jobClass : Char) : String :=
  time ++ " " ++ jobid ++ "  $HASP373 " ++ jobname ++ " STARTED - INIT 1 - CLASS " ++
    String.singleton jobClass ++ " - SYS " ++ systemName ++ "\n" ++
  time ++ " " ++ jobid ++ "  $HASP395 " ++ jobname ++ " ENDED - RC=0000\n"

/-- The submitted lines, each behind its number. -/
def listing (jcl : String) : String :=
  String.join <| (Text.lines jcl).mapIdx fun i line =>
    String.ofList (Chars.padLeft ' ' 10 (Chars.decimal (i + 1))) ++ " " ++ line ++ "\n"

/-- A message for each step; a step without a name is known by its place. -/
def stepMessages (jobname jcl : String) : String :=
  String.join <| (Jcl.steps jcl).mapIdx fun i step =>
    let name := if step == "" then "STEP" ++ Text.decimal (i + 1) else step
    "IEF142I " ++ jobname ++ " " ++ name ++ " - STEP WAS EXECUTED - COND CODE 0000\n"

/-- The step that writes the spool files. -/
def spoolStep : String := "JES2"

def spoolEntry (job : Job) (file : SpoolFile) : SpoolFileEntry :=
  { jobid := some job.jobid, ddname := some file.ddname,
    dsname := some (job.owner ++ "." ++ job.jobname ++ "." ++ job.jobid ++ ".D" ++
      Text.decimalPadded 7 file.key ++ "." ++ file.ddname),
    stepname := some file.stepname, procstep := none, key := some file.key }

/-- The job with a number that the text describes. -/
def ofText (time : String) (number : Nat) (jobname jcl owner : String) : Job :=
  let jobid := idOf number
  { jobid, jobname, owner := Text.upper owner, correlator := correlatorOf number jobname, jcl,
    retcode := "CC 0000"
    spool := [
      ⟨2, "JESMSGLG", spoolStep, messages time jobid jobname (Jcl.jobClass jcl)⟩,
      ⟨3, "JESJCL", spoolStep, listing jcl⟩,
      ⟨4, "JESYSMSG", spoolStep, stepMessages jobname jcl⟩] }

end Job

namespace JobQueue

def empty : JobQueue := ⟨[], 0⟩

def find (q : JobQueue) (id : String) : Except Error Job :=
  let id := Text.trim id
  match q.jobs.find? (·.answersTo id) with
  | some job => .ok job
  | none => .error (.notFound .job id)

/-! ## Queries -/

def status (q : JobQueue) (id : String) : Except Error JobEntry := return (← q.find id).entry

/-- Whether an owner matches a filter, in which a last asterisk stands for any
ending. -/
def ownedBy (filter : String) (job : Job) : Bool :=
  match Text.before? "*" filter with
  | some lead => Text.startsWith lead job.owner
  | none => job.owner == filter

def listByOwner (q : JobQueue) (owner : String) : List JobEntry :=
  (q.jobs.filter (ownedBy (Text.upper (Text.trim owner)))).map Job.entry

def spoolFiles (q : JobQueue) (id : String) : Except Error (List SpoolFileEntry) := do
  let job ← q.find id
  .ok (job.spool.map job.spoolEntry)

def readSpool (q : JobQueue) (id : String) (key : Nat) : Except Error String := do
  let job ← q.find id
  match job.spool.find? (·.key == key) with
  | some file => .ok file.records
  | none => .error (.notFound .spoolFile (job.jobid ++ ":" ++ Text.decimal key))

def jcl (q : JobQueue) (id : String) : Except Error String := return (← q.find id).jcl

/-! ## Changes -/

/-- Runs a job at a time of day and returns its identifier. -/
def submit (q : JobQueue) (time jcl owner : String) : Except Error String × JobQueue :=
  match Jcl.jobName? jcl with
  | none => (.error (.invalid .noJobStatement), q)
  | some jobname =>
    let number := q.lastNumber + 1
    (.ok (Job.idOf number), ⟨q.jobs ++ [Job.ofText time number jobname jcl owner], number⟩)

/-- Removes a job with its spool files. -/
def purge (q : JobQueue) (id : String) : Except Error Unit × JobQueue :=
  match q.find id with
  | .error e => (.error e, q)
  | .ok job => (.ok (), { q with jobs := q.jobs.filter (·.jobid != job.jobid) })

end JobQueue

end MvsGateway.Host
