import MvsGateway.Request.Error

/-!
# Query options

The decoded query of a request, and the options read from it. A name may occur
more than once; its last value counts. Flags are on when their value is `true`
in any letter case.
-/

namespace MvsGateway

/-- Names and values in the order of the query. -/
abbrev Query := List (String × String)

namespace Query

def get? : Query → String → Option String
  | [], _ => none
  | (n, value) :: rest, name =>
    match get? rest name with
    | some later => some later
    | none => if n == name then some value else none

/-- The value of an option, if it is not empty. -/
def nonEmpty? (q : Query) (name : String) : Option String :=
  (q.get? name).filter (· != "")

def present (q : Query) (name : String) : Bool := (q.nonEmpty? name).isSome

def isTrue (value : String) : Bool := Text.sameLetters value "true"

def flag (q : Query) (name : String) : Bool := ((q.get? name).map isTrue).getD false

/-- The largest count of items. -/
def maxCount : Nat := UInt64.size - 1

/-- The limit that a text sets: a positive number of any length, at most the
largest count. Any other text sets none. -/
def maxEntries? (raw : String) : Option Nat :=
  match Text.decimal? raw with
  | none | some 0 => none
  | some n => some (min n maxCount)

def options (q : Query) : Options where
  maxEntries := (q.get? "max-entries").bind maxEntries?
  warn := ((q.get? "warn").map isTrue).getD true
  csvFormat := q.flag "response-format-csv"
  bytesFormat := q.flag "response-format-bytes"
  includeAttributes := q.flag "attributes"
  encoding := q.nonEmpty? "encoding"
  etag := q.nonEmpty? "etag"
  etagOnly := q.flag "etag-only"
  returnEtag := q.flag "return-etag"
  recursive := q.flag "recursive"
  showHidden := q.flag "all"
  longFormat := q.flag "long"

/-- A number below `2 ^ 32`, or nothing where the option is empty or absent. -/
def number? (q : Query) (name : String) : Except RequestError (Option Nat) :=
  match q.nonEmpty? name with
  | none => .ok none
  | some raw =>
    match Text.decimal? raw with
    | none => .error (.invalid (.notANumber name))
    | some n => if n < UInt32.size then .ok (some n) else .error (.invalid (.outOfRange name))

/-- The attributes of a new data set. -/
def attributes (q : Query) : Except RequestError Host.Attributes := do
  let lrecl ← q.number? "lrecl"
  let blksize ← q.number? "blksize"
  let primary ← q.number? "primary"
  let secondary ← q.number? "secondary"
  let dirblk ← q.number? "dirblk"
  return {
    dsorg := (q.nonEmpty? "dsorg").map Text.upper
    recfm := (q.nonEmpty? "recfm").map Text.upper
    lrecl, blksize, primary, secondary, dirblk
    alcunit := (q.nonEmpty? "alcunit").map Text.upper }

/-- The path that a request without a path of its own names. -/
def path (q : Query) : Except RequestError String :=
  match q.nonEmpty? "path" with
  | some path => .ok path
  | none => .error (.invalid .pathRequired)

end Query

end MvsGateway
