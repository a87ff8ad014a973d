import MvsGateway.Target.Basic

/-!
# Reading targets

The path of a request names its target. A data set is written `NAME`, a member
`NAME(MEMBER)` or `NAME/MEMBER`, and either may stand behind a volume,
`-(VOLUME)/`. A job is written `NAME/ID` or by its correlator, and its spool
files behind it.
-/

namespace MvsGateway

/-- Why a path names no target. Each cause carries the text at fault. -/
inductive PathError
  | volumeForm (text : String)
  | volumeEmpty (text : String)
  | nameRequired
  | nameMissing (text : String)
  | volumeInside (text : String)
  | memberPath (text : String)
  | memberOpen (text : String)
  | memberEmpty (text : String)
  | parentheses (text : String)
  | jobPath (text : String)
  | jobResource (text : String)
  | fileKey
  deriving DecidableEq, Repr

def PathError.message : PathError → String
  | .volumeForm text => "volume prefix in '" ++ text ++ "' must have the form -(VOLSER)/NAME"
  | .volumeEmpty text => "empty volume serial in '" ++ text ++ "'"
  | .nameRequired => "data set name is required"
  | .nameMissing text => "data set name is missing in '" ++ text ++ "'"
  | .volumeInside text => "volume prefix must lead the address in '" ++ text ++ "'"
  | .memberPath text => "invalid member path '" ++ text ++ "'"
  | .memberOpen text => "member name in '" ++ text ++ "' must end with ')'"
  | .memberEmpty text => "member name is empty in '" ++ text ++ "'"
  | .parentheses text => "unbalanced parentheses in '" ++ text ++ "'"
  | .jobPath text => "invalid job path '" ++ text ++ "'"
  | .jobResource text => "unrecognized job resource '" ++ text ++ "'"
  | .fileKey => "file_id must be a number"

namespace Target

/-! ## Data sets -/

/-- The text in front of a volume. -/
def volumeMark : List Char := ['-', '(']

def isReserved (c : Char) : Bool := c == '(' || c == ')' || c == '/'

/-- A data set name is not empty, does not start like a volume, and has neither
parentheses nor slashes. -/
def checkName (name whole : List Char) : Except PathError Unit :=
  if name.isEmpty then .error (.nameMissing (String.ofList whole))
  else if volumeMark.isPrefixOf name then .error (.volumeInside (String.ofList whole))
  else if name.any isReserved then .error (.parentheses (String.ofList whole))
  else .ok ()

def memberOf (name inner whole : List Char) : Except PathError Target := do
  checkName name whole
  if inner.isEmpty then .error (.memberEmpty (String.ofList whole))
  else .ok (.member (String.ofList name) (String.ofList inner))

/-- Reads a data set or a member, without a volume. -/
def ofDataSetChars (s : List Char) : Except PathError Target :=
  if s.isEmpty then .error .nameRequired
  else match Chars.cutAt ['/'] s with
    | some (name, inner) =>
      if inner.isEmpty || inner.any isReserved then .error (.memberPath (String.ofList s))
      else memberOf name inner s
    | none =>
      match Chars.cutAt ['('] s with
      | none => do
        checkName s s
        .ok (.dataSet (String.ofList s))
      | some (name, rest) =>
        match Chars.dropLast? ')' rest with
        | none => .error (.memberOpen (String.ofList s))
        | some inner =>
          if inner.any fun c => c == '(' || c == ')' then
            .error (.parentheses (String.ofList s))
          else memberOf name inner s

/-- Reads a data set or a member, with a volume or without. Outer white space
does not count. -/
def ofDataSetPath (raw : String) : Except PathError Target :=
  match Chars.trim raw.toList with
  | '-' :: '(' :: rest =>
    let whole := String.ofList ('-' :: '(' :: rest)
    match Chars.cutAt [')', '/'] rest with
    | none => .error (.volumeForm whole)
    | some (volume, portion) =>
      if volume.isEmpty then .error (.volumeEmpty whole)
      else (ofDataSetChars portion).map (.onVolume (String.ofList volume))
  | s => ofDataSetChars s

/-! ## Files -/

/-- The path with a slash in front, where it has none yet. -/
def absolutePath (raw : String) : String :=
  if raw.toList.head? == some '/' then raw else "/" ++ raw

def ofFilePath (raw : String) : Target := .file (absolutePath raw)

end Target

/-! ## Jobs -/

/-- A number below `2 ^ 32`, or `JCL` in any letter case. -/
def FileKey.ofText (raw : String) : Except PathError FileKey :=
  if Text.sameLetters raw "JCL" then .ok .jcl
  else match Text.decimal? raw with
    | some n => if n < UInt32.size then .ok (.number n) else .error .fileKey
    | none => .error .fileKey

namespace Target

/-- The text without the slashes at both ends. -/
def trimSlashes (s : List Char) : List Char :=
  ((s.dropWhile (· == '/')).reverse.dropWhile (· == '/')).reverse

/-- Reads a job, its spool files, or one of them. -/
def ofJobPath (raw : String) : Except PathError Target :=
  let segments := (Chars.splitAt '/' (trimSlashes raw.toList)).map String.ofList
  if segments.any (· == "") then .error (.jobPath raw)
  else match segments with
    | [correlator] => .ok (.job (.correlator correlator))
    | [correlator, "files"] => .ok (.spoolFiles (.correlator correlator))
    | [name, id] => .ok (.job (.id (some name) id))
    | [name, id, "files"] => .ok (.spoolFiles (.id (some name) id))
    | [correlator, "files", key, "records"] =>
      (FileKey.ofText key).map (.spoolFile (.correlator correlator))
    | [name, id, "files", key, "records"] =>
      (FileKey.ofText key).map (.spoolFile (.id (some name) id))
    | _ => .error (.jobResource raw)

example : (ofDataSetPath "-(VOL001)/USER.PDS(MEM)").toOption =
    some (.onVolume "VOL001" (.member "USER.PDS" "MEM")) := by decide

example : (ofJobPath "J1/files/2/records").toOption =
    some (.spoolFile (.correlator "J1") (.number 2)) := by decide

end Target

end MvsGateway
