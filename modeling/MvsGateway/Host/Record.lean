import MvsGateway.Text

/-!
# Host records

What the host reports about data sets, members, jobs and spool files. A host
may leave out any field.
-/

namespace MvsGateway.Host

structure DataSetEntry where
  name : Option String := none
  /-- The organization, such as `PS` or `PO`. -/
  dsorg : Option String := none
  volser : Option String := none
  /-- Whether the data set is migrated. -/
  migr : Option Bool := none
  /-- The record format, such as `FB`. -/
  recfm : Option String := none
  deriving DecidableEq, Repr

structure MemberEntry where
  name : Option String := none
  deriving DecidableEq, Repr

structure JobEntry where
  jobname : Option String := none
  jobid : Option String := none
  owner : Option String := none
  status : Option String := none
  fullStatus : Option String := none
  /-- The completion code, such as `CC 0000`. -/
  retcode : Option String := none
  correlator : Option String := none
  deriving DecidableEq, Repr

structure SpoolFileEntry where
  jobid : Option String := none
  ddname : Option String := none
  dsname : Option String := none
  stepname : Option String := none
  procstep : Option String := none
  /-- The number under which the file is read. -/
  key : Option Nat := none
  deriving DecidableEq, Repr

/-- What a caller asks of a new data set; the host chooses what is left out. -/
structure Attributes where
  dsorg : Option String := none
  recfm : Option String := none
  lrecl : Option Nat := none
  blksize : Option Nat := none
  primary : Option Nat := none
  secondary : Option Nat := none
  /-- The number of directory blocks. -/
  dirblk : Option Nat := none
  /-- The unit of space: tracks, cylinders or blocks. -/
  alcunit : Option String := none
  deriving DecidableEq, Repr

/-- The organizations `PO` and `PO-E` hold members. -/
def Attributes.isPartitioned (a : Attributes) : Bool :=
  match a.dsorg with
  | some dsorg => Text.upper dsorg == "PO" || Text.upper dsorg == "PO-E"
  | none => false

end MvsGateway.Host
