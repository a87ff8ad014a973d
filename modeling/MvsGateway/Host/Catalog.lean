import MvsGateway.Table
import MvsGateway.Host.ContentTag
import MvsGateway.Host.DataSetName
import MvsGateway.Host.Pattern
import MvsGateway.Host.Record

/-!
# The catalog of data sets

Data sets by name, in ascending order. A sequential data set holds one text, a
partitioned one a text for each of its members. Every operation takes the name
as the caller wrote it and returns its answer beside the catalog that it
leaves.
-/

namespace MvsGateway.Host

inductive Contents
  | sequential (text : String)
  | partitioned (members : Table String String)
  deriving DecidableEq

structure DataSet where
  attributes : Attributes
  volser : String
  contents : Contents
  deriving DecidableEq

structure Catalog where
  entries : Table String DataSet
  deriving DecidableEq

namespace Contents

/-- Whether a data set of this shape can be addressed with this member part. -/
def check (name : String) : Contents → Option String → Except Error Unit
  | .sequential _, none => .ok ()
  | .partitioned _, some _ => .ok ()
  | .partitioned _, none => .error (.invalid (.memberRequired name))
  | .sequential _, some _ => .error (.invalid (.notPartitioned name))

/-- The text under a member part that fits the shape. -/
def text? : Contents → Option String → Option String
  | .sequential text, none => some text
  | .partitioned members, some member => members.get? member
  | _, _ => none

/-- Sets the text under a member part that fits the shape. -/
def put : Contents → Option String → String → Contents
  | .sequential _, none, text => .sequential text
  | .partitioned members, some member, text => .partitioned (members.insert member text)
  | contents, _, _ => contents

/-- The contents with an empty text where the member part has none yet. -/
def opened (c : Contents) (member : Option String) : Contents :=
  match c.text? member with
  | some _ => c
  | none => c.put member ""

end Contents

namespace Catalog

def empty : Catalog := ⟨Table.empty⟩

/-- The volume of every data set. -/
def volume : String := "VOL001"

def find (c : Catalog) (name : String) : Except Error DataSet :=
  match c.entries.get? name with
  | some dataSet => .ok dataSet
  | none => .error (.notFound .dataSet name)

/-- The catalog with other contents of one data set. -/
def setContents (c : Catalog) (name : String) (d : DataSet) (contents : Contents) : Catalog :=
  ⟨c.entries.insert name { d with contents }⟩

/-! ## Queries -/

def list (c : Catalog) (pattern : String) : List DataSetEntry :=
  (c.entries.entries.filter fun (name, _) => Pattern.accepts (Text.upper pattern) name).map
    fun (name, d) =>
      { name := some name, dsorg := d.attributes.dsorg, volser := some d.volser,
        migr := some false, recfm := d.attributes.recfm }

/-- The members of a partitioned data set; a member part of the name is ignored. -/
def members (c : Catalog) (dsn : String) : Except Error (List MemberEntry) := do
  let name := (Dsn.ofText dsn).name
  match (← c.find name).contents with
  | .partitioned members => .ok (members.keys.map fun member => { name := some member })
  | .sequential _ => .error (.invalid (.notPartitioned name))

def read (c : Catalog) (dsn : String) : Except Error String := do
  let target := Dsn.ofText dsn
  let d ← c.find target.name
  d.contents.check target.name target.member
  match d.contents.text? target.member with
  | some text => .ok text
  | none => .error (.notFound .member target.text)

/-! ## Changes -/

/-- Replaces a text and returns its tag. An absent member joins the data set
first, also when the tag is refused then. -/
def write (c : Catalog) (dsn data etag : String) : Except Error String × Catalog :=
  let target := Dsn.ofText dsn
  match c.find target.name with
  | .error e => (.error e, c)
  | .ok d =>
    match d.contents.check target.name target.member with
    | .error e => (.error e, c)
    | .ok () =>
      let opened := d.contents.opened target.member
      match checkTag dsn etag ((opened.text? target.member).getD "") with
      | .error e => (.error e, c.setContents target.name d opened)
      | .ok () =>
        (.ok (contentTag data), c.setContents target.name d (opened.put target.member data))

/-- The attributes of a new data set, with the host's choices filled in. -/
def allocated (a : Attributes) : Attributes :=
  { a with
    dsorg := some (Text.upper (a.dsorg.getD "PS"))
    recfm := some (Text.upper (a.recfm.getD "FB"))
    lrecl := some (a.lrecl.getD 80) }

def create (c : Catalog) (dsn : String) (a : Attributes) : Except Error Unit × Catalog :=
  let target := Dsn.ofText dsn
  if target.member.isSome then (.error (.invalid .memberInAllocation), c)
  else match nameFault? target.name with
    | some fault => (.error (.invalid fault), c)
    | none =>
      if c.entries.contains target.name then (.error (.alreadyExists .dataSet target.name), c)
      else
        let attributes := allocated a
        let contents := if attributes.isPartitioned then .partitioned .empty else .sequential ""
        (.ok (), ⟨c.entries.insert target.name { attributes, volser := volume, contents }⟩)

/-- Adds an empty member to a partitioned data set. -/
def createMember (c : Catalog) (dsn : String) : Except Error Unit × Catalog :=
  let target := Dsn.ofText dsn
  match target.member with
  | none | some "" => (.error (.invalid (.notAMember dsn)), c)
  | some member =>
    match c.find target.name with
    | .error e => (.error e, c)
    | .ok d =>
      match d.contents with
      | .sequential _ => (.error (.invalid (.notPartitioned target.name)), c)
      | .partitioned members =>
        if members.contains member then (.error (.alreadyExists .member target.text), c)
        else
          (.ok (), c.setContents target.name d (.partitioned (members.insert member "")))

/-- Deletes a data set, or the member that the name has. -/
def delete (c : Catalog) (dsn : String) : Except Error Unit × Catalog :=
  let target := Dsn.ofText dsn
  match c.find target.name with
  | .error e => (.error e, c)
  | .ok d =>
    match target.member, d.contents with
    | none, _ => (.ok (), ⟨c.entries.erase target.name⟩)
    | some _, .sequential _ => (.error (.invalid (.notPartitioned target.name)), c)
    | some member, .partitioned members =>
      if members.contains member then
        (.ok (), c.setContents target.name d (.partitioned (members.erase member)))
      else (.error (.notFound .member target.text), c)

end Catalog

end MvsGateway.Host
