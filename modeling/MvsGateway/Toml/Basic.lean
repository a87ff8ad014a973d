import MvsGateway.Table
import MvsGateway.Text

/-!
# TOML values

The items of a document, and the rules by which a table grows: a table that
only a longer key or header implies may be defined later, and a table that
dotted keys made may only be extended by dotted keys.
-/

namespace MvsGateway.Toml

inductive Item
  | string (s : String)
  | integer (n : Int)
  | float
  | bool (b : Bool)
  | datetime
  | array (items : List Item)
  | inlineTable (fields : List (String × Item))
  /-- A table: whether it is only implied so far, whether dotted keys made it,
  and its fields. -/
  | table (implied dotted : Bool) (fields : List (String × Item))
  /-- The tables under a header in double brackets. -/
  | tables (elements : List Item)

namespace Item

instance : Inhabited Item := ⟨.datetime⟩

def newTable : Item := .table false false []

def field? (t : Item) (name : String) : Option Item :=
  match t with
  | .table _ _ fields => Table.find name fields
  | .inlineTable fields => Table.find name fields
  | _ => none

/-- Sets a field of a table. -/
def setField (t : Item) (name : String) (value : Item) : Item :=
  match t with
  | .table implied dotted fields => .table implied dotted (Table.place name value fields)
  | other => other

/-- Adds a field that a table does not have yet. -/
def addField? (t : Item) (name : String) (value : Item) : Option Item :=
  match t.field? name with
  | some _ => none
  | none => some (t.setField name value)

/-- Changes the table at a path of keys, through tables that the path implies
and the last of several. With `byDots` the path is a dotted key, which must
not enter a table that a header defined. -/
def changeAt? (byDots : Bool) (change : Item → Option Item) : List String → Item → Option Item
  | [], t => change t
  | key :: path, t =>
    match (t.field? key).getD (.table true byDots []) with
    | .table implied dotted fields =>
      if byDots && !implied then none
      else (changeAt? byDots change path (.table implied dotted fields)).map (t.setField key ·)
    | .tables elements =>
      match elements.getLast? with
      | none => none
      | some last =>
        (changeAt? byDots change path last).map fun last =>
          t.setField key (.tables (elements.dropLast ++ [last]))
    | _ => none

/-- Sets the value of a dotted key, given its parts before the last and the
last. The table that receives it is one that dotted keys made, or the one the
key starts from. -/
def setKey? (t : Item) (path : List String) (name : String) (value : Item) : Option Item :=
  changeAt? true (fun inner =>
    match inner with
    | .table _ dotted _ => if dotted == path.isEmpty then none else inner.addField? name value
    | _ => none) path t

end Item

/-! ## Documents -/

/-- A document while it is read: the tables that are complete, and the one
that lines are added to, with the path of its header. -/
structure Draft where
  root : Item
  current : Item
  path : List String
  /-- Whether the header has double brackets. -/
  repeated : Bool

namespace Draft

def empty : Draft := ⟨.newTable, .newTable, [], false⟩

/-- The document with the current table in its place. -/
def close? (d : Draft) : Option Item :=
  match d.path.getLast? with
  | none => some d.current
  | some key =>
    Item.changeAt? false (fun parent =>
      if d.repeated then
        match parent.field? key with
        | none => some (parent.setField key (.tables [d.current]))
        | some (.tables elements) => some (parent.setField key (.tables (elements ++ [d.current])))
        | some _ => none
      else some (parent.setField key d.current)) d.path.dropLast d.root

/-- The table that a path of keys leads to, without the keys that it would
imply. -/
def parentOf? (root : Item) (path : List String) : Option Item :=
  path.foldlM (fun t key =>
    match (t.field? key).getD (.table true false []) with
    | .table implied dotted fields => some (.table implied dotted fields)
    | .tables elements => elements.getLast?
    | _ => none) root

/-- Starts the table of a header in single brackets. A table that was only
implied so far is taken over. -/
def openTable? (d : Draft) (path : List String) : Option Draft := do
  let root ← d.close?
  let parent ← parentOf? root path.dropLast
  match parent.field? (path.getLast?.getD "") with
  | none => some ⟨root, .newTable, path, false⟩
  | some (.table true false fields) => some ⟨root, .table false false fields, path, false⟩
  | some _ => none

/-- Starts a table of a header in double brackets. -/
def openElement? (d : Draft) (path : List String) : Option Draft := do
  let root ← d.close?
  let parent ← parentOf? root path.dropLast
  match parent.field? (path.getLast?.getD "") with
  | none | some (.tables _) => some ⟨root, .newTable, path, true⟩
  | some _ => none

def setKey? (d : Draft) (path : List String) (name : String) (value : Item) : Option Draft :=
  (d.current.setKey? path name value).map fun current => { d with current }

end Draft

end MvsGateway.Toml
