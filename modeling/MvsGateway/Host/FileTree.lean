import MvsGateway.Table
import MvsGateway.Host.ContentTag
import MvsGateway.Host.Path

/-!
# The file tree

Files and directories by path. A node can be added where its parent is a
directory, and deleted together with everything below it, so that the paths
stay a tree.
-/

namespace MvsGateway.Host

inductive NodeKind
  | file (content : String)
  | directory
  deriving DecidableEq, Repr

structure Node where
  kind : NodeKind
  mode : String
  owner : String
  /-- The code set of a file, once it is set. -/
  tag : Option String
  deriving DecidableEq, Repr

namespace Node

def isDirectory (n : Node) : Bool :=
  match n.kind with
  | .directory => true
  | .file _ => false

def newDirectory (mode owner : String) : Node := ⟨.directory, mode, owner, none⟩

end Node

structure FileTree where
  nodes : Table Path Node
  deriving DecidableEq

namespace FileTree

/-- The owner of the system's own directories. -/
def systemOwner : String := "OMVSKERN"

/-- A tree with `/tmp` and a home directory below `/u`. -/
def initial (user : String) : FileTree :=
  ⟨Table.empty
    |>.insert [] (.newDirectory "755" systemOwner)
    |>.insert ["tmp"] (.newDirectory "777" systemOwner)
    |>.insert ["u"] (.newDirectory "755" systemOwner)
    |>.insert ("u" :: Text.splitAt '/' (Text.lower user)) (.newDirectory "755" user)⟩

def find (t : FileTree) (p : Path) : Except Error Node :=
  match t.nodes.get? p with
  | some node => .ok node
  | none => .error (.notFound .path p.text)

/-- Sets the node at a path. -/
def put (t : FileTree) (p : Path) (n : Node) : FileTree := ⟨t.nodes.insert p n⟩

/-- Whether some node lies strictly below a path. -/
def hasBelow (t : FileTree) (p : Path) : Bool := t.nodes.keys.any (p.isBelow ·)

/-- The names of the nodes directly in a directory, in ascending order. -/
def children (t : FileTree) (p : Path) : List String :=
  (t.nodes.keys.filter (p.isChild ·)).map Path.name

/-- Three octal digits. -/
def checkMode (mode : String) : Except Error Unit :=
  if mode.toList.length == 3 && mode.toList.all (fun c => '0' ≤ c && c ≤ '7') then .ok ()
  else .error (.invalid (.mode mode))

/-! ## Queries -/

/-- One name a line: a file's own name, or `.`, `..` and what a directory
holds. -/
def list (t : FileTree) (path : String) : Except Error String := do
  let p := Path.ofText path
  let node ← t.find p
  let names := if node.isDirectory then "." :: ".." :: t.children p else [p.name]
  .ok (String.join (names.map (· ++ "\n")))

def read (t : FileTree) (path : String) : Except Error String := do
  let p := Path.ofText path
  match (← t.find p).kind with
  | .file content => .ok content
  | .directory => .error (.invalid (.isDirectory p.text))

/-! ## Changes -/

/-- Adds a node where none is and the parent is a directory. -/
def add (t : FileTree) (path : String) (kind : NodeKind) (mode owner : String) :
    Except Error Unit × FileTree :=
  let p := Path.ofText path
  match checkMode mode with
  | .error e => (.error e, t)
  | .ok () =>
    if t.nodes.contains p then (.error (.alreadyExists .path p.text), t)
    else
      let parent := p.parent?.getD .root
      match t.find parent with
      | .error e => (.error e, t)
      | .ok node =>
        if node.isDirectory then (.ok (), t.put p ⟨kind, mode, owner, none⟩)
        else (.error (.invalid (.notDirectory parent.text)), t)

def createFile (t : FileTree) (path mode owner : String) : Except Error Unit × FileTree :=
  t.add path (.file "") mode owner

def createDirectory (t : FileTree) (path mode owner : String) : Except Error Unit × FileTree :=
  t.add path .directory mode owner

/-- The mode of a file that a write creates. -/
def writtenMode : String := "644"

/-- Replaces the content of the file at a path that is present. -/
def replace (t : FileTree) (p : Path) (data etag : String) : Except Error String × FileTree :=
  match t.find p with
  | .error e => (.error e, t)
  | .ok node =>
    match node.kind with
    | .directory => (.error (.invalid (.isDirectory p.text)), t)
    | .file content =>
      match checkTag p.text etag content with
      | .error e => (.error e, t)
      | .ok () => (.ok (contentTag data), t.put p { node with kind := .file data })

/-- Replaces the content of a file and returns its tag. An absent file is
created first, also when the tag is refused then. -/
def write (t : FileTree) (path data etag owner : String) : Except Error String × FileTree :=
  let p := Path.ofText path
  if t.nodes.contains p then t.replace p data etag
  else match t.createFile path writtenMode owner with
    | (.error e, t) => (.error e, t)
    | (.ok (), t) => t.replace p data etag

/-- Deletes a node. What lies below it goes too, if `recursive` allows it. -/
def delete (t : FileTree) (path : String) (recursive : Bool) : Except Error Unit × FileTree :=
  let p := Path.ofText path
  if p.isEmpty then (.error (.invalid .deleteRoot), t)
  else match t.find p with
    | .error e => (.error e, t)
    | .ok _ =>
      if t.hasBelow p && !recursive then (.error (.invalid (.notEmpty p.text)), t)
      else (.ok (), ⟨t.nodes.filter fun q _ => !(q == p || p.isBelow q)⟩)

/-- Changes the node at a path and, if `recursive`, every node below it. -/
def update (t : FileTree) (path : String) (recursive : Bool) (change : Node → Node) :
    Except Error Unit × FileTree :=
  let p := Path.ofText path
  match t.find p with
  | .error e => (.error e, t)
  | .ok _ =>
    let reached (q : Path) : Bool := q == p || (recursive && p.isBelow q)
    (.ok (), ⟨t.nodes.mapValues fun q node => if reached q then change node else node⟩)

def changeMode (t : FileTree) (path mode : String) (recursive : Bool) :
    Except Error Unit × FileTree :=
  match checkMode mode with
  | .error e => (.error e, t)
  | .ok () => t.update path recursive fun node => { node with mode }

def changeOwner (t : FileTree) (path owner : String) (recursive : Bool) :
    Except Error Unit × FileTree :=
  if Text.isBlank owner then (.error (.invalid .blankOwner), t)
  else t.update path recursive fun node => { node with owner }

/-- Tags files; directories have no tag. -/
def changeTag (t : FileTree) (path tag : String) (recursive : Bool) :
    Except Error Unit × FileTree :=
  t.update path recursive fun node => if node.isDirectory then node else { node with tag := some tag }

end FileTree

end MvsGateway.Host
