import MvsGateway.Proofs.FileTree.WellFormed

/-!
# Reachable trees

The trees that changes make of the first tree of a user, one after the other
and with any arguments. The file tree of a machine is such a tree after every
run.
-/

namespace MvsGateway.Host

namespace FileTree

/-- One change, accepted or refused. -/
inductive Changes : FileTree → FileTree → Prop
  | write (t : FileTree) (path data etag owner : String) :
      Changes t (t.write path data etag owner).2
  | createFile (t : FileTree) (path mode owner : String) : Changes t (t.createFile path mode owner).2
  | createDirectory (t : FileTree) (path mode owner : String) :
      Changes t (t.createDirectory path mode owner).2
  | delete (t : FileTree) (path : String) (recursive : Bool) : Changes t (t.delete path recursive).2
  | mode (t : FileTree) (path mode : String) (recursive : Bool) :
      Changes t (t.changeMode path mode recursive).2
  | owner (t : FileTree) (path owner : String) (recursive : Bool) :
      Changes t (t.changeOwner path owner recursive).2
  | tag (t : FileTree) (path tag : String) (recursive : Bool) :
      Changes t (t.changeTag path tag recursive).2

inductive Reachable (user : String) : FileTree → Prop
  | first : Reachable user (initial user)
  | change {t u : FileTree} (h : Reachable user t) (hchange : Changes t u) : Reachable user u

variable {P : FileTree → Prop} {user : String} {t u : FileTree}

theorem Changes.keeps (hkept : Kept P) (hchange : Changes t u) (h : P t) : P u := by
  cases hchange with
  | write path data etag owner => exact hkept.write t path data etag owner h
  | createFile path mode owner => exact hkept.createFile t path mode owner h
  | createDirectory path mode owner => exact hkept.createDirectory t path mode owner h
  | delete path recursive => exact hkept.delete t path recursive h
  | mode path mode recursive => exact hkept.changeMode t path mode recursive h
  | owner path owner recursive => exact hkept.changeOwner t path owner recursive h
  | tag path tag recursive => exact hkept.changeTag t path tag recursive h

theorem Reachable.keeps (hkept : Kept P) (hfirst : P (initial user)) (h : Reachable user t) :
    P t := by
  induction h with
  | first => exact hfirst
  | change _ hchange ih => exact hchange.keeps hkept ih

theorem Reachable.wellFormed (huser : Path.IsSegment user) (h : Reachable user t) :
    t.WellFormed :=
  h.keeps wellFormed_kept (wellFormed_initial huser)

theorem reachable_kept (user : String) : Kept (Reachable user) where
  write t path data etag owner h := h.change (.write t path data etag owner)
  createFile t path mode owner h := h.change (.createFile t path mode owner)
  createDirectory t path mode owner h := h.change (.createDirectory t path mode owner)
  delete t path recursive h := h.change (.delete t path recursive)
  changeMode t path mode recursive h := h.change (.mode t path mode recursive)
  changeOwner t path owner recursive h := h.change (.owner t path owner recursive)
  changeTag t path tag recursive h := h.change (.tag t path tag recursive)

end FileTree

/-- The machine puts the name of its user into upper case. -/
theorem Machine.files_reachable (user : String) (history : List (String × Call)) :
    FileTree.Reachable (Text.upper user) ((initial user).after history).files :=
  after_keeps_files (FileTree.reachable_kept (Text.upper user)) .first history

end MvsGateway.Host
