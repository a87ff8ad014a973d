import MvsGateway.Text

/-!
# UNIX paths

A path is the list of its segments below the root. The text of a path is read
without its empty segments and single dots, so that a path has one written
form.
-/

namespace MvsGateway.Host

abbrev Path := List String

/-- The lexicographic order of the segments. -/
instance : LE Path := List.instLE

namespace Path

def root : Path := []

def isSegment (s : List Char) : Bool := !s.isEmpty && s != ['.']

/-- The path that a text names, with or without a slash in front. -/
def ofText (text : String) : Path :=
  ((Chars.splitAt '/' text.toList).filter isSegment).map String.ofList

/-- A slash, and the segments with slashes between them. -/
def text (p : Path) : String := "/" ++ Text.joinWith '/' p

/-- The path one segment up; the root has none. -/
def parent? (p : Path) : Option Path := if p.isEmpty then none else some p.dropLast

/-- Whether `q` lies strictly below `p`. -/
def isBelow (p q : Path) : Bool := p.isPrefixOf q && p.length < q.length

/-- Whether `q` lies directly in `p`. -/
def isChild (p q : Path) : Bool := p.isPrefixOf q && q.length == p.length + 1

/-- The last segment. -/
def name (p : Path) : String := p.getLast?.getD ""

example : (ofText "//tmp/./a/").text = "/tmp/a" := by decide

end Path

end MvsGateway.Host
