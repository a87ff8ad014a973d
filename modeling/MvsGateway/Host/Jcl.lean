import MvsGateway.Text

/-!
# Job control language

What a submitted text says about its job: the name, the class and the steps.
A statement is a line that starts with two slashes and is no comment.
-/

namespace MvsGateway.Host.Jcl

/-- The text of a statement behind its slashes. Outer white space does not
count, and a line that starts with `//*` is a comment. -/
def statement? (line : List Char) : Option (List Char) :=
  match Chars.trim line with
  | '/' :: '/' :: '*' :: _ => none
  | '/' :: '/' :: r => some r
  | _ => none

def statements (jcl : String) : List (List Char) :=
  (Chars.lines jcl.toList).filterMap statement?

/-- The first two words of a statement, if the second is `operation`: then the
first one is the name. -/
def nameBefore? (operation statement : List Char) : Option (List Char) :=
  match Chars.words statement with
  | name :: op :: _ => if op == operation then some name else none
  | _ => none

def job : List Char := ['J', 'O', 'B']

def exec : List Char := ['E', 'X', 'E', 'C']

/-- The upper-cased first word of the first statement with `JOB` second. -/
def jobName? (jcl : String) : Option String :=
  ((statements jcl).findSome? (nameBefore? job)).map fun name =>
    String.ofList (name.map Char.toUpper)

def classKeyword : List Char := ['C', 'L', 'A', 'S', 'S', '=']

/-- The letter or digit behind the first `CLASS=` of a line. -/
def classOf? (line : List Char) : Option Char :=
  match Chars.cutAt classKeyword (line.map Char.toUpper) with
  | some (_, c :: _) => if c.isAlphanum then some c else none
  | _ => none

/-- The class that the first line with one gives, else `A`. -/
def jobClass (jcl : String) : Char :=
  ((Chars.lines jcl.toList).findSome? classOf?).getD 'A'

/-- The name of a step, empty if an `EXEC` statement gives none. -/
def step? (statement : List Char) : Option (List Char) :=
  if (statement.head?.map Chars.isBlank).getD false then
    if (Chars.words statement).head? == some exec then some [] else none
  else (nameBefore? exec statement).map (·.map Char.toUpper)

/-- The names of the steps in order. -/
def steps (jcl : String) : List String :=
  ((statements jcl).filterMap step?).map String.ofList

end MvsGateway.Host.Jcl
