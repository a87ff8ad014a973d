import MvsGateway.Text
import MvsGateway.Host.Error

/-!
# Data set names

How the host takes a data set name apart, which names it accepts for a new
data set, and when a name matches a search pattern.
-/

namespace MvsGateway.Host

/-- A data set, or one member of it. -/
structure Dsn where
  name : String
  member : Option String
  deriving DecidableEq, Repr

namespace Dsn

/-- `NAME` or `NAME(MEMBER)`, in upper case and without outer white space. The
first opening parenthesis begins the member, if the text ends with a closing
one. -/
def ofText (text : String) : Dsn :=
  let s := Text.upper (Text.trim text)
  match Chars.cutAt ['('] s.toList with
  | some (name, rest) =>
    match Chars.dropLast? ')' rest with
    | some member => ⟨String.ofList name, some (String.ofList member)⟩
    | none => ⟨s, none⟩
  | none => ⟨s, none⟩

/-- `NAME` or `NAME(MEMBER)`. -/
def text (d : Dsn) : String :=
  match d.member with
  | some member => d.name ++ "(" ++ member ++ ")"
  | none => d.name

end Dsn

/-! ## Names of new data sets -/

/-- The characters that the host treats as letters. -/
def isNational (c : Char) : Bool := c == '$' || c == '#' || c == '@'

/-- A qualifier has one to eight characters and starts with a letter. -/
def isQualifier (q : List Char) : Bool :=
  match q with
  | [] => false
  | c :: _ =>
    q.length ≤ 8 && (c.isAlpha || isNational c) &&
      q.all fun c => c.isAlphanum || isNational c || c == '-'

/-- The longest name of a data set, in bytes. -/
def maxNameSize : Nat := 44

/-- Why a name is not accepted, if it is not. -/
def nameFault? (name : String) : Option Refusal :=
  if name.toList.isEmpty || name.utf8ByteSize > maxNameSize then some (.dataSetName name)
  else
    match (Chars.splitAt '.' name.toList).find? (!isQualifier ·) with
    | some qualifier => some (.qualifier (String.ofList qualifier) name)
    | none => none

end MvsGateway.Host
