import MvsGateway.Chars.Split
import MvsGateway.Utf8

/-!
# Search patterns

A pattern is matched qualifier by qualifier. The qualifier `**` stands for any
number of qualifiers, an asterisk for any run of bytes within a qualifier, and
a percent sign for one byte.
-/

namespace MvsGateway.Host.Pattern

/-- A list and all that is left of it after dropping some of its front. -/
def rests {α : Type} : List α → List (List α)
  | [] => [[]]
  | a :: r => (a :: r) :: rests r

def asterisk : UInt8 := 42

def percent : UInt8 := 37

/-- Whether the bytes of a qualifier match those of a pattern qualifier. -/
def matchesBytes : List UInt8 → List UInt8 → Bool
  | [], text => text.isEmpty
  | p :: pattern, text =>
    if p == asterisk then
      (rests text).any (matchesBytes pattern ·)
    else match text with
      | [] => false
      | b :: rest => (p == percent || p == b) && matchesBytes pattern rest

def matchesQualifier (pattern text : List Char) : Bool :=
  matchesBytes (Utf8.encode pattern) (Utf8.encode text)

def anyQualifiers : List Char := ['*', '*']

def matchesQualifiers : List (List Char) → List (List Char) → Bool
  | [], name => name.isEmpty
  | p :: pattern, name =>
    if p == anyQualifiers then
      (rests name).any (matchesQualifiers pattern ·)
    else match name with
      | [] => false
      | q :: rest => matchesQualifier p q && matchesQualifiers pattern rest

/-- Whether a name matches a pattern. -/
def accepts (pattern name : String) : Bool :=
  matchesQualifiers (Chars.splitAt '.' pattern.toList) (Chars.splitAt '.' name.toList)

example : accepts "USER.*.D%TA.**" "USER.X1.DATA" = true := by decide

example : accepts "USER.*" "USER.A.B" = false := by decide

end MvsGateway.Host.Pattern
