import MvsGateway.Chars.Split
import MvsGateway.Request.Query
import MvsGateway.Utf8

/-!
# Request addresses

The path and the query of a request address, and the decoding of both. A
percent sign that two hex digits do not follow stands for itself.
-/

namespace MvsGateway.Http

structure Uri where
  path : String
  query : String
  deriving DecidableEq, Repr

namespace Uri

/-- The address without its fragment, cut at the first question mark. -/
def ofText (raw : String) : Uri :=
  let s := raw.toList.takeWhile (· != '#')
  ⟨String.ofList (s.takeWhile (· != '?')), String.ofList ((s.dropWhile (· != '?')).drop 1)⟩

def hexValue? (c : Char) : Option Nat :=
  if c.isDigit then some (c.toNat - '0'.toNat)
  else if 'a' ≤ c && c ≤ 'f' then some (c.toNat - 'a'.toNat + 10)
  else if 'A' ≤ c && c ≤ 'F' then some (c.toNat - 'A'.toNat + 10)
  else none

/-- The byte that two hex digits name. -/
def octet? (high low : Char) : Option UInt8 :=
  match hexValue? high, hexValue? low with
  | some h, some l => some (UInt8.ofNat (h * 16 + l))
  | _, _ => none

/-- The bytes of a text in which percent signs begin bytes in hex. -/
def percentDecode : List Char → List UInt8
  | [] => []
  | '%' :: high :: low :: r =>
    match octet? high low with
    | some b => b :: percentDecode r
    | none => Utf8.encode ['%'] ++ percentDecode (high :: low :: r)
  | c :: r => Utf8.encode [c] ++ percentDecode r

/-- The text of a path part, if its bytes are UTF-8. -/
def decodePath? (raw : String) : Option String :=
  (Utf8.decode? (percentDecode raw.toList)).map String.ofList

/-- The text of a name or a value in a query, where a plus sign is a blank. -/
def decodeField (s : List Char) : String :=
  let spaced := s.map fun c => if c == '+' then ' ' else c
  String.ofList (Utf8.decodeLossy (percentDecode spaced))

/-- A name and its value, which is empty where the equals sign is missing. -/
def decodePair (s : List Char) : String × String :=
  (decodeField (s.takeWhile (· != '=')), decodeField ((s.dropWhile (· != '=')).drop 1))

/-- The names and values of a query. Empty pairs do not count. -/
def decodeQuery (raw : String) : Query :=
  ((Chars.splitAt '&' raw.toList).filter (!·.isEmpty)).map decodePair

end Uri

end MvsGateway.Http
