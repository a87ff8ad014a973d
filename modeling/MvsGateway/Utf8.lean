/-!
# UTF-8

Encoding of text as bytes, and decoding with one mark for each maximal part
that no encoding continues. A decoder may refuse such a part or put U+FFFD in
its place.
-/

namespace MvsGateway.Utf8

def encode (s : List Char) : List UInt8 := s.flatMap String.utf8EncodeChar

def encodeString (s : String) : List UInt8 := encode s.toList

/-- A sequence whose first bytes are read: how many more follow, the bits so
far, and the range of the next byte. Later bytes range over `80` to `BF`. -/
structure Pending where
  left : Nat
  bits : Nat
  low : UInt8
  high : UInt8

/-- What a byte means where a sequence may begin. -/
inductive Lead
  | ascii (c : Char)
  | opens (p : Pending)
  | illFormed

/-- The second byte of some sequences has a narrower range, which keeps out
longer encodings than needed, surrogates and code points past U+10FFFF. -/
def lead (b : UInt8) : Lead :=
  if b < 0x80 then .ascii (Char.ofNat b.toNat)
  else if b < 0xC2 then .illFormed
  else if b < 0xE0 then .opens ⟨1, b.toNat - 0xC0, 0x80, 0xBF⟩
  else if b == 0xE0 then .opens ⟨2, 0, 0xA0, 0xBF⟩
  else if b == 0xED then .opens ⟨2, 0x0D, 0x80, 0x9F⟩
  else if b < 0xF0 then .opens ⟨2, b.toNat - 0xE0, 0x80, 0xBF⟩
  else if b == 0xF0 then .opens ⟨3, 0, 0x90, 0xBF⟩
  else if b == 0xF4 then .opens ⟨3, 4, 0x80, 0x8F⟩
  else if b < 0xF4 then .opens ⟨3, b.toNat - 0xF0, 0x80, 0xBF⟩
  else .illFormed

/-- The characters of a byte sequence, `none` for each ill-formed part. The
first argument is the sequence that the bytes continue, if they are inside one. -/
def scan : Option Pending → List UInt8 → List (Option Char)
  | none, [] => []
  | some _, [] => [none]
  | none, b :: r =>
    match lead b with
    | .ascii c => some c :: scan none r
    | .opens p => scan (some p) r
    | .illFormed => none :: scan none r
  | some p, b :: r =>
    if p.low ≤ b && b ≤ p.high then
      let bits := p.bits * 64 + (b.toNat - 0x80)
      match p.left with
      | 0 | 1 => some (Char.ofNat bits) :: scan none r
      | left + 2 => scan (some ⟨left + 1, bits, 0x80, 0xBF⟩) r
    else
      match lead b with
      | .ascii c => none :: some c :: scan none r
      | .opens q => none :: scan (some q) r
      | .illFormed => none :: none :: scan none r

/-- The text of well-formed bytes. -/
def decode? (bytes : List UInt8) : Option (List Char) := (scan none bytes).mapM id

/-- The text of any bytes, U+FFFD for each ill-formed part. -/
def decodeLossy (bytes : List UInt8) : List Char := (scan none bytes).map (·.getD '\uFFFD')

end MvsGateway.Utf8
