import MvsGateway.Json.Basic

/-!
# Reading JSON

A text is read in two stages. The first takes it apart by the grammar and
keeps numbers and strings as written. The second gives the written form its
value, and refuses what has none: numbers out of range, lone surrogates, and
nesting deeper than the limit.
-/

namespace MvsGateway.Json

/-- A number as written: sign, whole digits, and the two optional parts. -/
structure Numeral where
  negative : Bool
  whole : List Char
  fraction : Option (List Char)
  /-- Whether the exponent is negative, and its digits. -/
  exponent : Option (Bool × List Char)

/-- A character of a string as written, or an escaped code unit. -/
inductive Glyph
  | char (c : Char)
  | escaped (unit : Nat)

/-- A text taken apart by the grammar. -/
inductive Written
  | null
  | bool (b : Bool)
  | numeral (n : Numeral)
  | text (glyphs : List Glyph)
  | list (items : List Written)
  | record (fields : List (List Glyph × Written))

/-! ## The grammar -/

def isSpace (c : Char) : Bool := c == ' ' || c == '\t' || c == '\n' || c == '\r'

def skipSpace (s : List Char) : List Char := s.dropWhile isSpace

/-- A non-empty run of digits and what follows it. -/
def readDigits (s : List Char) : Option (List Char × List Char) :=
  match s.takeWhile Char.isDigit with
  | [] => none
  | digits => some (digits, s.dropWhile Char.isDigit)

def readFraction : List Char → Option (Option (List Char) × List Char)
  | '.' :: r => (readDigits r).map fun (digits, rest) => (some digits, rest)
  | s => some (none, s)

def readExponent : List Char → Option (Option (Bool × List Char) × List Char)
  | c :: r =>
    if c == 'e' || c == 'E' then
      match r with
      | '-' :: r => (readDigits r).map fun (digits, rest) => (some (true, digits), rest)
      | '+' :: r => (readDigits r).map fun (digits, rest) => (some (false, digits), rest)
      | r => (readDigits r).map fun (digits, rest) => (some (false, digits), rest)
    else some (none, c :: r)
  | [] => some (none, [])

/-- A numeral; more than one digit must not start with zero. -/
def readNumeral (s : List Char) : Option (Numeral × List Char) := do
  let (negative, s) := match s with
    | '-' :: r => (true, r)
    | s => (false, s)
  let (whole, s) ← readDigits s
  if whole.length > 1 && whole.head? == some '0' then none
  let (fraction, s) ← readFraction s
  let (exponent, s) ← readExponent s
  some (⟨negative, whole, fraction, exponent⟩, s)

def hexValue? (c : Char) : Option Nat :=
  if '0' ≤ c && c ≤ '9' then some (c.toNat - '0'.toNat)
  else if 'a' ≤ c && c ≤ 'f' then some (c.toNat - 'a'.toNat + 10)
  else if 'A' ≤ c && c ≤ 'F' then some (c.toNat - 'A'.toNat + 10)
  else none

def hexUnit? (a b c d : Char) : Option Nat := do
  return (((← hexValue? a) * 16 + (← hexValue? b)) * 16 + (← hexValue? c)) * 16 + (← hexValue? d)

/-- The character of a one-letter escape. -/
def escape? : Char → Option Char
  | '"' => some '"'
  | '\\' => some '\\'
  | '/' => some '/'
  | 'b' => some '\x08'
  | 'f' => some '\x0c'
  | 'n' => some '\n'
  | 'r' => some '\r'
  | 't' => some '\t'
  | _ => none

/-- The rest of a string behind its opening quote. -/
def readGlyphs : List Char → Option (List Glyph × List Char)
  | [] => none
  | '"' :: r => some ([], r)
  | '\\' :: 'u' :: a :: b :: c :: d :: r => do
    let unit ← hexUnit? a b c d
    let (glyphs, rest) ← readGlyphs r
    some (.escaped unit :: glyphs, rest)
  | '\\' :: e :: r => do
    let c ← escape? e
    let (glyphs, rest) ← readGlyphs r
    some (.char c :: glyphs, rest)
  | c :: r =>
    if c == '\\' || c.toNat < 0x20 then none
    else (readGlyphs r).map fun (glyphs, rest) => (.char c :: glyphs, rest)

mutual

/-- A value and what follows it. The first argument bounds the calls. -/
def readValue : Nat → List Char → Option (Written × List Char)
  | 0, _ => none
  | fuel + 1, s =>
    match skipSpace s with
    | 'n' :: 'u' :: 'l' :: 'l' :: r => some (.null, r)
    | 't' :: 'r' :: 'u' :: 'e' :: r => some (.bool true, r)
    | 'f' :: 'a' :: 'l' :: 's' :: 'e' :: r => some (.bool false, r)
    | '"' :: r => (readGlyphs r).map fun (glyphs, rest) => (.text glyphs, rest)
    | '[' :: r =>
      match skipSpace r with
      | ']' :: rest => some (.list [], rest)
      | _ => (readItems fuel r).map fun (items, rest) => (.list items, rest)
    | '{' :: r =>
      match skipSpace r with
      | '}' :: rest => some (.record [], rest)
      | _ => (readMembers fuel r).map fun (fields, rest) => (.record fields, rest)
    | s => (readNumeral s).map fun (n, rest) => (.numeral n, rest)

/-- The items of an array that has some, up to its closing bracket. -/
def readItems : Nat → List Char → Option (List Written × List Char)
  | 0, _ => none
  | fuel + 1, s =>
    match readValue fuel s with
    | none => none
    | some (item, s) =>
      match skipSpace s with
      | ',' :: r => (readItems fuel r).map fun (items, rest) => (item :: items, rest)
      | ']' :: rest => some ([item], rest)
      | _ => none

/-- The fields of an object that has some, up to its closing brace. -/
def readMembers : Nat → List Char → Option (List (List Glyph × Written) × List Char)
  | 0, _ => none
  | fuel + 1, s =>
    match skipSpace s with
    | '"' :: r =>
      match readGlyphs r with
      | none => none
      | some (name, s) =>
        match skipSpace s with
        | ':' :: r =>
          match readValue fuel r with
          | none => none
          | some (value, s) =>
            match skipSpace s with
            | ',' :: r =>
              (readMembers fuel r).map fun (fields, rest) => ((name, value) :: fields, rest)
            | '}' :: rest => some ([(name, value)], rest)
            | _ => none
        | _ => none
    | _ => none

end

/-- The written form of a whole text. Two calls for each character suffice. -/
def Written.read? (s : List Char) : Option Written :=
  match readValue (2 * s.length + 2) s with
  | some (value, rest) => if (skipSpace rest).isEmpty then some value else none
  | none => none

/-! ## The value of a written form -/

/-- The text of a string; a surrogate needs its partner right behind it. -/
def textOf? : List Glyph → Option (List Char)
  | [] => some []
  | .char c :: r => (textOf? r).map (c :: ·)
  | .escaped unit :: r =>
    if 0xDC00 ≤ unit && unit ≤ 0xDFFF then none
    else if 0xD800 ≤ unit && unit ≤ 0xDBFF then
      match r with
      | .escaped next :: r =>
        if 0xDC00 ≤ next && next ≤ 0xDFFF then
          let code := 0x10000 + (unit - 0xD800) * 0x400 + (next - 0xDC00)
          (textOf? r).map (Char.ofNat code :: ·)
        else none
      | _ => none
    else (textOf? r).map (Char.ofNat unit :: ·)

/-- Takes digits into a significand as long as it stays below `2 ^ 64`, and
returns the digits that do not fit. -/
def absorb (significand : Nat) : List Char → Nat × List Char
  | [] => (significand, [])
  | c :: r =>
    let next := significand * 10 + Chars.digitValue c
    if next < UInt64.size then absorb next r else (significand, c :: r)

/-- The number that a numeral denotes, if it is in range. Digits beyond a
64-bit significand count for their place only. -/
def Numeral.toNumber? (n : Numeral) : Option Number :=
  let (significand, excess) := absorb 0 n.whole
  let signed (x : Option Binary64) : Option Number :=
    x.map fun x => .float (if n.negative then x.negate else x)
  match n.fraction, n.exponent, excess with
  | none, none, [] =>
    if !n.negative then some (.whole significand)
    else if significand == 0 || Nat.pow 2 63 < significand then
      signed (Binary64.ofDecimal? significand 0)
    else some (.whole (-significand))
  | fraction, exponent, excess =>
    let digits := fraction.getD []
    let (significand, left) := absorb significand digits
    let shift : Int := match exponent with
      | none => 0
      | some (true, digits) => -(Chars.decimalValue digits : Int)
      | some (false, digits) => Chars.decimalValue digits
    let power : Int := excess.length - (digits.length - left.length : Nat) + shift
    signed (Binary64.ofDecimal? significand power)

/-- How many arrays and objects may enclose one another. -/
def maxDepth : Nat := 127

mutual

/-- The value of a written form with at most `depth` levels of nesting. -/
def Written.toJson? : Written → Nat → Option Json
  | .null, _ => some .null
  | .bool b, _ => some (.bool b)
  | .numeral n, _ => n.toNumber?.map .number
  | .text glyphs, _ => (textOf? glyphs).map fun s => .string (String.ofList s)
  | .list _, 0 => none
  | .list items, depth + 1 => (itemsOf? items depth).map .array
  | .record _, 0 => none
  | .record fields, depth + 1 =>
    (fieldsOf? fields depth).map fun fields => .object (Fields.ofList fields)

def itemsOf? : List Written → Nat → Option (List Json)
  | [], _ => some []
  | item :: items, depth =>
    match item.toJson? depth, itemsOf? items depth with
    | some value, some values => some (value :: values)
    | _, _ => none

def fieldsOf? : List (List Glyph × Written) → Nat → Option (List (String × Json))
  | [], _ => some []
  | (name, item) :: fields, depth =>
    match textOf? name, item.toJson? depth, fieldsOf? fields depth with
    | some name, some value, some rest => some ((String.ofList name, value) :: rest)
    | _, _, _ => none

end

/-- The value of a JSON text. -/
def read? (s : String) : Option Json :=
  (Written.read? s.toList).bind (·.toJson? maxDepth)

end MvsGateway.Json
