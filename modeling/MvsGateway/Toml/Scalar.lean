import MvsGateway.Chars.Decimal
import MvsGateway.Toml.Basic

/-!
# TOML scalars

Strings in their four forms, numbers, and dates and times. A reader returns
what it read and the rest of the text.
-/

namespace MvsGateway.Toml

def isSpace (c : Char) : Bool := c == ' ' || c == '\t'

def skipSpace (s : List Char) : List Char := s.dropWhile isSpace

/-- The text behind a line end, if one stands here. -/
def lineEnd? : List Char → Option (List Char)
  | '\n' :: r => some r
  | '\r' :: '\n' :: r => some r
  | _ => none

/-- Tabs, and all characters that are not control characters. -/
def isPlain (c : Char) : Bool := c == '\t' || (0x20 ≤ c.toNat && c.toNat != 0x7F)

/-! ## Strings -/

def hexDigit? (c : Char) : Option Nat :=
  if c.isDigit then some (c.toNat - '0'.toNat)
  else if 'a' ≤ c && c ≤ 'f' then some (c.toNat - 'a'.toNat + 10)
  else if 'A' ≤ c && c ≤ 'F' then some (c.toNat - 'A'.toNat + 10)
  else none

/-- The character that some hex digits name, if it is no surrogate. -/
def scalarOf? (digits : List Char) : Option Char :=
  match digits.mapM hexDigit? with
  | none => none
  | some values =>
    let n := values.foldl (fun n d => n * 16 + d) 0
    if h : n.isValidChar then some (Char.ofNatAux n h) else none

/-- An escape behind its backslash. -/
def readEscape : List Char → Option (Char × List Char)
  | 'b' :: r => some ('\x08', r)
  | 't' :: r => some ('\t', r)
  | 'n' :: r => some ('\n', r)
  | 'f' :: r => some ('\x0c', r)
  | 'r' :: r => some ('\r', r)
  | '"' :: r => some ('"', r)
  | '\\' :: r => some ('\\', r)
  | 'u' :: a :: b :: c :: d :: r => (scalarOf? [a, b, c, d]).map (·, r)
  | 'U' :: a :: b :: c :: d :: e :: f :: g :: h :: r =>
    (scalarOf? [a, b, c, d, e, f, g, h]).map (·, r)
  | _ => none

/-- The rest of a string in double quotes. -/
def readBasic : Nat → List Char → Option (List Char × List Char)
  | 0, _ => none
  | fuel + 1, s =>
    match s with
    | '"' :: r => some ([], r)
    | '\\' :: r => do
      let (c, r) ← readEscape r
      let (text, rest) ← readBasic fuel r
      some (c :: text, rest)
    | c :: r =>
      if isPlain c then (readBasic fuel r).map fun (text, rest) => (c :: text, rest) else none
    | [] => none

/-- The rest of a string in single quotes. -/
def readLiteral : List Char → Option (List Char × List Char)
  | '\'' :: r => some ([], r)
  | c :: r => if isPlain c then (readLiteral r).map fun (text, rest) => (c :: text, rest) else none
  | [] => none

/-- The end of a string of several lines: three quotes, before which up to two
more belong to the text. -/
def readClosing (quote : Char) (s : List Char) : Option (List Char × List Char) :=
  let run := min 5 (s.takeWhile (· == quote)).length
  if run < 3 then none else some (List.replicate (run - 3) quote, s.drop run)

/-- The text behind a backslash that ends its line: the next character that is
neither blank nor a line end. -/
def skipFold (s : List Char) : Option (List Char) :=
  (lineEnd? (skipSpace s)).map fun r =>
    r.dropWhile fun c => isSpace c || c == '\n' || c == '\r'

/-- Whether every carriage return stands before a line feed. -/
def returnsPaired : List Char → Bool
  | '\r' :: '\n' :: r => returnsPaired r
  | '\r' :: _ => false
  | _ :: r => returnsPaired r
  | [] => true

/-- The rest of a string of several lines. Only in double quotes a backslash
begins an escape or folds lines. -/
def readMultiline (quote : Char) : Nat → List Char → Option (List Char × List Char)
  | 0, _ => none
  | fuel + 1, s =>
    match readClosing quote s with
    | some closed => some closed
    | none =>
      match lineEnd? s with
      | some r => (readMultiline quote fuel r).map fun (text, rest) => ('\n' :: text, rest)
      | none =>
        match s with
        | [] => none
        | c :: r =>
          if c == '\\' && quote == '"' then
            match skipFold r with
            | some behind =>
              if returnsPaired (r.take (r.length - behind.length)) then
                readMultiline quote fuel behind
              else none
            | none => do
              let (c, r) ← readEscape r
              let (text, rest) ← readMultiline quote fuel r
              some (c :: text, rest)
          else if isPlain c then
            (readMultiline quote fuel r).map fun (text, rest) => (c :: text, rest)
          else none

/-- A line end right behind the opening quotes is not part of the text. -/
def skipFirstLineEnd (s : List Char) : List Char := (lineEnd? s).getD s

/-- A string in one of the four forms. -/
def readString (s : List Char) : Option (List Char × List Char) :=
  match s with
  | '"' :: '"' :: '"' :: r => readMultiline '"' (s.length + 1) (skipFirstLineEnd r)
  | '\'' :: '\'' :: '\'' :: r => readMultiline '\'' (s.length + 1) (skipFirstLineEnd r)
  | '"' :: r => readBasic (s.length + 1) r
  | '\'' :: r => readLiteral r
  | _ => none

/-! ## Numbers -/

/-- The rest of a run of digits in which an underscore may stand between two. -/
def readMoreDigits (isDigit : Char → Bool) : List Char → Option (List Char × List Char)
  | '_' :: d :: r =>
    if isDigit d then (readMoreDigits isDigit r).map fun (ds, rest) => (d :: ds, rest) else none
  | ['_'] => none
  | d :: r =>
    if isDigit d then (readMoreDigits isDigit r).map fun (ds, rest) => (d :: ds, rest)
    else some ([], d :: r)
  | [] => some ([], [])

def readDigits (isDigit : Char → Bool) : List Char → Option (List Char × List Char)
  | d :: r =>
    if isDigit d then (readMoreDigits isDigit r).map fun (ds, rest) => (d :: ds, rest) else none
  | [] => none

/-- Decimal digits of which only a lone one may be zero in front. -/
def readWhole : List Char → Option (List Char × List Char)
  | '0' :: r => some (['0'], r)
  | s => readDigits Char.isDigit s

def inRange (n : Int) : Bool := Int64.minValue.toInt ≤ n && n ≤ Int64.maxValue.toInt

/-- A whole number to a base, which fits 63 bits and a sign. -/
def readBased (base : Nat) (isDigit : Char → Bool) (s : List Char) :
    Option (Item × List Char) := do
  let (digits, rest) ← readDigits isDigit s
  let values ← digits.mapM hexDigit?
  let n : Nat := values.foldl (fun n d => n * base + d) 0
  if inRange n then some (.integer n, rest) else none

def readSign : List Char → Bool × List Char
  | '-' :: r => (true, r)
  | '+' :: r => (false, r)
  | s => (false, s)

/-- The exponent of a float, with its sign; none at all is zero. -/
def readPower : List Char → Option (Option Int × List Char)
  | c :: r =>
    if c == 'e' || c == 'E' then do
      let (negative, r) := readSign r
      let (digits, rest) ← readDigits Char.isDigit r
      let n : Int := Chars.decimalValue digits
      some (some (if negative then -n else n), rest)
    else some (none, c :: r)
  | [] => some (none, [])

/-- Whether `significand * 10 ^ power` rounds to a number beyond the largest
64-bit floating-point number. -/
def overflows (significand : Nat) (power : Int) : Bool :=
  let limit := Nat.pow 2 1024 - Nat.pow 2 970
  let size : Int := (Chars.decimal significand).length
  if significand == 0 || size + power < 300 then false
  else if size + power > 400 then true
  else if 0 ≤ power then significand * Nat.pow 10 power.toNat ≥ limit
  else significand ≥ limit * Nat.pow 10 (-power).toNat

/-- A decimal number: whole, or with a fraction or an exponent. A float must
not exceed the range upwards. -/
def readDecimal (s : List Char) : Option (Item × List Char) := do
  let (negative, s) := readSign s
  match s with
  | 'i' :: 'n' :: 'f' :: r => some (.float, r)
  | 'n' :: 'a' :: 'n' :: r => some (.float, r)
  | s =>
    let (whole, s) ← readWhole s
    let (fraction, s) ← match s with
      | '.' :: r => (readDigits Char.isDigit r).map fun (ds, rest) => (some ds, rest)
      | s => some (none, s)
    let (power, rest) ← readPower s
    match fraction, power with
    | none, none =>
      let n : Int := Chars.decimalValue whole
      let n := if negative then -n else n
      if inRange n then some (.integer n, rest) else none
    | fraction, power =>
      let digits := fraction.getD []
      let significand := Chars.decimalValue (whole ++ digits)
      if !negative && overflows significand (power.getD 0 - digits.length) then none
      else some (.float, rest)

/-! ## Dates and times -/

/-- A number of exactly `count` digits within bounds. -/
def readField (count low high : Nat) (s : List Char) : Option (Nat × List Char) :=
  let digits := s.take count
  let n := Chars.decimalValue digits
  if digits.length == count && digits.all Char.isDigit && low ≤ n && n ≤ high then
    some (n, s.drop count)
  else none

def expect (c : Char) : List Char → Option (List Char)
  | d :: r => if d == c then some r else none
  | [] => none

def isLeapYear (year : Nat) : Bool := year % 4 == 0 && (year % 100 != 0 || year % 400 == 0)

def daysIn (year month : Nat) : Nat :=
  if month == 2 then (if isLeapYear year then 29 else 28)
  else if [4, 6, 9, 11].contains month then 30
  else 31

/-- The text behind a date. -/
def readDate (s : List Char) : Option (List Char) := do
  let (year, s) ← readField 4 0 9999 s
  let s ← expect '-' s
  let (month, s) ← readField 2 1 12 s
  let s ← expect '-' s
  let (_, s) ← readField 2 1 (daysIn year month) s
  some s

/-- The text behind a time of day, which may have a fraction of a second. -/
def readTime (s : List Char) : Option (List Char) := do
  let (_, s) ← readField 2 0 23 s
  let s ← expect ':' s
  let (_, s) ← readField 2 0 59 s
  let s ← expect ':' s
  let (_, s) ← readField 2 0 60 s
  match s with
  | '.' :: r =>
    if (r.takeWhile Char.isDigit).isEmpty then some s else some (r.dropWhile Char.isDigit)
  | s => some s

/-- The text behind an offset from universal time, if one stands here. -/
def skipOffset (s : List Char) : Option (List Char) :=
  match s with
  | 'Z' :: r | 'z' :: r => some r
  | '+' :: r | '-' :: r => do
    let (_, r) ← readField 2 0 23 r
    let r ← expect ':' r
    let (_, r) ← readField 2 0 59 r
    some r
  | s => some s

/-- A date, a time, or both with an offset or without. -/
def readDatetime (s : List Char) : Option (Item × List Char) :=
  match readDate s with
  | some r =>
    let time : Option (List Char) := match r with
      | 'T' :: r | 't' :: r | ' ' :: r => readTime r
      | _ => none
    match time with
    | some r => (skipOffset r).map (.datetime, ·)
    | none => some (.datetime, r)
  | none => (readTime s).map (.datetime, ·)

/-- A scalar that is no string. -/
def readPlain (s : List Char) : Option (Item × List Char) :=
  match s with
  | 't' :: 'r' :: 'u' :: 'e' :: r => some (.bool true, r)
  | 'f' :: 'a' :: 'l' :: 's' :: 'e' :: r => some (.bool false, r)
  | s =>
    match readDatetime s with
    | some read => some read
    | none =>
      match s with
      | '0' :: 'x' :: r => readBased 16 (fun c => (hexDigit? c).isSome) r
      | '0' :: 'o' :: r => readBased 8 (fun c => '0' ≤ c && c ≤ '7') r
      | '0' :: 'b' :: r => readBased 2 (fun c => c == '0' || c == '1') r
      | s => readDecimal s

end MvsGateway.Toml
