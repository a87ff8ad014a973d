import MvsGateway.Toml.Scalar

/-!
# Reading TOML

A document is a run of lines: comments, headers and keys with their values.
-/

namespace MvsGateway.Toml

/-! ## Keys -/

def isBareKey (c : Char) : Bool := c.isAlphanum || c == '-' || c == '_'

/-- One part of a key: bare characters, or a string on one line. -/
def readKeyPart (s : List Char) : Option (String × List Char) :=
  match s with
  | '"' :: r => (readBasic (s.length + 1) r).map fun (text, rest) => (String.ofList text, rest)
  | '\'' :: r => (readLiteral r).map fun (text, rest) => (String.ofList text, rest)
  | s =>
    match s.takeWhile isBareKey with
    | [] => none
    | part => some (String.ofList part, s.dropWhile isBareKey)

/-- The parts of a dotted key, with blanks around each. -/
def readKeyParts : Nat → List Char → Option (List String × List Char)
  | 0, _ => none
  | fuel + 1, s => do
    let (part, s) ← readKeyPart (skipSpace s)
    match skipSpace s with
    | '.' :: r =>
      let (parts, rest) ← readKeyParts fuel r
      some (part :: parts, rest)
    | s => some ([part], s)

/-- Values nest, and keys have parts, less often than this. -/
def maxDepth : Nat := 80

/-- A dotted key: the parts before the last, and the last. -/
def readKey (s : List Char) : Option (List String × String × List Char) := do
  let (parts, rest) ← readKeyParts (s.length + 1) s
  let name ← parts.getLast?
  if parts.length < maxDepth then some (parts.dropLast, name, rest) else none

/-! ## Values -/

/-- The text behind a comment, if one stands here. -/
def skipComment : List Char → List Char
  | '#' :: r => r.dropWhile isPlain
  | s => s

/-- The text behind blanks, comments and line ends. -/
def skipLines : Nat → List Char → List Char
  | 0, s => s
  | fuel + 1, s =>
    match lineEnd? (skipComment (skipSpace s)) with
    | some r => skipLines fuel r
    | none => skipSpace s

def skipBlank (s : List Char) : List Char := skipLines (s.length + 1) s

mutual

/-- A value inside `depth` others. The first argument bounds the calls. -/
def readValue : Nat → Nat → List Char → Option (Item × List Char)
  | 0, _, _ => none
  | fuel + 1, depth, s =>
    match s with
    | '"' :: _ | '\'' :: _ => (readString s).map fun (text, r) => (.string (String.ofList text), r)
    | '[' :: r =>
      if depth + 1 < maxDepth then
        (readElements fuel (depth + 1) r).map fun (items, rest) => (.array items, rest)
      else none
    | '{' :: r =>
      if depth + 1 < maxDepth then
        match skipSpace r with
        | '}' :: rest => some (.inlineTable [], rest)
        | r => readPairs fuel (depth + 1) .newTable r
      else none
    | s => readPlain s

/-- The elements of an array up to its closing bracket; a comma may follow the
last one. -/
def readElements : Nat → Nat → List Char → Option (List Item × List Char)
  | 0, _, _ => none
  | fuel + 1, depth, s =>
    match skipBlank s with
    | ']' :: rest => some ([], rest)
    | s =>
      match readValue fuel depth s with
      | none => none
      | some (item, s) =>
        match skipBlank s with
        | ',' :: r => (readElements fuel depth r).map fun (items, rest) => (item :: items, rest)
        | ']' :: rest => some ([item], rest)
        | _ => none

/-- The keys and values of an inline table up to its closing brace, added to
those already read. -/
def readPairs : Nat → Nat → Item → List Char → Option (Item × List Char)
  | 0, _, _, _ => none
  | fuel + 1, depth, t, s =>
    match readKey s with
    | some (path, name, '=' :: r) =>
      match readValue fuel depth (skipSpace r) with
      | none => none
      | some (value, s) =>
        match t.setKey? path name value with
        | none => none
        | some t =>
          match skipSpace s with
          | ',' :: r => readPairs fuel depth t r
          | '}' :: rest =>
            match t with
            | .table _ _ fields => some (.inlineTable fields, rest)
            | _ => none
          | _ => none
    | _ => none

end

/-! ## Lines -/

/-- The text behind the end of a line that may have a comment. -/
def readLineEnd (s : List Char) : Option (List Char) :=
  match skipComment (skipSpace s) with
  | [] => some []
  | s => lineEnd? s

/-- A key and its value, added to the current table. -/
def readKeyLine (d : Draft) (s : List Char) : Option (Draft × List Char) := do
  let (path, name, s) ← readKey s
  let s ← expect '=' s
  let s := skipSpace s
  let (value, s) ← readValue (2 * s.length + 2) 0 s
  let rest ← readLineEnd s
  let d ← d.setKey? path name value
  some (d, rest)

/-- A header behind its opening bracket. -/
def readHeader (d : Draft) (s : List Char) : Option (Draft × List Char) := do
  match s with
  | '[' :: r =>
    let (path, name, r) ← readKey r
    let r ← (expect ']' r).bind (expect ']')
    let rest ← readLineEnd r
    let d ← d.openElement? (path ++ [name])
    some (d, rest)
  | s =>
    let (path, name, s) ← readKey s
    let s ← expect ']' s
    let rest ← readLineEnd s
    let d ← d.openTable? (path ++ [name])
    some (d, rest)

/-- Reads lines to the end of the text. -/
def readLines : Nat → Draft → List Char → Option Item
  | 0, _, _ => none
  | fuel + 1, d, s =>
    match skipSpace s with
    | [] => d.close?
    | '[' :: r => (readHeader d r).bind fun (d, rest) => readLines fuel d rest
    | '#' :: r => (readLineEnd ('#' :: r)).bind (readLines fuel d)
    | s =>
      match lineEnd? s with
      | some rest => readLines fuel d rest
      | none => (readKeyLine d s).bind fun (d, rest) => readLines fuel d rest

/-- The root table of a document. A byte order mark may stand in front. -/
def read? (text : String) : Option Item :=
  let s := match text.toList with
    | '\uFEFF' :: r => r
    | s => s
  readLines (s.length + 1) .empty s

end MvsGateway.Toml
