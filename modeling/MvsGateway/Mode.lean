import MvsGateway.Text

/-!
# Permission modes

A mode has one digit each for owner, group and other. It is written with three
digits or with nine characters, three `rwx` slots for each class, where a dash
stands for a permission that is not granted.
-/

namespace MvsGateway

/-- Three decimal digits. Digits above seven are kept as given, and then the
mode has no symbolic form. -/
structure Mode where
  owner : Fin 10
  group : Fin 10
  other : Fin 10
  deriving DecidableEq, Repr

/-- Why a text is no mode. -/
inductive ModeError
  | length (input : String)
  /-- The first wrong character, its position counted from one, and the letter
  that its slot may hold. -/
  | character (input : String) (found : Char) (position : Nat) (expected : Char)
  deriving DecidableEq, Repr

namespace ModeError

def message : ModeError → String
  | .length input =>
    "invalid mode '" ++ input ++ "': expected 3 octal digits or 9 symbolic characters"
  | .character input found position expected =>
    "invalid mode '" ++ input ++ "': character '" ++ found.toString ++ "' at position " ++
      Text.decimal position ++ " must be '" ++ expected.toString ++ "' or '-'"

end ModeError

namespace Mode

/-- The letters of the nine slots. -/
def slots : List Char := ['r', 'w', 'x', 'r', 'w', 'x', 'r', 'w', 'x']

def digit? (c : Char) : Option (Fin 10) :=
  if h : c.isDigit then
    some ⟨c.toNat - '0'.toNat, by
      simp only [Char.isDigit, Bool.and_eq_true, decide_eq_true_eq] at h
      have h2 : c.toNat ≤ 57 := h.2
      have h0 : '0'.toNat = 48 := rfl
      omega⟩
  else none

def octal? : List Char → Option Mode
  | [a, b, c] => do return ⟨← digit? a, ← digit? b, ← digit? c⟩
  | _ => none

/-- The first character that is neither a dash nor the letter of its slot,
with its position and that letter. Positions count from `position`. -/
def fault? (position : Nat) : List Char → List Char → Option (Char × Nat × Char)
  | letter :: letters, c :: r =>
    if c = letter ∨ c = '-' then fault? (position + 1) letters r
    else some (c, position, letter)
  | _, _ => none

/-- The digit of three slots: four for read, two for write, one for execute. -/
def classDigit (r w x : Char) : Fin 10 :=
  (if r = 'r' then 4 else 0) + (if w = 'w' then 2 else 0) + (if x = 'x' then 1 else 0)

def ofText (input : String) : Except ModeError Mode :=
  match octal? input.toList with
  | some mode => .ok mode
  | none =>
    match input.toList with
    | [a, b, c, d, e, f, g, h, i] =>
      match fault? 1 slots [a, b, c, d, e, f, g, h, i] with
      | some (found, position, expected) => .error (.character input found position expected)
      | none => .ok ⟨classDigit a b c, classDigit d e f, classDigit g h i⟩
    | _ => .error (.length input)

def digits (m : Mode) : List (Fin 10) := [m.owner, m.group, m.other]

/-- The three digits. -/
def text (m : Mode) : String := String.ofList (m.digits.map fun d => Nat.digitChar d.val)

def classSlots? (d : Fin 10) : Option (List Char) :=
  if d.val < 8 then
    some [if d.val / 4 % 2 = 1 then 'r' else '-', if d.val / 2 % 2 = 1 then 'w' else '-',
      if d.val % 2 = 1 then 'x' else '-']
  else none

/-- The nine slots, unless a digit is not octal. -/
def symbolic? (m : Mode) : Option String := do
  return String.ofList ((← classSlots? m.owner) ++ (← classSlots? m.group) ++ (← classSlots? m.other))

def file : Mode := ⟨6, 4, 4⟩

def directory : Mode := ⟨7, 5, 5⟩

example : (ofText "rwxr-xr--").toOption.map text = some "754" := by decide

example : ofText "rwxr-xr-z" = .error (.character "rwxr-xr-z" 'z' 9 'x') := by rfl

end Mode

end MvsGateway
