import MvsGateway.Table
import MvsGateway.Number.Shortest
import MvsGateway.Text

/-!
# JSON values

Numbers are whole where they fit 64 bits with or without sign, and floating
point otherwise. An object keeps its fields in ascending order of the names.
-/

namespace MvsGateway

namespace Json

inductive Number
  | whole (n : Int)
  | float (x : Binary64)
  deriving DecidableEq, Repr

/-- The text of a number: its decimal digits, or the shortest ones of a
floating-point number. -/
def Number.text : Number → String
  | .whole (.ofNat n) => Text.decimal n
  | .whole (.negSucc n) => "-" ++ Text.decimal (n + 1)
  | .float x => x.text

end Json

inductive Json
  | null
  | bool (b : Bool)
  | number (n : Json.Number)
  | string (s : String)
  | array (items : List Json)
  | object (fields : List (String × Json))

namespace Json

instance : Inhabited Json := ⟨.null⟩

/-- The fields of an object, by name. -/
abbrev Fields := List (String × Json)

def Fields.get? (fields : Fields) (name : String) : Option Json := Table.find name fields

/-- Sets a field; a later value of a name takes the place of an earlier one. -/
def Fields.put (fields : Fields) (name : String) (value : Json) : Fields :=
  Table.place name value fields

/-- Fields in ascending order, the last value of each name. -/
def Fields.ofList (fields : List (String × Json)) : Fields :=
  fields.foldl (fun all (name, value) => all.put name value) []

@[simp] theorem Fields.get?_put (fields : Fields) (n name : String) (value : Json) :
    (fields.put n value).get? name = if name = n then some value else fields.get? name :=
  Table.find_place n name value fields

theorem Fields.get?_foldl_put (later fields : Fields) (name : String) :
    get? (later.foldl (fun all (n, value) => all.put n value) fields) name =
      ((ofList later).get? name).or (fields.get? name) := by
  -- Both sides put the first later field, the left one behind `fields` and the right one alone.
  induction later generalizing fields with
  | nil => rfl
  | cons field later ih =>
    obtain ⟨n, value⟩ := field
    rw [ofList, List.foldl_cons, List.foldl_cons, ih, ih, get?_put, get?_put]
    split
    · cases (ofList later).get? name <;> rfl
    · cases (ofList later).get? name <;> rfl

/-- A later field hides an earlier one of its name. -/
theorem Fields.get?_ofList_append (fields later : Fields) (name : String) :
    (ofList (fields ++ later)).get? name =
      ((ofList later).get? name).or ((ofList fields).get? name) := by
  rw [ofList, List.foldl_append, get?_foldl_put]
  rfl

theorem Fields.get?_ofList_eq_none {fields : List (String × Json)} {name : String}
    (h : ∀ field ∈ fields, name ≠ field.1) : (ofList fields).get? name = none := by
  induction fields with
  | nil => rfl
  | cons field later ih =>
    have hlater : (ofList later).get? name = none :=
      ih fun other hother => h other (List.mem_cons_of_mem _ hother)
    have hfirst : name ≠ field.1 := h field List.mem_cons_self
    rw [ofList, List.foldl_cons, get?_foldl_put, hlater, get?_put, if_neg hfirst]
    rfl

def ofNat (n : Nat) : Json := .number (.whole n)

def asString? : Json → Option String
  | .string s => some s
  | _ => none

def asBool? : Json → Option Bool
  | .bool b => some b
  | _ => none

/-- The value of a whole number that is not negative. -/
def asNat? : Json → Option Nat
  | .number (.whole (.ofNat n)) => some n
  | _ => none

def asObject? : Json → Option Fields
  | .object fields => some fields
  | _ => none

end Json

end MvsGateway
