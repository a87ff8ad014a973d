import MvsGateway.Json.Reader
import MvsGateway.Request.Error
import MvsGateway.Utf8

/-!
# Request bodies

A body is a JSON object or plain text. Content to write is the text itself, or
the `records` of the object: a string, or an array of numbers below 256, one
for each character.
-/

namespace MvsGateway

/-- The bytes of a body. -/
abbrev Body := List UInt8

namespace Body

/-- The fields of a body that is a JSON object. -/
def object? (body : Body) : Option Json.Fields :=
  match (Utf8.decode? body).bind fun s => Json.read? (String.ofList s) with
  | some (.object fields) => some fields
  | _ => none

/-- The text of a body, U+FFFD for each part that is no UTF-8. -/
def text (body : Body) : String := String.ofList (Utf8.decodeLossy body)

/-- The text of a field that is a string with some text, or a number. -/
def textField? (fields : Json.Fields) (name : String) : Option String :=
  match fields.get? name with
  | some (.string s) => if s == "" then none else some s
  | some (.number n) => some n.text
  | _ => none

/-- The character that an item of a records array stands for. -/
def recordChar? (item : Json) : Option Char :=
  match item.asNat? with
  | some n => if n < 256 then some (Char.ofNat n) else none
  | none => none

def recordsText (records : Json) : Except RequestError String :=
  match records with
  | .string s => .ok s
  | .array items =>
    match items.mapM recordChar? with
    | some chars => .ok (String.ofList chars)
    | none => .error (.invalid .recordsRange)
  | _ => .error (.invalid .recordsShape)

/-- The content to write, which must not be empty. -/
def content (body : Body) : Except RequestError String := do
  let text ← match body.object? with
    | some fields =>
      match fields.get? "records" with
      | some records => recordsText records
      | none => .ok ""
    | none => .ok body.text
  if text == "" then .error (.invalid .emptyBody) else .ok text

end Body

end MvsGateway
