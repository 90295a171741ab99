import BackgroundTasks.Json.Reader
import BackgroundTasks.Json.Printer
import BackgroundTasks.Json.Fields
import BackgroundTasks.Text.Position

/-!
# Payloads

A payload is the data that a task hands to its worker. Its type is named by a stable id and lists
the fields that a value has; a value is written as one JSON object in the order of the fields.
-/

namespace BackgroundTasks

/-- What a field of a payload holds. -/
inductive FieldKind where
  | text
  /-- A list of signed 64-bit integers. -/
  | integers
  | optionalText
  /-- A truth value; false when it is left out. -/
  | flag
deriving DecidableEq, Repr

/-- The value of a field. -/
inductive FieldValue where
  | text (s : String)
  | integers (ns : List Int)
  | optionalText (s : Option String)
  | flag (b : Bool)
deriving DecidableEq, Repr

/-- A type of payloads. -/
structure PayloadType where
  typeId : String
  fields : List (String × FieldKind)
  /-- The text field, if there is one, that says why a value cannot be written. -/
  refusal : Option String := none
deriving DecidableEq, Repr

/-- A value of a payload type, its fields in the order of the type. -/
structure Payload where
  type : PayloadType
  values : List FieldValue
deriving DecidableEq, Repr

namespace FieldValue

/-- A field's value in JSON. -/
def toJson : FieldValue → Json
  | text s => .text s
  | integers ns => .array (ns.map fun n => .number (Number.Numeral.ofInt n))
  | optionalText s => .optional .text s
  | flag b => .bool b

/-- Reads one field of a record. -/
def ofFields? (f : Json.Fields) (name : String) : FieldKind → Option FieldValue
  | .text => (f.required name Json.text?).map text
  | .integers => (f.required name (Json.list? Json.signed?)).map integers
  | .optionalText => (f.optional name Json.text?).map optionalText
  | .flag => (f.defaulted name false Json.bool?).map flag

end FieldValue

namespace PayloadType

/-- The names of the fields. -/
def names (t : PayloadType) : List String := t.fields.map (·.1)

/-- The payload of this type that a JSON value holds. -/
def ofJson? (t : PayloadType) (j : Json) : Option Payload := do
  let f ← Json.fields? t.names j
  let values ← t.fields.mapM fun (name, kind) => FieldValue.ofFields? f name kind
  some ⟨t, values⟩

/-- The payload of this type that a text spells. -/
def ofText? (t : PayloadType) (s : String) : Option Payload := (Json.ofText? s).bind t.ofJson?

end PayloadType

namespace Payload

/-- A payload in JSON. -/
def toJson (p : Payload) : Json :=
  .record ((p.type.names.zip p.values).map fun (name, v) => (name, v.toJson))

/-- The value of the field with the given name. -/
def field? (p : Payload) (name : String) : Option FieldValue :=
  (p.type.names.zip p.values).lookup name

/-- The text of a payload, or the reason why it has none. -/
def write (p : Payload) : Except String String :=
  match p.type.refusal.bind p.field? with
  | some (.text reason) => .error (Text.tidyPosition reason)
  | _ => .ok p.toJson.compactText

end Payload

end BackgroundTasks
