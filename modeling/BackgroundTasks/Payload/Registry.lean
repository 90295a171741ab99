import BackgroundTasks.Payload.Schema
import BackgroundTasks.Failure
import BackgroundTasks.Text.Utf8
import BackgroundTasks.Text.Base64

/-!
# The payload registry

The registry knows the payload types and stands between payloads and their persisted form. With a
cipher it seals what it writes into an envelope, `enc:v1:` and the ciphertext in base64; data
without the mark is taken as it is, so rows written before there was a cipher stay readable.
-/

namespace BackgroundTasks

/-- A symmetric cipher; either direction may refuse. -/
structure Cipher where
  encrypt : List UInt8 → Except String (List UInt8)
  decrypt : List UInt8 → Except String (List UInt8)

namespace Cipher

/-- Masks every byte with the same one, in both directions. -/
def mask (key : UInt8) : Cipher :=
  ⟨fun bytes => .ok (bytes.map (· ^^^ key)), fun bytes => .ok (bytes.map (· ^^^ key))⟩

/-- The cipher with an encryption that always refuses. -/
def refusingEncryption (c : Cipher) (text : String) : Cipher :=
  { c with encrypt := fun _ => .error text }

/-- The cipher with a decryption that always refuses. -/
def refusingDecryption (c : Cipher) (text : String) : Cipher :=
  { c with decrypt := fun _ => .error text }

end Cipher

/-- The persisted form of a payload. -/
structure SerializedPayload where
  typeId : String
  data : String
deriving DecidableEq, Repr

/-- The known payload types, and the cipher that protects payloads at rest. -/
structure Registry where
  types : List PayloadType := []
  cipher : Option Cipher := none

namespace Registry

/-- The known type with the given id. -/
def find? (r : Registry) (typeId : String) : Option PayloadType :=
  r.types.find? fun t => t.typeId == typeId

/-- Whether a type id is known. -/
def isRegistered (r : Registry) (typeId : String) : Bool := (r.find? typeId).isSome

/-- Makes a type known; an id can be taken once. -/
def register (r : Registry) (t : PayloadType) : Except PayloadFault Registry :=
  if r.isRegistered t.typeId then .error (.duplicateType t.typeId)
  else .ok { r with types := r.types ++ [t] }

/-- The known type ids in ascending order. -/
def typeIds (r : Registry) : List String :=
  (r.types.map (·.typeId)).mergeSort fun a b => !(b < a)

/-- Whether payloads are sealed. -/
def hasCipher (r : Registry) : Bool := r.cipher.isSome

/-! ## The envelope -/

/-- What every sealed text starts with. -/
def mark : List Char := ['e', 'n', 'c', ':']

/-- The version of the envelopes that are written. -/
def version : List Char := ['v', '1']

/-- Puts a text into an envelope if there is a cipher. -/
def sealText (r : Registry) (plain : String) : Except PayloadFault String :=
  match r.cipher with
  | none => .ok plain
  | some c =>
    match c.encrypt (Text.Utf8.ofString plain) with
    | .error text => .error (.cipher (.refused text))
    | .ok sealed => .ok (String.ofList (mark ++ version ++ ':' :: Text.Base64.encode sealed))

/-- The rest of a text after a beginning, if it begins like that. -/
def afterMark? : List Char → List Char → Option (List Char)
  | [], rest => some rest
  | c :: m, d :: rest => if c = d then afterMark? m rest else none
  | _ :: _, [] => none

/-- Takes a text out of its envelope, if it is in one. -/
def openEnvelope (r : Registry) (data : String) : Except PayloadFault String :=
  match afterMark? mark data.toList with
  | none => .ok data
  | some envelope =>
    let found := envelope.takeWhile (· != ':')
    let body := (envelope.dropWhile (· != ':')).drop 1
    if found != version then .error (.unsupportedVersion (String.ofList found))
    else match r.cipher with
      | none => .error .cipherMissing
      | some c =>
        match Text.Base64.decode body with
        | none => .error (.cipher .invalidEnvelope)
        | some sealed =>
          match c.decrypt sealed with
          | .error text => .error (.cipher (.refused text))
          | .ok plain =>
            match Text.Utf8.toString? plain with
            | none => .error (.cipher .notText)
            | some text => .ok text

/-! ## Payloads and their persisted form -/

/-- The persisted form of a payload of a known type. -/
def serialize (r : Registry) (p : Payload) : Except PayloadFault SerializedPayload :=
  if !r.isRegistered p.type.typeId then .error (.unknownType p.type.typeId)
  else match p.write with
    | .error reason => .error (.encode p.type.typeId reason)
    | .ok plain => (r.sealText plain).map (⟨p.type.typeId, ·⟩)

/-- The payload of a type that opened data spells. -/
def decode (t : PayloadType) (plain : String) : Except PayloadFault Payload :=
  match t.ofText? plain with
  | some p => .ok p
  | none => .error (.decode t.typeId .malformed)

/-- The payload of the expected type in persisted data. -/
def deserialize (r : Registry) (expected : PayloadType) (typeId data : String) :
    Except PayloadFault Payload :=
  if !r.isRegistered typeId then .error (.unknownType typeId)
  else if typeId != expected.typeId then
    .error (.decode typeId (.otherType expected.typeId))
  else (r.openEnvelope data).bind (decode expected)

/-- The payload in persisted data, of whatever type its id names. -/
def instantiate (r : Registry) (typeId data : String) : Except PayloadFault Payload :=
  match r.find? typeId with
  | none => .error (.unknownType typeId)
  | some t => (r.openEnvelope data).bind (decode t)

end Registry

end BackgroundTasks
