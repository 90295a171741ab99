import BackgroundTasks.Span
import BackgroundTasks.TaskId

/-!
# Failures

Everything that a scheduler operation can report instead of a result. A failure is its cause; the
wording is in one place for each kind.
-/

namespace BackgroundTasks

/-! ## Requests -/

/-- Why a request makes no sense. -/
inductive RequestFault where
  | zeroInterval
  | flexBeyondInterval (flex interval : Span)
  | jitterOutOfRange (jitter : Float)
  | multiplierNotPositive (multiplier : Float)
deriving DecidableEq

/-- The wording of a request fault. -/
def RequestFault.message : RequestFault → String
  | zeroInterval => "periodic interval must be greater than zero"
  | flexBeyondInterval flex interval =>
    "flex (" ++ flex.text ++ ") must not exceed interval (" ++ interval.text ++ ")"
  | jitterOutOfRange jitter =>
    "jitter factor " ++ Number.FloatLayout.message.text jitter ++ " outside [0, 1]"
  | multiplierNotPositive multiplier =>
    "backoff multiplier " ++ Number.FloatLayout.message.text multiplier
      ++ " must be a positive number"

/-! ## Configurations -/

/-- Why a text is not the literal it should be. -/
inductive LiteralFault where
  | emptyInteger
  | invalidDigit
  | tooLarge
  | emptyFloat
  | invalidFloat
  | notBoolean
deriving DecidableEq, Repr

/-- The wording of a literal fault. -/
def LiteralFault.message : LiteralFault → String
  | emptyInteger => "cannot parse integer from empty string"
  | invalidDigit => "invalid digit found in string"
  | tooLarge => "number too large to fit in target type"
  | emptyFloat => "cannot parse float from empty string"
  | invalidFloat => "invalid float literal"
  | notBoolean => "provided string was not `true` or `false`"

/-- Why a configuration is refused. -/
inductive ConfigFault where
  | retriesBeyondCeiling (retries ceiling : UInt32)
  | zeroBackoffCeiling
  | multiplierNotPositive
  | emptyStorePath
  | cipherMissing
  | malformedVariable (name value : String) (fault : LiteralFault)
deriving DecidableEq, Repr

/-- The wording of a configuration fault. -/
def ConfigFault.message : ConfigFault → String
  | retriesBeyondCeiling retries ceiling =>
    "default_max_retries (" ++ Number.decimalText retries.toNat
      ++ ") exceeds max_retries_ceiling (" ++ Number.decimalText ceiling.toNat ++ ")"
  | zeroBackoffCeiling => "max_backoff_ms must be greater than 0"
  | multiplierNotPositive => "default_backoff_multiplier must be a positive number"
  | emptyStorePath => "file store path must not be empty"
  | cipherMissing => "encrypt_payloads is set but no cipher was provided"
  | malformedVariable name value fault =>
    name ++ ": invalid value `" ++ value ++ "`: " ++ fault.message

/-! ## Payloads -/

/-- What fails in sealing or opening payload data. -/
inductive CipherFault where
  /-- The cipher itself refuses. -/
  | refused (text : String)
  | invalidEnvelope
  | notText
deriving DecidableEq, Repr

/-- The wording of a cipher fault. -/
def CipherFault.message : CipherFault → String
  | refused text => text
  | invalidEnvelope => "invalid envelope: not canonical base64"
  | notText => "decrypted payload is not utf-8: invalid byte sequence"

/-- Why persisted data is not a payload of the expected type. -/
inductive DecodeFault where
  | otherType (expected : String)
  | malformed
deriving DecidableEq, Repr

/-- The wording of a decode fault. -/
def DecodeFault.message : DecodeFault → String
  | otherType expected => "stored type does not match `" ++ expected ++ "`"
  | malformed => "malformed payload"

/-- What fails between a payload and its persisted form. -/
inductive PayloadFault where
  | unknownType (typeId : String)
  | duplicateType (typeId : String)
  | encode (typeId reason : String)
  | decode (typeId : String) (fault : DecodeFault)
  | cipherMissing
  | unsupportedVersion (version : String)
  | cipher (fault : CipherFault)
deriving DecidableEq, Repr

/-- The wording of a payload fault. -/
def PayloadFault.message : PayloadFault → String
  | unknownType typeId => "unknown payload type `" ++ typeId ++ "`"
  | duplicateType typeId => "payload type `" ++ typeId ++ "` is already registered"
  | encode typeId reason => "failed to encode payload `" ++ typeId ++ "`: " ++ reason
  | decode typeId fault => "failed to decode payload `" ++ typeId ++ "`: " ++ fault.message
  | cipherMissing => "payload is encrypted but no cipher is configured"
  | unsupportedVersion version => "unsupported payload cipher version `" ++ version ++ "`"
  | cipher fault => "payload cipher failure: " ++ fault.message

/-! ## Stores -/

/-- What fails in a store. -/
inductive StoreFault where
  | taskExists (id : TaskId)
  /-- A file could not be made, read or written. -/
  | storage
  /-- The files do not hold what a store has written. -/
  | unreadable
  /-- A failure that the store puts into its own words. -/
  | reported (text : String)
deriving DecidableEq, Repr

/-- The wording of a store fault. -/
def StoreFault.message : StoreFault → String
  | taskExists id => "task " ++ id.text ++ " already exists"
  | storage => "storage failure"
  | unreadable => "unreadable store file"
  | reported text => text

/-! ## Operations -/

/-- Why an operation failed. -/
inductive Failure where
  | notFound (id : TaskId)
  | running (id : TaskId)
  | invalidRequest (fault : RequestFault)
  | invalidConfig (fault : ConfigFault)
  | payload (fault : PayloadFault)
  | platform (text : String)
  | store (fault : StoreFault)
deriving DecidableEq

/-- The wording of a failure. -/
def Failure.message : Failure → String
  | notFound id => "task not found: " ++ id.text
  | running id => "task " ++ id.text ++ " is running"
  | invalidRequest fault => "invalid request: " ++ fault.message
  | invalidConfig fault => "invalid configuration: " ++ fault.message
  | payload fault => fault.message
  | platform text => "platform adapter error: " ++ text
  | store fault => "backend error: " ++ fault.message

end BackgroundTasks
