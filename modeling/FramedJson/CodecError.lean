import FramedJson.Envelope
import FramedJson.Options
import FramedJson.Json.Fault
import FramedJson.JsonSchema.Violation
import FramedJson.Model.Mismatch

namespace FramedJson

inductive ConfigurationError
  | options (e : OptionsError)
  | malformedSchema (e : Json.SyntaxError)
  | untitledSchema
  | unusableSchema (violation : JsonSchema.Violation)
  deriving DecidableEq

def ConfigurationError.message : ConfigurationError → String
  | .options e => e.message
  | .malformedSchema e => s!"Invalid JSON schema: {e.message}"
  | .untitledSchema => "Missing required JSON schema annotation title"
  | .unusableSchema violation => s!"Failed to compile JSON schema: {violation.message}"

inductive SerializationError
  | malformed (e : Json.SyntaxError)
  | mismatch (e : Model.Mismatch)
  | keyNotString
  deriving DecidableEq

def SerializationError.message : SerializationError → String
  | .malformed e => e.message
  | .mismatch e => e.message
  | .keyNotString => "key must be a string"

inductive Judged
  | alone
  | outgoing (subject : String) (schemaId : UInt32)
  | incoming (writerId : UInt32)
  deriving DecidableEq

def Judged.remark : Judged → String
  | .alone => ""
  | .outgoing subject schemaId => s!" (subject {subject}, schema id {schemaId})"
  | .incoming writerId => s!" (writer schema id {writerId})"

inductive CodecError
  | configuration (e : ConfigurationError)
  | framing (e : FramingError)
  | registry (subject : String) (e : RegistryError)
  | invalid (violations : List JsonSchema.Violation) (judged : Judged)
  | reportedInvalid (report : String)
  | serialization (e : SerializationError)
  | conversion (report : String)
  deriving DecidableEq

namespace CodecError

def message : CodecError → String
  | .configuration e => s!"configuration error: {e.message}"
  | .framing e => e.message
  | .registry subject e => s!"schema registry error for subject '{subject}': {e.message}"
  | .invalid violations judged =>
    s!"schema validation failed: {JsonSchema.report violations}{judged.remark}"
  | .reportedInvalid report => s!"schema validation failed: {report}"
  | .serialization e => s!"serialization error: {e.message}"
  | .conversion report => s!"conversion error: {report}"

theorem message_invalid (violations : List JsonSchema.Violation) (judged : Judged) :
    (invalid violations judged).message = (invalid violations .alone).message ++ judged.remark := by
  have message (judged : Judged) : (invalid violations judged).message =
      "schema validation failed: " ++ JsonSchema.report violations ++ judged.remark := rfl
  have alone : (invalid violations .alone).message =
      "schema validation failed: " ++ JsonSchema.report violations := String.append_empty
  exact (message judged).trans (congrArg (· ++ judged.remark) alone.symm)

def subject? : CodecError → Option String
  | .registry subject _ => some subject
  | _ => none

end CodecError
end FramedJson
