import FramedJson.CodecError
import FramedJson.JsonSchema.Validator

namespace FramedJson.LocalSchema

def read (definition : String) : Except CodecError Json :=
  match Json.ofText definition with
  | .ok document => .ok document
  | .error e => .error (.configuration (.malformedSchema e))

def compile (document : Json) : Except CodecError JsonSchema.Validator :=
  match JsonSchema.Validator.ofJson document with
  | .ok validator => .ok validator
  | .error violation => .error (.configuration (.unusableSchema violation))

def title (document : Json) : Except CodecError String :=
  match document.get? "title" with
  | some (.str title) => .ok title
  | _ => .error (.configuration .untitledSchema)

end FramedJson.LocalSchema
