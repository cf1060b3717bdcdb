import FramedJson.LocalSchema

namespace FramedJson

structure Decoder (β : Type) where
  validator : JsonSchema.Validator
  ofDocument : Json → Option Context → Except CodecError β

namespace Decoder

variable {β : Type}

def build (definition : String) (ofDocument : Json → Option Context → Except CodecError β) :
    Except CodecError (Decoder β) := do
  let document ← LocalSchema.read definition
  let validator ← LocalSchema.compile document
  return ⟨validator, ofDocument⟩

def openFrame (data : List UInt8) : Except CodecError Envelope :=
  match Envelope.decode data with
  | .ok envelope => .ok envelope
  | .error e => .error (.framing e)

def readPayload (payload : List UInt8) : Except CodecError Json :=
  match Json.ofBytes payload with
  | .ok document => .ok document
  | .error e => .error (.serialization (.malformed e))

def judge (decoder : Decoder β) (document : Json) (writerId : UInt32) : Except CodecError Unit :=
  match decoder.validator.validate document with
  | .ok _ => .ok ()
  | .error violations => .error (.invalid violations (.incoming writerId))

def decode (decoder : Decoder β) (data : Option (List UInt8)) (context : Option Context) :
    Except CodecError (Option β) :=
  match data with
  | none => .ok none
  | some data => do
    let envelope ← openFrame data
    let document ← readPayload envelope.payload
    decoder.judge document envelope.schemaId
    return some (← decoder.ofDocument document context)

def label (_ : Decoder β) : String :=
  "JsonDeserializer \x7b validator: JsonSchemaValidator \x7b .. \x7d, .. \x7d"

end Decoder
end FramedJson
