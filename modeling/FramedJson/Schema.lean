import FramedJson.Json.Canonical
import FramedJson.Text.Utf8

namespace FramedJson

inductive SchemaType
  | avro
  | json
  | protobuf
  deriving DecidableEq

def SchemaType.name : SchemaType → String
  | .avro => "AVRO"
  | .json => "JSON"
  | .protobuf => "PROTOBUF"

structure SchemaReference where
  name : String
  subject : String
  version : Int32
  deriving DecidableEq

structure Schema where
  definition : String
  type : SchemaType
  references : List SchemaReference
  deriving DecidableEq

structure RegisteredSchema where
  schemaId : UInt32
  subject : String
  version : UInt32
  deriving DecidableEq

def SchemaReference.content (reference : SchemaReference) : String :=
  s!"|{reference.name}:{reference.subject}:{reference.version.toInt}"

namespace Schema

def normalized (schema : Schema) : Schema :=
  { schema with definition := canonicalize schema.definition }

/-- Type, definition and references one after the other. Nothing marks where one part ends. -/
def content (schema : Schema) : List UInt8 :=
  Utf8.encodeString schema.type.name ++ Utf8.encodeString schema.definition ++
    schema.references.flatMap fun reference => Utf8.encodeString reference.content

end Schema
end FramedJson
