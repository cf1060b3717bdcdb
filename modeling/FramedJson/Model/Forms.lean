import FramedJson.Model.Reader
import FramedJson.Schema
import FramedJson.Subject

namespace FramedJson

open Model

namespace Json

def int32 (n : Int32) : Json :=
  .num (.int n.toInt (by have := n.le_toInt; have := n.toInt_lt; omega))

end Json

namespace MessageField

def reader : Reader MessageField := choice [("key", .key), ("value", .value)]

def toJson (field : MessageField) : Json := .str field.name

end MessageField

namespace SchemaType

def reader : Reader SchemaType :=
  choice [("AVRO", .avro), ("JSON", .json), ("PROTOBUF", .protobuf)]

def toJson (type : SchemaType) : Json := .str type.name

end SchemaType

namespace SchemaReference

structure Draft where
  name : Option String
  subject : Option String
  version : Option Int

def fields : List (Model.Field Draft) :=
  [{ name := "name", optional := false, filled := fun d => d.name.isSome
     read := fun d bytes => do
       let (value, rest) ← string bytes
       return ({ d with name := some value }, rest) },
   { name := "subject", optional := false, filled := fun d => d.subject.isSome
     read := fun d bytes => do
       let (value, rest) ← string bytes
       return ({ d with subject := some value }, rest) },
   { name := "version", optional := false, filled := fun d => d.version.isSome
     read := fun d bytes => do
       let (value, rest) ← integer "i32" (-2 ^ 31) (2 ^ 31 - 1) bytes
       return ({ d with version := some value }, rest) }]

def Draft.finish (d : Draft) : Except Mismatch SchemaReference := do
  let name ← need "name" d.name
  let subject ← need "subject" d.subject
  let version ← need "version" d.version
  return ⟨name, subject, .ofInt version⟩

def reader : Reader SchemaReference :=
  record "SchemaReference" fields ⟨none, none, none⟩ Draft.finish

def toJson (reference : SchemaReference) : Json :=
  .obj [("name", .str reference.name), ("subject", .str reference.subject),
    ("version", .int32 reference.version)]

end SchemaReference

namespace Schema

structure Draft where
  definition : Option String
  type : Option SchemaType
  references : Option (List SchemaReference)

def fields : List (Model.Field Draft) :=
  [{ name := "definition", optional := false, filled := fun d => d.definition.isSome
     read := fun d bytes => do
       let (value, rest) ← string bytes
       return ({ d with definition := some value }, rest) },
   { name := "schema_type", optional := false, filled := fun d => d.type.isSome
     read := fun d bytes => do
       let (value, rest) ← SchemaType.reader bytes
       return ({ d with type := some value }, rest) },
   { name := "references", optional := true, filled := fun d => d.references.isSome
     read := fun d bytes => do
       let (value, rest) ← list SchemaReference.reader bytes
       return ({ d with references := some value }, rest) }]

def Draft.finish (d : Draft) : Except Mismatch Schema := do
  let definition ← need "definition" d.definition
  let type ← need "schema_type" d.type
  return ⟨definition, type, d.references.getD []⟩

def reader : Reader Schema := record "Schema" fields ⟨none, none, none⟩ Draft.finish

def toJson (schema : Schema) : Json :=
  .obj [("definition", .str schema.definition), ("schema_type", schema.type.toJson),
    ("references", .arr (schema.references.map SchemaReference.toJson))]

end Schema

namespace RegisteredSchema

structure Draft where
  schemaId : Option Int
  subject : Option String
  version : Option Int

def fields : List (Model.Field Draft) :=
  [{ name := "schema_id", optional := false, filled := fun d => d.schemaId.isSome
     read := fun d bytes => do
       let (value, rest) ← integer "u32" 0 (2 ^ 32 - 1) bytes
       return ({ d with schemaId := some value }, rest) },
   { name := "subject", optional := false, filled := fun d => d.subject.isSome
     read := fun d bytes => do
       let (value, rest) ← string bytes
       return ({ d with subject := some value }, rest) },
   { name := "version", optional := false, filled := fun d => d.version.isSome
     read := fun d bytes => do
       let (value, rest) ← integer "u32" 0 (2 ^ 32 - 1) bytes
       return ({ d with version := some value }, rest) }]

def Draft.finish (d : Draft) : Except Mismatch RegisteredSchema := do
  let schemaId ← need "schema_id" d.schemaId
  let subject ← need "subject" d.subject
  let version ← need "version" d.version
  return ⟨.ofNat schemaId.toNat, subject, .ofNat version.toNat⟩

def reader : Reader RegisteredSchema :=
  record "RegisteredSchema" fields ⟨none, none, none⟩ Draft.finish

def toJson (registered : RegisteredSchema) : Json :=
  .obj [("schema_id", .uint32 registered.schemaId), ("subject", .str registered.subject),
    ("version", .uint32 registered.version)]

end RegisteredSchema

namespace Context

structure Draft where
  stream : Option String
  field : Option MessageField

def fields : List (Model.Field Draft) :=
  [{ name := "stream_name", optional := false, filled := fun d => d.stream.isSome
     read := fun d bytes => do
       let (stream, rest) ← string bytes
       return ({ d with stream := some stream }, rest) },
   { name := "field", optional := false, filled := fun d => d.field.isSome
     read := fun d bytes => do
       let (field, rest) ← MessageField.reader bytes
       return ({ d with field := some field }, rest) }]

def Draft.finish (d : Draft) : Except Mismatch Context := do
  let stream ← need "stream_name" d.stream
  let field ← need "field" d.field
  return ⟨stream, field⟩

def reader : Reader Context := record "SerializationContext" fields ⟨none, none⟩ Draft.finish

def toJson (context : Context) : Json :=
  .obj [("stream_name", .str context.stream), ("field", context.field.toJson)]

end Context
end FramedJson
