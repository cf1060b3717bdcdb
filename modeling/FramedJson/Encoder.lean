import FramedJson.LocalSchema
import FramedJson.Registry.Memory
import FramedJson.SubjectCache

namespace FramedJson

structure Encoder (α : Type) where
  schema : Schema
  recordName : String
  validator : JsonSchema.Validator
  options : Options
  toDocument : α → Context → Except CodecError Json

namespace Encoder

variable {α : Type}

def build (definition : String) (options : Options) (references : List SchemaReference)
    (toDocument : α → Context → Except CodecError Json) : Except CodecError (Encoder α) := do
  match options.validate with
  | .ok _ => pure ()
  | .error e => throw (.configuration (.options e))
  let document ← LocalSchema.read definition
  let recordName ← LocalSchema.title document
  let validator ← LocalSchema.compile document
  return ⟨⟨definition, .json, references⟩, recordName, validator, options, toDocument⟩

def mode (encoder : Encoder α) : ResolutionMode := encoder.options.mode

def subject (encoder : Encoder α) (context : Context) : String :=
  encoder.options.naming.subject context encoder.recordName

def request (encoder : Encoder α) (subject : String) : Request :=
  encoder.mode.request subject encoder.schema

/-- What a call gives back: a frame, nothing for no object, or an error. -/
abbrev Outcome := Except CodecError (Option (List UInt8))

def payload (document : Json) : List UInt8 := Utf8.encode (document.render .spaced)

def frame (encoder : Encoder α) (object : α) (context : Context) (schemaId : UInt32) :
    Except CodecError (List UInt8) := do
  let document ← encoder.toDocument object context
  match encoder.validator.validate document with
  | .ok _ => return Envelope.encode ⟨schemaId, payload document⟩
  | .error violations =>
    throw (.invalid violations (.outgoing (encoder.subject context) schemaId))

inductive Opening
  | done (outcome : Outcome)
  | asks (request : Request)

def begin (encoder : Encoder α) (cache : SubjectCache) (object : Option α) (context : Context) :
    Opening :=
  match object with
  | none => .done (.ok none)
  | some object =>
    let subject := encoder.subject context
    match cache.get? subject with
    | some id => .done ((encoder.frame object context id).map some)
    | none => .asks (encoder.request subject)

def resume (encoder : Encoder α) (cache : SubjectCache) (object : Option α) (context : Context)
    (answer : Except RegistryError Reply) : SubjectCache × Outcome :=
  match object with
  | none => (cache, .ok none)
  | some object =>
    let subject := encoder.subject context
    match cache.settle subject (answer.map (·.schemaId)) with
    | (cache, .error e) => (cache, .error (.registry subject e))
    | (cache, .ok id) => (cache, (encoder.frame object context id).map some)

/-- A call that is waited for alone, over any registry that answers as `ask` says. -/
def encodeVia {σ : Type} (ask : σ → Request → σ × Except RegistryError Reply)
    (encoder : Encoder α) (state : σ) (cache : SubjectCache) (object : Option α)
    (context : Context) : σ × SubjectCache × Outcome :=
  match encoder.begin cache object context with
  | .done outcome => (state, cache, outcome)
  | .asks request =>
    let (state, answer) := ask state request
    (state, encoder.resume cache object context answer)

def encode (encoder : Encoder α) (link : Link) (cache : SubjectCache) (object : Option α)
    (context : Context) : Link × SubjectCache × Outcome :=
  encoder.encodeVia Link.call link cache object context

def braced (name : String) (fields : List String) : String :=
  name ++ " \x7b " ++ String.intercalate ", " fields ++ " \x7d"

def optionsLabel (options : Options) : String :=
  braced "SerializerConfig"
    [s!"auto_register_schemas: {options.autoRegister}", s!"normalize_schemas: {options.normalize}",
     s!"use_latest_version: {options.useLatest}",
     s!"subject_name_strategy: {options.naming.label}"]

def cacheLabel (cache : SubjectCache) : String :=
  let entries := cache.ids.map fun entry => s!"{Quoted.encode entry.1}: {entry.2}"
  braced "SubjectCache" ["ids: \x7b" ++ String.intercalate ", " entries ++ "\x7d"]

def label (encoder : Encoder α) (cache : SubjectCache) : String :=
  braced "JsonSerializer"
    [s!"schema_name: {Quoted.encode encoder.recordName}",
     s!"config: {optionsLabel encoder.options}", s!"known_subjects: {cacheLabel cache}", ".."]

end Encoder
end FramedJson
