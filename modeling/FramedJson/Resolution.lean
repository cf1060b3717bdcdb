import FramedJson.Registry.Catalog

namespace FramedJson

inductive ResolutionMode
  | autoRegister (normalize : Bool)
  /-- Takes whatever schema is newest under the subject. -/
  | useLatest
  | lookupOnly (normalize : Bool)
  deriving DecidableEq

namespace ResolutionMode

def name : ResolutionMode → String
  | .autoRegister _ => "auto-register"
  | .useLatest => "use-latest"
  | .lookupOnly _ => "lookup-only"

def label : ResolutionMode → String
  | .autoRegister normalize => s!"AutoRegister \x7b normalize: {normalize} \x7d"
  | .useLatest => "UseLatest"
  | .lookupOnly normalize => s!"LookupOnly \x7b normalize: {normalize} \x7d"

end ResolutionMode

inductive Request
  | register (subject : String) (schema : Schema) (normalize : Bool)
  | lookup (subject : String) (schema : Schema) (normalize : Bool)
  | latest (subject : String)
  deriving DecidableEq

def Request.subject : Request → String
  | .register subject _ _ => subject
  | .lookup subject _ _ => subject
  | .latest subject => subject

def ResolutionMode.request (mode : ResolutionMode) (subject : String) (schema : Schema) : Request :=
  match mode with
  | .autoRegister normalize => .register subject schema normalize
  | .useLatest => .latest subject
  | .lookupOnly normalize => .lookup subject schema normalize

/-- What a registry gives back: the id, and for a stored version also its place. -/
inductive Reply
  | id (schemaId : UInt32)
  | version (found : RegisteredSchema)
  deriving DecidableEq

namespace Reply

def schemaId : Reply → UInt32
  | .id schemaId => schemaId
  | .version found => found.schemaId

def withId (other : UInt32) : Reply → Reply
  | .id _ => .id other
  | .version found => .version { found with schemaId := other }

end Reply

def Catalog.answer (catalog : Catalog) : Request → Catalog × Except RegistryError Reply
  | .register subject schema normalize =>
    let (after, id) := catalog.register subject schema normalize
    (after, .ok (.id id))
  | .lookup subject schema normalize =>
    (catalog, (catalog.lookup subject schema normalize).map .version)
  | .latest subject => (catalog, (catalog.latest subject).map .version)

end FramedJson
