import FramedJson.Assoc
import FramedJson.Schema
import FramedJson.Sha256
import FramedJson.Registry.Error

/-!
The contents of a registry: for each subject its versions, oldest first, and one id for each
content under whatever subject it came. Ids are given out in order and wrap at 2 ^ 32.
-/
namespace FramedJson

abbrev Fingerprint := List UInt8

def Schema.fingerprint (schema : Schema) : Fingerprint := Sha256.digest schema.content

structure SubjectVersion where
  version : UInt32
  schemaId : UInt32
  schema : Schema
  fingerprint : Fingerprint
  deriving DecidableEq

def SubjectVersion.registered (entry : SubjectVersion) (subject : String) : RegisteredSchema :=
  ⟨entry.schemaId, subject, entry.version⟩

structure Catalog where
  subjects : List (String × List SubjectVersion)
  ids : List (Fingerprint × UInt32)
  nextId : UInt32
  deriving DecidableEq

namespace Catalog

def startingAt (firstId : UInt32) : Catalog := ⟨[], [], firstId⟩

def versionsOf (catalog : Catalog) (subject : String) : List SubjectVersion :=
  (Assoc.find? subject catalog.subjects).getD []

def versions (catalog : Catalog) (subject : String) : List UInt32 :=
  (catalog.versionsOf subject).map (·.version)

def claimId (catalog : Catalog) (fingerprint : Fingerprint) : Catalog × UInt32 :=
  match Assoc.find? fingerprint catalog.ids with
  | some id => (catalog, id)
  | none =>
    ({ catalog with
        ids := Assoc.put fingerprint catalog.nextId catalog.ids
        nextId := catalog.nextId + 1 }, catalog.nextId)

def nextVersion (versions : List SubjectVersion) : UInt32 :=
  match versions.getLast? with
  | some last => last.version + 1
  | none => 1

def register (catalog : Catalog) (subject : String) (schema : Schema) (normalize : Bool) :
    Catalog × UInt32 :=
  let stored := if normalize then schema.normalized else schema
  let fingerprint := stored.fingerprint
  let versions := catalog.versionsOf subject
  match versions.find? (fun entry => entry.fingerprint = fingerprint) with
  | some entry => (catalog, entry.schemaId)
  | none =>
    let (claimed, id) := catalog.claimId fingerprint
    let entry := ⟨nextVersion versions, id, stored, fingerprint⟩
    ({ claimed with subjects := Assoc.put subject (versions ++ [entry]) claimed.subjects }, id)

/-- Whether a stored version counts as the schema looked for. Normalising, both are compared in
canonical form, whichever form was stored. -/
def matching (schema : Schema) (normalize : Bool) (entry : SubjectVersion) : Bool :=
  if normalize then entry.schema.normalized.fingerprint = schema.normalized.fingerprint
  else entry.fingerprint = schema.fingerprint

def lookup (catalog : Catalog) (subject : String) (schema : Schema) (normalize : Bool) :
    Except RegistryError RegisteredSchema :=
  match Assoc.find? subject catalog.subjects with
  | none => .error (.subjectNotFound subject)
  | some versions =>
    match versions.find? (matching schema normalize) with
    | some entry => .ok (entry.registered subject)
    | none => .error (.schemaNotFound subject)

def latest (catalog : Catalog) (subject : String) : Except RegistryError RegisteredSchema :=
  match (catalog.versionsOf subject).getLast? with
  | some entry => .ok (entry.registered subject)
  | none => .error (.subjectNotFound subject)

end Catalog
end FramedJson
