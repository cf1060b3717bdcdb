import FramedJson.Registry.Memory

/-!
The registry in memory as a test build runs it, with the addition that numbers a new version checked. Where
the number would leave 32 bits the call ends there and nobody gets an answer; `serve` goes on from zero.
-/
namespace FramedJson

namespace Catalog

def nextVersion? (versions : List SubjectVersion) : Option UInt32 :=
  match versions.getLast? with
  | some last => if last.version = 0xffffffff then none else some (last.version + 1)
  | none => some 1

def registerChecked (catalog : Catalog) (subject : String) (schema : Schema) (normalize : Bool) :
    Catalog × Option UInt32 :=
  let stored := if normalize then schema.normalized else schema
  let fingerprint := stored.fingerprint
  let versions := catalog.versionsOf subject
  match versions.find? (fun entry => entry.fingerprint = fingerprint) with
  | some entry => (catalog, some entry.schemaId)
  | none =>
    let (claimed, id) := catalog.claimId fingerprint
    match nextVersion? versions with
    -- The content has its id by then and keeps it.
    | none => (claimed, none)
    | some version =>
      let entry := ⟨version, id, stored, fingerprint⟩
      ({ claimed with subjects := Assoc.put subject (versions ++ [entry]) claimed.subjects }, some id)

/-- Without a reply the call has not returned. -/
def answerChecked (catalog : Catalog) : Request → Catalog × Option (Except RegistryError Reply)
  | .register subject schema normalize =>
    let (after, id) := catalog.registerChecked subject schema normalize
    (after, id.map fun id => .ok (.id id))
  | .lookup subject schema normalize =>
    (catalog, some ((catalog.lookup subject schema normalize).map .version))
  | .latest subject => (catalog, some ((catalog.latest subject).map .version))

end Catalog

namespace MemoryRegistry

def serveChecked (registry : MemoryRegistry) (request : Request) :
    MemoryRegistry × Option (Except RegistryError Reply) :=
  let (catalog, reply) := registry.catalog.answerChecked request
  (⟨catalog, registry.traffic.count request⟩, reply)

def serveAllChecked (registry : MemoryRegistry) (requests : List Request) : MemoryRegistry :=
  requests.foldl (fun registry request => (registry.serveChecked request).1) registry

end MemoryRegistry
end FramedJson
