import FramedJson.Resolution

/-!
A registry in memory: a catalog and the number of calls it has served. A `Link` leads to it and
holds back, refuses or alters calls as planned, one plan for each call in the order in which calls
first reach it.
-/
namespace FramedJson

structure Traffic where
  register : Nat
  lookup : Nat
  latest : Nat
  deriving DecidableEq

namespace Traffic

def none : Traffic := ⟨0, 0, 0⟩

def total (traffic : Traffic) : Nat := traffic.register + traffic.lookup + traffic.latest

def count (traffic : Traffic) : Request → Traffic
  | .register _ _ _ => { traffic with register := traffic.register + 1 }
  | .lookup _ _ _ => { traffic with lookup := traffic.lookup + 1 }
  | .latest _ => { traffic with latest := traffic.latest + 1 }

end Traffic

structure MemoryRegistry where
  catalog : Catalog
  traffic : Traffic
  deriving DecidableEq

namespace MemoryRegistry

def startingAt (firstId : UInt32) : MemoryRegistry := ⟨.startingAt firstId, .none⟩

def empty : MemoryRegistry := startingAt 1

def serve (registry : MemoryRegistry) (request : Request) :
    MemoryRegistry × Except RegistryError Reply :=
  let (catalog, reply) := registry.catalog.answer request
  (⟨catalog, registry.traffic.count request⟩, reply)

end MemoryRegistry

structure Plan where
  /-- How often the call is found waiting before it goes through. -/
  delay : Nat
  /-- The call ends so and does not reach the registry. -/
  failure : Option RegistryError
  /-- The id given back in place of the registry's. -/
  id : Option UInt32

def Plan.direct : Plan := ⟨0, none, none⟩

structure Link where
  registry : MemoryRegistry
  plans : List Plan

namespace Link

def takePlan (link : Link) : Plan × Link :=
  match link.plans with
  | [] => (.direct, link)
  | plan :: rest => (plan, { link with plans := rest })

def complete (link : Link) (plan : Plan) (request : Request) :
    Link × Except RegistryError Reply :=
  match plan.failure with
  | some e => (link, .error e)
  | none =>
    let (registry, reply) := link.registry.serve request
    let altered := match plan.id with
      | some id => reply.map (·.withId id)
      | none => reply
    ({ link with registry := registry }, altered)

def call (link : Link) (request : Request) : Link × Except RegistryError Reply :=
  let (plan, link) := link.takePlan
  link.complete plan request

def patience (link : Link) : Nat := (link.plans.map (·.delay)).foldl max 0 + 1

end Link
end FramedJson
