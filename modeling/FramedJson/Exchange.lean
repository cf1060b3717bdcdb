import FramedJson.Session

/-!
Calls on one encoder over a registry in memory that nobody else writes to. A request reaches the
registry some time after it was sent and its reply comes back some time after that, with any steps of
other calls in between.
-/
namespace FramedJson

/-- `replies` holds what the registry has answered each call. -/
structure Exchange (ι : Type) where
  session : Session ι
  registry : MemoryRegistry
  replies : ι → Option (Except RegistryError Reply)

/-- A call is polled for the first time, or its request is served, or its reply arrives. To be polled
before the reply has arrived changes nothing. -/
inductive Exchange.Event (ι : Type)
  | poll (i : ι)
  | serve (i : ι)
  | deliver (i : ι)

namespace Exchange

variable {α ι : Type}

def Event.call : Event ι → ι
  | .poll i => i
  | .serve i => i
  | .deliver i => i

def opened (registry : MemoryRegistry) (cache : SubjectCache) : Exchange ι :=
  ⟨.opened cache, registry, fun _ => none⟩

variable [DecidableEq ι]

def answered (exchange : Exchange ι) (i : ι) (registry : MemoryRegistry)
    (reply : Except RegistryError Reply) : Exchange ι :=
  { exchange with
    registry := registry
    replies := fun j => if j = i then some reply else exchange.replies j }

def serve (exchange : Exchange ι) (i : ι) : Exchange ι :=
  match exchange.session.stage i, exchange.replies i with
  | .asking request, none =>
    let (registry, reply) := exchange.registry.serve request
    exchange.answered i registry reply
  | _, _ => exchange

def deliver (encoder : Encoder α) (calls : ι → Call α) (exchange : Exchange ι) (i : ι) :
    Exchange ι :=
  match exchange.replies i with
  | some reply => { exchange with session := exchange.session.answer encoder calls i reply }
  | none => exchange

def step (encoder : Encoder α) (calls : ι → Call α) (exchange : Exchange ι) :
    Event ι → Exchange ι
  | .poll i => { exchange with session := exchange.session.poll encoder calls i }
  | .serve i => exchange.serve i
  | .deliver i => exchange.deliver encoder calls i

def run (encoder : Encoder α) (calls : ι → Call α) (exchange : Exchange ι)
    (events : List (Event ι)) : Exchange ι :=
  events.foldl (step encoder calls) exchange

end Exchange

def Encoder.encodeAll {α : Type} (encoder : Encoder α) (registry : MemoryRegistry)
    (cache : SubjectCache) : List (Call α) → MemoryRegistry × SubjectCache × List Encoder.Outcome
  | [] => (registry, cache, [])
  | call :: rest =>
    let (registry, cache, outcome) :=
      encoder.encodeVia MemoryRegistry.serve registry cache call.object call.context
    let (registry, cache, outcomes) := encoder.encodeAll registry cache rest
    (registry, cache, outcome :: outcomes)

end FramedJson
