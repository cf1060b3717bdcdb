import FramedJson.Race
import FramedJson.SubjectCache

namespace FramedJson

/-- A call for the id of a subject whose resolution, if one is needed, is found waiting `delay`
times and then ends with `outcome`. -/
structure ResolveCall where
  subject : String
  delay : Nat
  outcome : Except String UInt32

structure Resolved where
  answer : Except String UInt32
  ran : Bool

inductive ResolveState
  | fresh (call : ResolveCall)
  | waiting (call : ResolveCall) (delays : Nat)

namespace ResolveState

def await (cache : SubjectCache) (call : ResolveCall) :
    Nat → SubjectCache × Progress ResolveState Resolved
  | 0 =>
    let (cache, answer) := cache.settle call.subject call.outcome
    (cache, .finished ⟨answer, true⟩)
  | delays + 1 => (cache, .pending (.waiting call delays))

def poll (cache : SubjectCache) : ResolveState → SubjectCache × Progress ResolveState Resolved
  | .fresh call =>
    match cache.get? call.subject with
    | some id => (cache, .finished ⟨.ok id, false⟩)
    | none => await cache call call.delay
  | .waiting call delays => await cache call delays

end ResolveState

def SubjectCache.race (cache : SubjectCache) (calls : List ResolveCall) :
    SubjectCache × List Resolved :=
  Race.run ResolveState.poll cache (calls.map .fresh) ((calls.map (·.delay)).foldl max 0 + 1)

def SubjectCache.resolve (cache : SubjectCache) (call : ResolveCall) : SubjectCache × Resolved :=
  match cache.get? call.subject with
  | some id => (cache, ⟨.ok id, false⟩)
  | none =>
    let (cache, answer) := cache.settle call.subject call.outcome
    (cache, ⟨answer, true⟩)

end FramedJson
