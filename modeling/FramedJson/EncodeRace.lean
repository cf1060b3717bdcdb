import FramedJson.Encoder
import FramedJson.Race

namespace FramedJson

structure Desk where
  link : Link
  caches : List (String × SubjectCache)

namespace Desk

def cacheOf (desk : Desk) (owner : String) : SubjectCache :=
  (Assoc.find? owner desk.caches).getD .empty

def setCache (desk : Desk) (owner : String) (cache : SubjectCache) : Desk :=
  { desk with caches := Assoc.put owner cache desk.caches }

end Desk

structure EncodeCall (α : Type) where
  owner : String
  encoder : Encoder α
  object : Option α
  context : Context

inductive EncodeState (α : Type)
  | fresh (call : EncodeCall α)
  | waiting (call : EncodeCall α) (request : Request) (plan : Plan) (delays : Nat)

namespace EncodeState

variable {α : Type}

def await (desk : Desk) (call : EncodeCall α) (request : Request) (plan : Plan) :
    Nat → Desk × Progress (EncodeState α) Encoder.Outcome
  | 0 =>
    let (link, answer) := desk.link.complete plan request
    let (cache, outcome) :=
      call.encoder.resume (desk.cacheOf call.owner) call.object call.context answer
    (Desk.setCache { desk with link := link } call.owner cache, .finished outcome)
  | delays + 1 => (desk, .pending (.waiting call request plan delays))

def poll (desk : Desk) : EncodeState α → Desk × Progress (EncodeState α) Encoder.Outcome
  | .fresh call =>
    match call.encoder.begin (desk.cacheOf call.owner) call.object call.context with
    | .done outcome => (desk, .finished outcome)
    | .asks request =>
      let (plan, link) := desk.link.takePlan
      await { desk with link := link } call request plan plan.delay
  | .waiting call request plan delays => await desk call request plan delays

end EncodeState

def Desk.race {α : Type} (desk : Desk) (calls : List (EncodeCall α)) :
    Desk × List Encoder.Outcome :=
  Race.run EncodeState.poll desk (calls.map .fresh) desk.link.patience

end FramedJson
