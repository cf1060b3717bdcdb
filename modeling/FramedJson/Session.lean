import FramedJson.Encoder

/-!
The calls made on one encoder, under way together. A call moves when it is polled for the first
time and when the registry has answered it; between the two any other call may move. Calls are named
by an index type, which may be infinite: a call that is never polled was never made.
-/
namespace FramedJson

structure Call (α : Type) where
  object : Option α
  context : Context

inductive Stage
  | fresh
  | asking (request : Request)
  | ended (outcome : Encoder.Outcome)

/-- `asked` lists the calls to the registry in the order in which they went out. -/
structure Session (ι : Type) where
  cache : SubjectCache
  stage : ι → Stage
  asked : List (ι × Request)

/-- One step of one call. The registry may answer as it likes, whatever it was asked. -/
inductive Session.Event (ι : Type)
  | poll (i : ι)
  | answer (i : ι) (reply : Except RegistryError Reply)

namespace Session

variable {α ι : Type}

def opened (cache : SubjectCache) : Session ι := ⟨cache, fun _ => .fresh, []⟩

variable [DecidableEq ι]

def place (session : Session ι) (i : ι) (stage : Stage) : Session ι :=
  { session with stage := fun j => if j = i then stage else session.stage j }

def poll (encoder : Encoder α) (calls : ι → Call α) (session : Session ι) (i : ι) : Session ι :=
  match session.stage i with
  | .fresh =>
    match encoder.begin session.cache (calls i).object (calls i).context with
    | .done outcome => session.place i (.ended outcome)
    | .asks request =>
      { session.place i (.asking request) with asked := session.asked ++ [(i, request)] }
  | .asking _ => session
  | .ended _ => session

def answer (encoder : Encoder α) (calls : ι → Call α) (session : Session ι) (i : ι)
    (reply : Except RegistryError Reply) : Session ι :=
  match session.stage i with
  | .fresh => session
  | .asking _ =>
    let (cache, outcome) := encoder.resume session.cache (calls i).object (calls i).context reply
    { session.place i (.ended outcome) with cache := cache }
  | .ended _ => session

def step (encoder : Encoder α) (calls : ι → Call α) (session : Session ι) :
    Event ι → Session ι
  | .poll i => session.poll encoder calls i
  | .answer i reply => session.answer encoder calls i reply

def run (encoder : Encoder α) (calls : ι → Call α) (session : Session ι)
    (events : List (Event ι)) : Session ι :=
  events.foldl (step encoder calls) session

end Session
end FramedJson
