import FramedJson.Exchange

/-!
An encoder whose registry serves other clients as well, and whose calls may be lost on the way to it.
Beside it the same encoder without a memory, which asks for the id of every object it encodes.
-/
namespace FramedJson

inductive Shared.Event (ι : Type)
  | own (event : Exchange.Event ι)
  /-- The request of a call ends so and does not reach the registry. -/
  | fail (i : ι) (e : RegistryError)
  | other (request : Request)

namespace Exchange

variable {α ι : Type}

def forget (exchange : Exchange ι) : Exchange ι :=
  { exchange with session := { exchange.session with cache := .empty } }

variable [DecidableEq ι]

def fail (exchange : Exchange ι) (i : ι) (e : RegistryError) : Exchange ι :=
  match exchange.session.stage i, exchange.replies i with
  | .asking _, none => exchange.answered i exchange.registry (.error e)
  | _, _ => exchange

def stepShared (encoder : Encoder α) (calls : ι → Call α) (exchange : Exchange ι) :
    Shared.Event ι → Exchange ι
  | .own event => exchange.step encoder calls event
  | .fail i e => exchange.fail i e
  | .other request => { exchange with registry := (exchange.registry.serve request).1 }

def runShared (encoder : Encoder α) (calls : ι → Call α) (exchange : Exchange ι)
    (events : List (Shared.Event ι)) : Exchange ι :=
  events.foldl (stepShared encoder calls) exchange

/-- The run of an encoder that knows no subject when a call is polled. -/
def runForgetful (encoder : Encoder α) (calls : ι → Call α) (exchange : Exchange ι)
    (events : List (Shared.Event ι)) : Exchange ι :=
  events.foldl (fun exchange event => (exchange.stepShared encoder calls event).forget) exchange

end Exchange
end FramedJson
