import FramedJson.Session

/-!
The calls made on one encoder, each waited for before the next, over a registry that may answer as it
likes. Beside the cache stands a record of the requests that went out, with what came back for each, and
of what the calls gave.
-/
namespace FramedJson

structure Inquiry where
  request : Request
  answer : Except RegistryError Reply

def logging {σ : Type} (ask : σ → Request → σ × Except RegistryError Reply) (seen : σ × List Inquiry)
    (request : Request) : (σ × List Inquiry) × Except RegistryError Reply :=
  let (state, answer) := ask seen.1 request
  ((state, seen.2 ++ [⟨request, answer⟩]), answer)

structure Ledger (σ : Type) where
  state : σ
  cache : SubjectCache
  inquiries : List Inquiry
  outcomes : List Encoder.Outcome

namespace Ledger

variable {α σ : Type}

def opened (state : σ) : Ledger σ := ⟨state, .empty, [], []⟩

def step (encoder : Encoder α) (ask : σ → Request → σ × Except RegistryError Reply)
    (ledger : Ledger σ) (call : Call α) : Ledger σ :=
  let ((state, inquiries), cache, outcome) :=
    encoder.encodeVia (logging ask) (ledger.state, ledger.inquiries) ledger.cache call.object
      call.context
  ⟨state, cache, inquiries, ledger.outcomes ++ [outcome]⟩

def run (encoder : Encoder α) (ask : σ → Request → σ × Except RegistryError Reply)
    (ledger : Ledger σ) (calls : List (Call α)) : Ledger σ :=
  calls.foldl (step encoder ask) ledger

def about (ledger : Ledger σ) (subject : String) : List Inquiry :=
  ledger.inquiries.filter fun inquiry => inquiry.request.subject = subject

/-- The registry error that a call gave back, with the subject that it was about. -/
def refusal? : Encoder.Outcome → Option (String × RegistryError)
  | .error (.registry subject e) => some (subject, e)
  | _ => none

def refusals (ledger : Ledger σ) : List (String × RegistryError) :=
  ledger.outcomes.filterMap refusal?

/-- The requests about one subject that the given refusals answer. -/
def refused (ledger : Ledger σ) (encoder : Encoder α) (subject : String) : List Inquiry :=
  (ledger.refusals.filter fun refusal => refusal.1 = subject).map fun refusal =>
    ⟨encoder.request subject, .error refusal.2⟩

end Ledger
end FramedJson
