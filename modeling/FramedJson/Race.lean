/-!
Calls that are under way together. Each is polled in list order, round after round, until all
have ended; a call that has ended is not polled again.
-/
namespace FramedJson

inductive Progress (τ : Type u) (ρ : Type v)
  | pending (call : τ)
  | finished (result : ρ)

namespace Race

variable {σ : Type u} {τ : Type v} {ρ : Type w} (poll : σ → τ → σ × Progress τ ρ)

def round (state : σ) : List (Progress τ ρ) → σ × List (Progress τ ρ)
  | [] => (state, [])
  | .finished result :: rest =>
    let (state, rest) := round state rest
    (state, .finished result :: rest)
  | .pending call :: rest =>
    let (state, progress) := poll state call
    let (state, rest) := round state rest
    (state, progress :: rest)

def rounds (state : σ) (calls : List (Progress τ ρ)) : Nat → σ × List (Progress τ ρ)
  | 0 => (state, calls)
  | n + 1 =>
    let (state, calls) := round poll state calls
    rounds state calls n

def results (calls : List (Progress τ ρ)) : List ρ :=
  calls.filterMap fun
    | .pending _ => none
    | .finished result => some result

/-- All calls from their first poll, in a number of rounds that lets each of them end. -/
def run (state : σ) (calls : List τ) (enough : Nat) : σ × List ρ :=
  let (state, calls) := rounds poll state (calls.map .pending) enough
  (state, results calls)

end Race
end FramedJson
