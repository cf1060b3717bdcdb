import FramedJson.Race

namespace FramedJson.Race

variable {σ τ ρ : Type} (poll : σ → τ → σ × Progress τ ρ)

def turn (state : σ) : Progress τ ρ → σ × Progress τ ρ
  | .finished result => (state, .finished result)
  | .pending call => poll state call

theorem round_cons (state : σ) (progress : Progress τ ρ) (rest : List (Progress τ ρ)) :
    round poll state (progress :: rest) =
      ((round poll (turn poll state progress).1 rest).1,
        (turn poll state progress).2 :: (round poll (turn poll state progress).1 rest).2) := by
  cases progress with
  | finished result => rfl
  | pending call => rfl

theorem rounds_succ (state : σ) (calls : List (Progress τ ρ)) (count : Nat) :
    rounds poll state calls (count + 1) =
      round poll (rounds poll state calls count).1 (rounds poll state calls count).2 := by
  induction count generalizing state calls with
  | zero => rfl
  | succ count ih => exact ih (round poll state calls).1 (round poll state calls).2

theorem round_ended (state : σ) (results : List ρ) :
    round poll state (results.map .finished) = (state, results.map .finished) := by
  induction results with
  | nil => rfl
  | cons result rest ih => rw [List.map_cons, round_cons, turn, ih]

theorem rounds_ended {state after : σ} {calls : List (Progress τ ρ)} {results : List ρ} {count : Nat}
    (ended : rounds poll state calls count = (after, results.map .finished)) (more : Nat) :
    rounds poll state calls (count + more) = (after, results.map .finished) := by
  induction more with
  | zero => exact ended
  | succ more ih => rw [← Nat.add_assoc, rounds_succ, ih, round_ended]

theorem results_finished {ι : Type} (order : List ι) (outcome : ι → ρ) :
    results (order.map fun i => (.finished (outcome i) : Progress τ ρ)) = order.map outcome := by
  induction order with
  | nil => rfl
  | cons i rest ih =>
    rw [List.map_cons, List.map_cons, ← ih]
    rfl

theorem le_foldl_max (delays : List Nat) (start : Nat) :
    start ≤ delays.foldl max start ∧ ∀ delay ∈ delays, delay ≤ delays.foldl max start := by
  induction delays generalizing start with
  | nil => exact ⟨Nat.le_refl start, fun _ none => nomatch none⟩
  | cons first rest ih =>
    obtain ⟨above, all⟩ := ih (max start first)
    rw [List.foldl_cons]
    refine ⟨by omega, ?_⟩
    intro delay member
    rcases List.mem_cons.mp member with rfl | member
    · omega
    · exact all delay member

end FramedJson.Race
