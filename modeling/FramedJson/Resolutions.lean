import FramedJson.CacheRace

/-!
Calls on one cache, begun at any time and polled in any order. Calls are named by an index type, which
may be infinite: a call that is never polled was never made, and one that is not polled again was given
up. Beside the cache stands a record of the resolutions that were run.
-/
namespace FramedJson

namespace Progress

def began : Progress ResolveState Resolved → Bool
  | .pending (.fresh _) => false
  | .pending (.waiting _ _) => true
  | .finished resolved => resolved.ran

def completed : Progress ResolveState Resolved → Bool
  | .pending _ => false
  | .finished resolved => resolved.ran

end Progress

/-- `began` and `completed` list the calls that have begun their own resolutions and those that have
seen them to the end, each call where its turn came. -/
structure Resolutions (ι : Type) where
  cache : SubjectCache
  progress : ι → Progress ResolveState Resolved
  began : List ι
  completed : List ι

namespace Resolutions

variable {ι : Type}

def opened (calls : ι → ResolveCall) : Resolutions ι :=
  ⟨.empty, fun i => .pending (.fresh (calls i)), [], []⟩

/-- The list with `i` behind it, if something has come true of `i` just now. -/
def note (list : List ι) (i : ι) (before after : Bool) : List ι :=
  if before = false ∧ after = true then list ++ [i] else list

variable [DecidableEq ι]

def place (progress : ι → Progress ResolveState Resolved) (i : ι)
    (after : Progress ResolveState Resolved) : ι → Progress ResolveState Resolved :=
  fun j => if j = i then after else progress j

def poll (now : Resolutions ι) (i : ι) : Resolutions ι :=
  match now.progress i with
  | .finished _ => now
  | .pending state =>
    let (cache, after) := state.poll now.cache
    { cache := cache
      progress := place now.progress i after
      began := note now.began i (now.progress i).began after.began
      completed := note now.completed i (now.progress i).completed after.completed }

def run (now : Resolutions ι) (polls : List ι) : Resolutions ι := polls.foldl poll now

end Resolutions
end FramedJson
