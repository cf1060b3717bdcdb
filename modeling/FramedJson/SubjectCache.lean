import FramedJson.Assoc

/-!
The schema ids that a subject is known by. Entries are only added: of several resolutions of one
subject the first to succeed is stored, and all that succeed answer with what is stored.
-/
namespace FramedJson

structure SubjectCache where
  ids : List (String × UInt32)
  deriving DecidableEq

namespace SubjectCache

def empty : SubjectCache := ⟨[]⟩

def get? (cache : SubjectCache) (subject : String) : Option UInt32 :=
  Assoc.find? subject cache.ids

def size (cache : SubjectCache) : Nat := cache.ids.length

def settle {ε : Type} (cache : SubjectCache) (subject : String) :
    Except ε UInt32 → SubjectCache × Except ε UInt32
  | .error e => (cache, .error e)
  | .ok id =>
    match cache.get? subject with
    | some known => (cache, .ok known)
    | none => (⟨Assoc.put subject id cache.ids⟩, .ok id)

end SubjectCache
end FramedJson
