import FramedJson.SubjectCache

namespace FramedJson.SubjectCache

variable {ε : Type} {cache : SubjectCache} {subject : String}

/-- All that `earlier` knows is known to `later`, and by the same id. -/
def Grows (earlier later : SubjectCache) : Prop :=
  ∀ subject id, earlier.get? subject = some id → later.get? subject = some id

theorem Grows.refl (cache : SubjectCache) : cache.Grows cache := fun _ _ known => known

theorem Grows.trans {a b c : SubjectCache} (first : a.Grows b) (second : b.Grows c) : a.Grows c :=
  fun subject id known => second subject id (first subject id known)

theorem settle_known {known : UInt32} (h : cache.get? subject = some known) (id : UInt32) :
    cache.settle subject (.ok id : Except ε UInt32) = (cache, .ok known) := by
  simp only [settle, h]

theorem settle_new (h : cache.get? subject = none) (id : UInt32) :
    cache.settle subject (.ok id : Except ε UInt32) =
      (⟨Assoc.put subject id cache.ids⟩, .ok id) := by
  simp only [settle, h]

theorem get?_put (cache : SubjectCache) (subject other : String) (id : UInt32) :
    get? ⟨Assoc.put subject id cache.ids⟩ other =
      if subject = other then some id else cache.get? other :=
  Assoc.find?_put subject other id cache.ids

theorem get?_settle (cache : SubjectCache) (subject other : String) (result : Except ε UInt32) :
    (cache.settle subject result).1.get? other =
      (cache.get? other).or (if subject = other then result.toOption else none) := by
  cases result with
  | error e => simp [settle, Except.toOption]
  | ok id =>
    cases entry : cache.get? subject with
    | some known =>
      rw [settle_known entry]
      by_cases same : subject = other
      · subst same
        simp [entry]
      · simp [same]
    | none =>
      rw [settle_new entry, get?_put]
      by_cases same : subject = other
      · subst same
        simp [entry, Except.toOption]
      · simp [same]

def NamesDiffer (cache : SubjectCache) : Prop := (cache.ids.map Prod.fst).Nodup

theorem settle_namesDiffer (differ : cache.NamesDiffer) (subject : String)
    (result : Except ε UInt32) : (cache.settle subject result).1.NamesDiffer := by
  cases result with
  | error e => exact differ
  | ok id =>
    cases entry : cache.get? subject with
    | some known =>
      rw [settle_known entry]
      exact differ
    | none =>
      rw [settle_new entry]
      exact Assoc.nodup_put subject id differ

theorem mem_names_iff {subject : String} :
    subject ∈ cache.ids.map Prod.fst ↔ ∃ id, cache.get? subject = some id := by
  constructor
  · intro member
    apply Option.ne_none_iff_exists'.mp
    intro missing
    exact Assoc.absent_of_find? missing member
  · rintro ⟨id, known⟩
    exact List.mem_map_of_mem (Assoc.mem_of_find? known)

theorem settle_ok {id : UInt32} {answer : Except ε UInt32} {after : SubjectCache}
    (h : cache.settle subject (.ok id : Except ε UInt32) = (after, answer)) :
    ∃ known, answer = .ok known ∧ after.get? subject = some known := by
  cases entry : cache.get? subject with
  | some known =>
    rw [settle_known entry] at h
    cases h
    exact ⟨known, rfl, entry⟩
  | none =>
    rw [settle_new entry] at h
    cases h
    refine ⟨id, rfl, ?_⟩
    rw [get?_put, if_pos rfl]

theorem settle_grows (cache : SubjectCache) (subject : String) (result : Except ε UInt32) :
    cache.Grows (cache.settle subject result).1 := by
  cases result with
  | error e => exact Grows.refl cache
  | ok id =>
    cases entry : cache.get? subject with
    | some known =>
      rw [settle_known entry]
      exact Grows.refl cache
    | none =>
      rw [settle_new entry]
      intro other known h
      rw [get?_put]
      split
      · rename_i same
        rw [← same, entry] at h
        cases h
      · exact h

end FramedJson.SubjectCache
