import FramedJson.Exchange
import FramedJson.Proofs.Encoder
import FramedJson.Proofs.Registry.OneSchema

namespace FramedJson

theorem MemoryRegistry.serve_eq (registry : MemoryRegistry) (request : Request) :
    registry.serve request =
      (⟨(registry.catalog.answer request).1, registry.traffic.count request⟩,
        (registry.catalog.answer request).2) := rfl

namespace Encoder

variable {α : Type} (encoder : Encoder α) (registry : MemoryRegistry) (known : SubjectCache)

def answerTo (subject : String) : Except RegistryError Reply :=
  (registry.catalog.answer (encoder.request subject)).2

/-- How the call ends when it is the first of all. -/
def alone (call : Call α) : Outcome :=
  (encoder.encodeVia MemoryRegistry.serve registry known call.object call.context).2.2

structure Needs (call : Call α) : Prop where
  object : ∃ object, call.object = some object
  unknown : known.get? (encoder.subject call.context) = none

def Wanted (calls : List (Call α)) (subject : String) : Prop :=
  ∃ call ∈ calls, encoder.Needs known call ∧ encoder.subject call.context = subject

section Alone

variable {registry known} {call : Call α} {object : α}

theorem alone_none (absent : call.object = none) :
    encoder.alone registry known call = .ok none := by
  rw [alone, absent, encodeVia_none]

theorem alone_known {id : UInt32} (present : call.object = some object)
    (entry : known.get? (encoder.subject call.context) = some id) :
    encoder.alone registry known call = (encoder.frame object call.context id).map some := by
  rw [alone, present, encodeVia_known encoder entry]

theorem alone_unknown (present : call.object = some object)
    (unknown : known.get? (encoder.subject call.context) = none) :
    encoder.alone registry known call =
      (encoder.resume known (some object) call.context
        (encoder.answerTo registry (encoder.subject call.context))).2 := by
  rw [alone, present, encodeVia_unknown encoder unknown]
  rfl

theorem resume_agreed {cache : SubjectCache} (object : α) (context : Context) {reply : Reply}
    (agreed : ∀ id, cache.get? (encoder.subject context) = some id → reply.schemaId = id) :
    ∃ after, encoder.resume cache (some object) context (.ok reply) =
        (after, (encoder.frame object context reply.schemaId).map some) ∧
      ∀ subject, after.get? subject =
        if encoder.subject context = subject then some reply.schemaId else cache.get? subject := by
  cases entry : cache.get? (encoder.subject context) with
  | none =>
    refine ⟨⟨Assoc.put (encoder.subject context) reply.schemaId cache.ids⟩, ?_, ?_⟩
    · exact resume_unknown encoder entry object reply
    · exact fun subject => SubjectCache.get?_put cache _ subject _
  | some id =>
    have same := agreed id entry
    subst same
    refine ⟨cache, ?_, ?_⟩
    · exact resume_known encoder entry object reply
    · intro subject
      split
      · rename_i self
        rw [← self, entry]
      · rfl

theorem alone_answered {reply : Reply} (present : call.object = some object)
    (unknown : known.get? (encoder.subject call.context) = none)
    (answered : encoder.answerTo registry (encoder.subject call.context) = .ok reply) :
    encoder.alone registry known call =
      (encoder.frame object call.context reply.schemaId).map some := by
  rw [alone_unknown encoder present unknown, answered]
  have agreed : ∀ id, known.get? (encoder.subject call.context) = some id →
      reply.schemaId = id := fun id entry => nomatch unknown.symm.trans entry
  obtain ⟨after, resumed, _⟩ := encoder.resume_agreed object call.context agreed
  rw [resumed]

end Alone

/-- What the encoder and the registry hold after requests for the `served` subjects: the catalog has
been given nothing else, and the cache has learnt nothing but its answers. -/
structure Consistent (served : String → Prop) (catalog : Catalog) (cache : SubjectCache) : Prop where
  stock : Catalog.Served encoder.mode encoder.schema registry.catalog served catalog
  kept : known.Grows cache
  learnt : ∀ subject id, cache.get? subject = some id → known.get? subject = some id ∨
    known.get? subject = none ∧ served subject ∧
      ∃ reply, encoder.answerTo registry subject = .ok reply ∧ reply.schemaId = id

/-- A call that has ended: as it would have alone, and if it needed the registry, its subject has
been served and is known by the id answered. -/
structure Done (served : String → Prop) (cache : SubjectCache) (call : Call α)
    (outcome : Outcome) : Prop where
  outcome : outcome = encoder.alone registry known call
  served : encoder.Needs known call → served (encoder.subject call.context)
  learnt : encoder.Needs known call → ∀ reply,
    encoder.answerTo registry (encoder.subject call.context) = .ok reply →
    cache.get? (encoder.subject call.context) = some reply.schemaId

section Steps

variable {encoder registry known} {served : String → Prop} {catalog : Catalog}
  {cache : SubjectCache} {call : Call α}

theorem consistent_start :
    encoder.Consistent registry known (fun _ => False) registry.catalog known where
  stock := Catalog.served_start _ _ _
  kept := SubjectCache.Grows.refl known
  learnt := fun _ _ entry => .inl entry

theorem Consistent.serve (consistent : encoder.Consistent registry known served catalog cache)
    (subject : String) :
    (catalog.answer (encoder.request subject)).2 = encoder.answerTo registry subject ∧
      encoder.Consistent registry known (fun other => served other ∨ other = subject)
        (catalog.answer (encoder.request subject)).1 cache := by
  obtain ⟨same, stock⟩ := Catalog.served_step consistent.stock subject
  refine ⟨same, stock, consistent.kept, ?_⟩
  intro other id entry
  rcases consistent.learnt other id entry with first | ⟨unknown, was, reply⟩
  · exact .inl first
  · exact .inr ⟨unknown, .inl was, reply⟩

theorem Consistent.unknown (consistent : encoder.Consistent registry known served catalog cache)
    {subject : String} (absent : cache.get? subject = none) : known.get? subject = none := by
  cases entry : known.get? subject with
  | none => rfl
  | some id => cases absent.symm.trans (consistent.kept subject id entry)

theorem Consistent.begin (consistent : encoder.Consistent registry known served catalog cache)
    {outcome : Outcome}
    (opening : encoder.begin cache call.object call.context = .done outcome) :
    encoder.Done registry known served cache call outcome := by
  cases present : call.object with
  | none =>
    rw [present, begin_none] at opening
    cases opening
    refine ⟨(alone_none encoder present).symm, ?_, ?_⟩
    all_goals
      rintro ⟨⟨object, some⟩, _⟩
      cases present.symm.trans some
  | some object =>
    rw [present] at opening
    cases entry : cache.get? (encoder.subject call.context) with
    | none =>
      rw [begin_unknown encoder entry] at opening
      cases opening
    | some id =>
      rw [begin_known encoder entry] at opening
      cases opening
      rcases consistent.learnt _ id entry with first | ⟨unknown, was, reply, answered, same⟩
      · refine ⟨(alone_known encoder present first).symm, ?_, ?_⟩
        all_goals
          rintro ⟨_, unknown⟩
          cases first.symm.trans unknown
      · subst same
        refine ⟨(alone_answered encoder present unknown answered).symm, fun _ => was, ?_⟩
        intro _ other answered'
        cases answered.symm.trans answered'
        exact entry

theorem Consistent.resume (consistent : encoder.Consistent registry known served catalog cache)
    (needs : encoder.Needs known call) (was : served (encoder.subject call.context))
    {after : SubjectCache} {outcome : Outcome}
    (resumed : encoder.resume cache call.object call.context
      (encoder.answerTo registry (encoder.subject call.context)) = (after, outcome)) :
    encoder.Consistent registry known served catalog after ∧
      encoder.Done registry known served after call outcome := by
  obtain ⟨⟨object, present⟩, unknown⟩ := needs
  rw [present] at resumed
  cases answered : encoder.answerTo registry (encoder.subject call.context) with
  | error e =>
    rw [answered, resume_error] at resumed
    cases resumed
    refine ⟨consistent, ?_, fun _ => was, ?_⟩
    · rw [alone_unknown encoder present unknown, answered, resume_error]
    · intro _ reply answered'
      cases answered.symm.trans answered'
  | ok reply =>
    have agreed : ∀ id, cache.get? (encoder.subject call.context) = some id →
        reply.schemaId = id := by
      intro id entry
      rcases consistent.learnt _ id entry with first | ⟨_, _, other, answered', same⟩
      · cases unknown.symm.trans first
      · cases answered.symm.trans answered'
        exact same
    obtain ⟨later, resumed', entries⟩ :=
      encoder.resume_agreed object call.context agreed
    rw [answered, resumed'] at resumed
    cases resumed
    refine ⟨⟨consistent.stock, ?_, ?_⟩, ?_, fun _ => was, ?_⟩
    · intro subject id first
      rw [entries]
      split
      · rename_i self
        rw [← self, unknown] at first
        cases first
      · exact consistent.kept subject id first
    · intro subject id entry
      rw [entries] at entry
      split at entry
      · rename_i self
        subst self
        exact .inr ⟨unknown, was, reply, answered, Option.some.inj entry⟩
      · exact consistent.learnt subject id entry
    · exact (alone_answered encoder present unknown answered).symm
    · intro _ other answered'
      cases answered.symm.trans answered'
      rw [entries, if_pos rfl]

theorem Done.mono {outcome : Outcome} {more : String → Prop} {later : SubjectCache}
    (done : encoder.Done registry known served cache call outcome)
    (wider : ∀ subject, served subject → more subject) (grows : cache.Grows later) :
    encoder.Done registry known more later call outcome where
  outcome := done.outcome
  served := fun needs => wider _ (done.served needs)
  learnt := fun needs reply answered => grows _ _ (done.learnt needs reply answered)

end Steps

section Conclusion

variable {encoder registry known} {served : String → Prop} {catalog : Catalog}
  {cache : SubjectCache} {calls : List (Call α)}

variable (encoder registry known) in
structure Concluded (calls : List (Call α)) (catalog : Catalog) (cache : SubjectCache) : Prop where
  consistent : encoder.Consistent registry known (encoder.Wanted known calls) catalog cache
  learnt : ∀ subject, encoder.Wanted known calls subject → ∀ reply,
    encoder.answerTo registry subject = .ok reply → cache.get? subject = some reply.schemaId

theorem Consistent.concluded (consistent : encoder.Consistent registry known served catalog cache)
    (wanted : ∀ subject, served subject → encoder.Wanted known calls subject)
    (done : ∀ call ∈ calls, ∃ outcome, encoder.Done registry known served cache call outcome) :
    encoder.Concluded registry known calls catalog cache := by
  have same : served = encoder.Wanted known calls := by
    funext subject
    refine propext ⟨wanted subject, ?_⟩
    rintro ⟨call, member, needs, rfl⟩
    obtain ⟨outcome, done⟩ := done call member
    exact done.served needs
  refine ⟨same ▸ consistent, ?_⟩
  rintro _ ⟨call, member, needs, rfl⟩ reply answered
  obtain ⟨outcome, done⟩ := done call member
  exact done.learnt needs reply answered

theorem Concluded.unique {other : Catalog} {later : SubjectCache}
    (one : encoder.Concluded registry known calls catalog cache)
    (two : encoder.Concluded registry known calls other later) :
    catalog.Same other ∧ ∀ subject, cache.get? subject = later.get? subject := by
  -- What one cache has learnt was wanted and answered, so that the other has learnt it too.
  have covers : ∀ {a b : Catalog} {c d : SubjectCache},
      encoder.Concluded registry known calls a c → encoder.Concluded registry known calls b d →
      c.Grows d := by
    intro a b c d first second subject id entry
    rcases first.consistent.learnt subject id entry with
      kept | ⟨_, wanted, reply, answered, same⟩
    · exact second.consistent.kept subject id kept
    · rw [← same]
      exact second.learnt subject wanted reply answered
  refine ⟨Catalog.served_unique one.consistent.stock two.consistent.stock, ?_⟩
  intro subject
  cases entry : later.get? subject with
  | some id => exact covers two one subject id entry
  | none =>
    cases entry' : cache.get? subject with
    | none => rfl
    | some id => cases entry.symm.trans (covers one two subject id entry')

end Conclusion

section Sequential

variable {encoder registry known} {served : String → Prop} {cache : SubjectCache}

theorem Consistent.encodeVia {registry' : MemoryRegistry}
    (consistent : encoder.Consistent registry known served registry'.catalog cache)
    (call : Call α) {after : MemoryRegistry} {later : SubjectCache} {outcome : Outcome}
    (encoded : encoder.encodeVia MemoryRegistry.serve registry' cache call.object call.context =
      (after, later, outcome)) :
    ∃ more, encoder.Consistent registry known more after.catalog later ∧
      encoder.Done registry known more later call outcome ∧ cache.Grows later ∧
      (∀ subject, served subject → more subject) ∧
      ∀ subject, more subject → served subject ∨
        encoder.Needs known call ∧ encoder.subject call.context = subject := by
  unfold Encoder.encodeVia at encoded
  cases opening : encoder.begin cache call.object call.context with
  | done outcome =>
    rw [opening] at encoded
    cases encoded
    exact ⟨served, consistent, consistent.begin opening, SubjectCache.Grows.refl cache,
      fun _ was => was, fun _ was => .inl was⟩
  | asks request =>
    rw [opening] at encoded
    obtain ⟨object, present, absent, rfl⟩ := encoder.begin_asks opening
    have needs : encoder.Needs known call := ⟨⟨object, present⟩, consistent.unknown absent⟩
    obtain ⟨answered, asked⟩ := consistent.serve (encoder.subject call.context)
    dsimp only at encoded
    rw [MemoryRegistry.serve_eq, answered] at encoded
    obtain ⟨rfl, resumed⟩ := Prod.mk.inj encoded
    have grows := encoder.resume_grows cache call.object call.context
      (encoder.answerTo registry (encoder.subject call.context))
    rw [resumed] at grows
    obtain ⟨learnt, done⟩ := asked.resume needs (.inr rfl) resumed
    refine ⟨_, learnt, done, grows, fun _ was => .inl was, ?_⟩
    rintro subject (was | rfl)
    · exact .inl was
    · exact .inr ⟨needs, rfl⟩

theorem Consistent.encodeAll {calls : List (Call α)} {registry' after : MemoryRegistry}
    {later : SubjectCache} {outcomes : List Outcome}
    (consistent : encoder.Consistent registry known served registry'.catalog cache)
    (encoded : encoder.encodeAll registry' cache calls = (after, later, outcomes)) :
    outcomes = calls.map (encoder.alone registry known) ∧
    ∃ more, encoder.Consistent registry known more after.catalog later ∧ cache.Grows later ∧
      (∀ call ∈ calls, ∃ outcome, encoder.Done registry known more later call outcome) ∧
      (∀ subject, served subject → more subject) ∧
      ∀ subject, more subject → served subject ∨ encoder.Wanted known calls subject := by
  induction calls generalizing served registry' cache outcomes with
  | nil =>
    cases encoded
    exact ⟨rfl, served, consistent, SubjectCache.Grows.refl _, fun _ none => (nomatch none),
      fun _ was => was, fun _ was => .inl was⟩
  | cons call rest ih =>
    rw [Encoder.encodeAll] at encoded
    cases first : encoder.encodeVia MemoryRegistry.serve registry' cache call.object
      call.context with
    | mk middle tail =>
      obtain ⟨between, outcome⟩ := tail
      cases others : encoder.encodeAll middle between rest with
      | mk last tail =>
        obtain ⟨final, outcomes'⟩ := tail
        simp only [first, others] at encoded
        cases encoded
        obtain ⟨served, here, done, grows, wider, narrow⟩ := consistent.encodeVia call first
        obtain ⟨same, more, there, grows', dones, wider', narrow'⟩ := ih here others
        refine ⟨?_, more, there, grows.trans grows', ?_, fun s was => wider' s (wider s was), ?_⟩
        · rw [List.map_cons, ← done.outcome, same]
        · intro other member
          rcases List.mem_cons.mp member with rfl | member
          · exact ⟨outcome, done.mono wider' grows'⟩
          · exact dones other member
        · intro subject was
          rcases narrow' subject was with was | ⟨other, member, needs, self⟩
          · rcases narrow subject was with was | ⟨needs, self⟩
            · exact .inl was
            · exact .inr ⟨call, List.mem_cons_self, needs, self⟩
          · exact .inr ⟨other, List.mem_cons_of_mem call member, needs, self⟩

theorem encodeAll_concluded {calls : List (Call α)} {after : MemoryRegistry} {later : SubjectCache}
    {outcomes : List Outcome}
    (encoded : encoder.encodeAll registry known calls = (after, later, outcomes)) :
    outcomes = calls.map (encoder.alone registry known) ∧
      encoder.Concluded registry known calls after.catalog later := by
  obtain ⟨same, more, consistent, _, done, _, narrow⟩ := consistent_start.encodeAll encoded
  refine ⟨same, consistent.concluded ?_ done⟩
  intro subject was
  rcases narrow subject was with never | wanted
  · exact never.elim
  · exact wanted

end Sequential

end Encoder
end FramedJson
