import FramedJson.Encoder
import FramedJson.Proofs.Outcome
import FramedJson.Proofs.SubjectCache

namespace FramedJson.Encoder

variable {α σ : Type}

theorem build_ok {definition : String} {options : Options} {references : List SchemaReference}
    {toDocument : α → Context → Except CodecError Json} {encoder : Encoder α}
    (built : build definition options references toDocument = .ok encoder) :
    ∃ document validator recordName,
      LocalSchema.read definition = .ok document ∧ LocalSchema.compile document = .ok validator ∧
      encoder = ⟨⟨definition, .json, references⟩, recordName, validator, options, toDocument⟩ := by
  unfold build at built
  cases valid : options.validate with
  | error e =>
    rw [valid] at built
    cases built
  | ok _ =>
    rw [valid] at built
    obtain ⟨document, read, built⟩ := Outcome.bind_ok built
    obtain ⟨recordName, _, built⟩ := Outcome.bind_ok built
    obtain ⟨validator, compiled, built⟩ := Outcome.bind_ok built
    cases built
    exact ⟨document, validator, recordName, read, compiled, rfl⟩

theorem frame_ok {encoder : Encoder α} {object : α} {context : Context} {id : UInt32}
    {bytes : List UInt8} (framed : encoder.frame object context id = .ok bytes) :
    ∃ document, encoder.toDocument object context = .ok document ∧
      encoder.validator.validate document = .ok () ∧
      bytes = Envelope.encode ⟨id, payload document⟩ := by
  obtain ⟨document, made, framed⟩ := Outcome.bind_ok framed
  cases judged : encoder.validator.validate document with
  | error violations =>
    rw [judged] at framed
    cases framed
  | ok _ =>
    rw [judged] at framed
    cases framed
    exact ⟨document, made, judged, rfl⟩

theorem frame_id {encoder : Encoder α} {object : α} {context : Context} {id : UInt32}
    {bytes : List UInt8} (framed : encoder.frame object context id = .ok bytes) :
    (bytes.drop 1).take 4 = Envelope.idBytes id := by
  obtain ⟨document, _, _, rfl⟩ := frame_ok framed
  rfl

section Calls

variable (encoder : Encoder α) {cache : SubjectCache} {object : α} {context : Context}

theorem begin_none (cache : SubjectCache) (context : Context) :
    encoder.begin cache none context = .done (.ok none) := rfl

theorem begin_known {id : UInt32} (known : cache.get? (encoder.subject context) = some id)
    (object : α) :
    encoder.begin cache (some object) context =
      .done ((encoder.frame object context id).map some) := by
  simp only [begin, known]

theorem begin_unknown (unknown : cache.get? (encoder.subject context) = none) (object : α) :
    encoder.begin cache (some object) context =
      .asks (encoder.request (encoder.subject context)) := by
  simp only [begin, unknown]

theorem resume_error (cache : SubjectCache) (object : α) (context : Context) (e : RegistryError) :
    encoder.resume cache (some object) context (.error e) =
      (cache, .error (.registry (encoder.subject context) e)) := rfl

theorem resume_known {id : UInt32} (known : cache.get? (encoder.subject context) = some id)
    (object : α) (reply : Reply) :
    encoder.resume cache (some object) context (.ok reply) =
      (cache, (encoder.frame object context id).map some) := by
  simp only [resume, Except.map, SubjectCache.settle_known known]

theorem resume_unknown (unknown : cache.get? (encoder.subject context) = none) (object : α)
    (reply : Reply) :
    encoder.resume cache (some object) context (.ok reply) =
      (⟨Assoc.put (encoder.subject context) reply.schemaId cache.ids⟩,
        (encoder.frame object context reply.schemaId).map some) := by
  simp only [resume, Except.map, SubjectCache.settle_new unknown]

theorem resume_ok (cache : SubjectCache) (object : α) (context : Context) (reply : Reply) :
    ∃ after id, after.get? (encoder.subject context) = some id ∧
      encoder.resume cache (some object) context (.ok reply) =
        (after, (encoder.frame object context id).map some) := by
  cases entry : cache.get? (encoder.subject context) with
  | some id => exact ⟨cache, id, entry, resume_known encoder entry object reply⟩
  | none =>
    refine ⟨_, reply.schemaId, ?_, resume_unknown encoder entry object reply⟩
    rw [SubjectCache.get?_put, if_pos rfl]

theorem begin_frame {object : Option α} {frame : List UInt8}
    (framed : encoder.begin cache object context = .done (.ok (some frame))) :
    ∃ x id, object = some x ∧ cache.get? (encoder.subject context) = some id ∧
      encoder.frame x context id = .ok frame := by
  cases object with
  | none =>
    rw [begin_none] at framed
    cases framed
  | some x =>
    cases known : cache.get? (encoder.subject context) with
    | none =>
      rw [begin_unknown encoder known] at framed
      cases framed
    | some id =>
      rw [begin_known encoder known] at framed
      obtain ⟨bytes, made, same⟩ := Outcome.map_ok (Opening.done.inj framed)
      cases same
      exact ⟨x, id, rfl, rfl, made⟩

theorem begin_asks {object : Option α} {request : Request}
    (asks : encoder.begin cache object context = .asks request) :
    ∃ x, object = some x ∧ cache.get? (encoder.subject context) = none ∧
      request = encoder.request (encoder.subject context) := by
  cases object with
  | none =>
    rw [begin_none] at asks
    cases asks
  | some x =>
    cases known : cache.get? (encoder.subject context) with
    | none =>
      rw [begin_unknown encoder known] at asks
      exact ⟨x, rfl, rfl, (Opening.asks.inj asks).symm⟩
    | some id =>
      rw [begin_known encoder known] at asks
      cases asks

theorem resume_frame {object : Option α} {answer : Except RegistryError Reply}
    {after : SubjectCache} {frame : List UInt8}
    (framed : encoder.resume cache object context answer = (after, .ok (some frame))) :
    ∃ x id, object = some x ∧ after.get? (encoder.subject context) = some id ∧
      encoder.frame x context id = .ok frame := by
  cases object with
  | none => cases framed
  | some x =>
    cases answer with
    | error e =>
      rw [resume_error] at framed
      cases framed
    | ok reply =>
      obtain ⟨later, id, known, resumed⟩ := resume_ok encoder cache x context reply
      rw [resumed] at framed
      obtain ⟨rfl, result⟩ := Prod.mk.inj framed
      obtain ⟨bytes, made, same⟩ := Outcome.map_ok result
      cases same
      exact ⟨x, id, rfl, known, made⟩

/-- A call writes one entry at most: that of its own subject, where there was none, and from the answer. -/
theorem resume_entry (cache : SubjectCache) (object : Option α) (context : Context)
    (answer : Except RegistryError Reply) (subject : String) :
    (encoder.resume cache object context answer).1.get? subject = cache.get? subject ∨
      encoder.subject context = subject ∧ cache.get? subject = none ∧ ∃ reply, answer = .ok reply ∧
        (encoder.resume cache object context answer).1.get? subject = some reply.schemaId := by
  cases object with
  | none => exact .inl rfl
  | some x =>
    cases answer with
    | error e => exact .inl rfl
    | ok reply =>
      cases entry : cache.get? (encoder.subject context) with
      | some id =>
        rw [resume_known encoder entry]
        exact .inl rfl
      | none =>
        rw [resume_unknown encoder entry, SubjectCache.get?_put]
        by_cases own : encoder.subject context = subject
        · rw [if_pos own]
          exact .inr ⟨own, own ▸ entry, reply, rfl, rfl⟩
        · rw [if_neg own]
          exact .inl rfl

theorem resume_grows (cache : SubjectCache) (object : Option α) (context : Context)
    (answer : Except RegistryError Reply) :
    cache.Grows (encoder.resume cache object context answer).1 := by
  intro subject id known
  rcases resume_entry encoder cache object context answer subject with kept | ⟨_, unknown, _⟩
  · exact kept.trans known
  · cases unknown.symm.trans known

section Entry

variable {other : SubjectCache}
  (same : cache.get? (encoder.subject context) = other.get? (encoder.subject context))
include same

theorem begin_of_entry (object : Option α) :
    encoder.begin cache object context = encoder.begin other object context := by
  cases object with
  | none => rfl
  | some x => simp only [begin, same]

theorem resume_of_entry (object : Option α) (answer : Except RegistryError Reply) :
    (encoder.resume cache object context answer).2 =
        (encoder.resume other object context answer).2 ∧
      (encoder.resume cache object context answer).1.get? (encoder.subject context) =
        (encoder.resume other object context answer).1.get? (encoder.subject context) := by
  cases object with
  | none => exact ⟨rfl, same⟩
  | some x =>
    cases answer with
    | error e => exact ⟨rfl, same⟩
    | ok reply =>
      cases entry : cache.get? (encoder.subject context) with
      | some id =>
        rw [resume_known encoder entry, resume_known encoder (same.symm.trans entry)]
        exact ⟨rfl, same⟩
      | none =>
        rw [resume_unknown encoder entry, resume_unknown encoder (same.symm.trans entry)]
        refine ⟨rfl, ?_⟩
        rw [SubjectCache.get?_put, SubjectCache.get?_put, if_pos rfl, if_pos rfl]

end Entry

end Calls

section Alone

variable (encoder : Encoder α) {ask : σ → Request → σ × Except RegistryError Reply}
  {cache later : SubjectCache} {object : α} {context : Context}

theorem encodeVia_none (state : σ) (cache : SubjectCache) (context : Context) :
    encoder.encodeVia ask state cache none context = (state, cache, .ok none) := rfl

theorem encodeVia_known {id : UInt32} (known : cache.get? (encoder.subject context) = some id)
    (state : σ) (object : α) :
    encoder.encodeVia ask state cache (some object) context =
      (state, cache, (encoder.frame object context id).map some) := by
  rw [encodeVia, begin_known encoder known]

theorem encodeVia_unknown (unknown : cache.get? (encoder.subject context) = none) (state : σ)
    (object : α) :
    encoder.encodeVia ask state cache (some object) context =
      ((ask state (encoder.request (encoder.subject context))).1,
        encoder.resume cache (some object) context
          (ask state (encoder.request (encoder.subject context))).2) := by
  rw [encodeVia, begin_unknown encoder unknown]

theorem encodeVia_frame {state after : σ} {bytes : List UInt8}
    (framed : encoder.encodeVia ask state cache (some object) context =
      (after, later, .ok (some bytes))) :
    ∃ id, later.get? (encoder.subject context) = some id ∧
      encoder.frame object context id = .ok bytes := by
  cases entry : cache.get? (encoder.subject context) with
  | some id =>
    rw [encodeVia_known encoder entry] at framed
    obtain ⟨_, same⟩ := Prod.mk.inj framed
    obtain ⟨rfl, result⟩ := Prod.mk.inj same
    obtain ⟨frame, made, same⟩ := Outcome.map_ok result
    cases same
    exact ⟨id, entry, made⟩
  | none =>
    rw [encodeVia_unknown encoder entry] at framed
    obtain ⟨x, id, same, known, made⟩ := resume_frame encoder (Prod.mk.inj framed).2
    cases same
    exact ⟨id, known, made⟩

end Alone

end FramedJson.Encoder
