import FramedJson.Proofs.Encoder

namespace FramedJson

variable {α σ : Type}

def recording (ask : σ → Request → σ × Except RegistryError Reply) (seen : σ × List Request)
    (request : Request) : (σ × List Request) × Except RegistryError Reply :=
  let (state, answer) := ask seen.1 request
  ((state, seen.2 ++ [request]), answer)

namespace Encoder

structure Trace (σ : Type) where
  asked : List Request
  state : σ
  cache : SubjectCache
  outcome : Outcome

def trace (encoder : Encoder α) (ask : σ → Request → σ × Except RegistryError Reply) (state : σ)
    (cache : SubjectCache) (object : Option α) (context : Context) : Trace σ :=
  let ((state, asked), cache, outcome) :=
    encoder.encodeVia (recording ask) (state, []) cache object context
  ⟨asked, state, cache, outcome⟩

section Frame

variable {encoder : Encoder α} {object : α} {context : Context} {id : UInt32} {document : Json}

theorem frame_unmade {e : CodecError} (failed : encoder.toDocument object context = .error e) :
    encoder.frame object context id = .error e := by
  rw [frame, failed]
  rfl

theorem frame_rejected {violations : List JsonSchema.Violation}
    (made : encoder.toDocument object context = .ok document)
    (judged : encoder.validator.validate document = .error violations) :
    encoder.frame object context id =
      .error (.invalid violations (.outgoing (encoder.subject context) id)) := by
  simp only [frame, made, judged, bind, Except.bind]
  rfl

theorem frame_made (made : encoder.toDocument object context = .ok document)
    (judged : encoder.validator.validate document = .ok ()) :
    encoder.frame object context id = .ok (Envelope.encode ⟨id, payload document⟩) := by
  simp only [frame, made, judged, bind, Except.bind]
  rfl

theorem frame_error {e : CodecError} (failed : encoder.frame object context id = .error e) :
    encoder.toDocument object context = .error e ∨
      ∃ document violations, encoder.toDocument object context = .ok document ∧
        encoder.validator.validate document = .error violations ∧
        e = .invalid violations (.outgoing (encoder.subject context) id) := by
  cases made : encoder.toDocument object context with
  | error e' =>
    rw [frame_unmade made] at failed
    exact .inl (congrArg Except.error (Except.error.inj failed))
  | ok document =>
    cases judged : encoder.validator.validate document with
    | error violations =>
      rw [frame_rejected made judged] at failed
      exact .inr ⟨document, violations, rfl, judged, (Except.error.inj failed).symm⟩
    | ok _ =>
      rw [frame_made made judged] at failed
      cases failed

end Frame

section Course

variable (encoder : Encoder α) (ask : σ → Request → σ × Except RegistryError Reply) (state : σ)
  (cache : SubjectCache) (context : Context)

/-- The four courses that a call can take. -/
inductive Course : Option α → Trace σ → Prop
  | idle : Course none ⟨[], state, cache, .ok none⟩
  | known (object : α) (id : UInt32) (known : cache.get? (encoder.subject context) = some id) :
    Course (some object) ⟨[], state, cache, (encoder.frame object context id).map some⟩
  | refused (object : α) (e : RegistryError)
    (unknown : cache.get? (encoder.subject context) = none)
    (answer : (ask state (encoder.request (encoder.subject context))).2 = .error e) :
    Course (some object)
      ⟨[encoder.request (encoder.subject context)],
        (ask state (encoder.request (encoder.subject context))).1, cache,
        .error (.registry (encoder.subject context) e)⟩
  | resolved (object : α) (reply : Reply)
    (unknown : cache.get? (encoder.subject context) = none)
    (answer : (ask state (encoder.request (encoder.subject context))).2 = .ok reply) :
    Course (some object)
      ⟨[encoder.request (encoder.subject context)],
        (ask state (encoder.request (encoder.subject context))).1,
        ⟨Assoc.put (encoder.subject context) reply.schemaId cache.ids⟩,
        (encoder.frame object context reply.schemaId).map some⟩

theorem trace_course (object : Option α) :
    encoder.Course ask state cache context object
      (encoder.trace ask state cache object context) := by
  cases object with
  | none => exact .idle
  | some x =>
    cases entry : cache.get? (encoder.subject context) with
    | some id =>
      rw [trace, encodeVia_known encoder entry]
      exact .known x id entry
    | none =>
      rw [trace, encodeVia_unknown encoder entry]
      cases answer : (ask state (encoder.request (encoder.subject context))).2 with
      | error e =>
        simp only [recording, answer, resume_error, List.nil_append]
        exact .refused x e entry answer
      | ok reply =>
        simp only [recording, answer, resume_unknown encoder entry, List.nil_append]
        exact .resolved x reply entry answer

variable {encoder ask state cache context} {object : Option α} {call : Trace σ}

theorem Course.encodes (course : encoder.Course ask state cache context object call) :
    encoder.encodeVia ask state cache object context = (call.state, call.cache, call.outcome) := by
  cases course with
  | idle => rfl
  | known x id known => exact encodeVia_known encoder known state x
  | refused x e unknown answer =>
    rw [encodeVia_unknown encoder unknown, answer, resume_error]
  | resolved x reply unknown answer =>
    rw [encodeVia_unknown encoder unknown, answer, resume_unknown encoder unknown]

theorem Course.asked_eq (course : encoder.Course ask state cache context object call) :
    call.asked = if object.isSome ∧ cache.get? (encoder.subject context) = none then
      [encoder.request (encoder.subject context)] else [] := by
  cases course with
  | idle => rfl
  | known x id known => simp [known]
  | refused x e unknown answer => simp [unknown]
  | resolved x reply unknown answer => simp [unknown]

def Refused (encoder : Encoder α) (ask : σ → Request → σ × Except RegistryError Reply) (state : σ)
    (context : Context) (call : Trace σ) (e : RegistryError) : Prop :=
  call.asked = [encoder.request (encoder.subject context)] ∧
    (ask state (encoder.request (encoder.subject context))).2 = .error e

theorem Course.of_refused (course : encoder.Course ask state cache context object call)
    {e : RegistryError} (refused : Refused encoder ask state context call e) :
    call.cache = cache ∧ call.outcome = .error (.registry (encoder.subject context) e) := by
  obtain ⟨asked, answer⟩ := refused
  cases course with
  | idle => cases asked
  | known x id known => cases asked
  | refused x e' unknown answer' =>
    cases answer.symm.trans answer'
    exact ⟨rfl, rfl⟩
  | resolved x reply unknown answer' => cases answer.symm.trans answer'

theorem Course.unconverted (course : encoder.Course ask state cache context object call)
    {e : RegistryError} (refused : Refused encoder ask state context call e)
    (toDocument : α → Context → Except CodecError Json) :
    Course { encoder with toDocument := toDocument } ask state cache context object call := by
  obtain ⟨asked, answer⟩ := refused
  cases course with
  | idle => cases asked
  | known x id known => cases asked
  | refused x e' unknown answer' => exact .refused x e' unknown answer'
  | resolved x reply unknown answer' => cases answer.symm.trans answer'

theorem Course.unique {other : Trace σ} (course : encoder.Course ask state cache context object call)
    (course' : encoder.Course ask state cache context object other) : call = other := by
  have asked := course.asked_eq.trans course'.asked_eq.symm
  have ended := course.encodes.symm.trans course'.encodes
  simp only [Prod.mk.injEq] at ended
  obtain ⟨state, cache, outcome⟩ := ended
  cases call
  cases other
  simp only [Trace.mk.injEq]
  exact ⟨asked, state, cache, outcome⟩

theorem Course.of_granted {x : α} (course : encoder.Course ask state cache context (some x) call)
    (granted : ∀ e, ¬ Refused encoder ask state context call e) :
    ∃ id, call.cache.get? (encoder.subject context) = some id ∧
      call.outcome = (encoder.frame x context id).map some ∧
      (call.cache = cache ∨
        cache.get? (encoder.subject context) = none ∧
          call.cache.ids = cache.ids ++ [(encoder.subject context, id)] ∧
          ∃ reply, (ask state (encoder.request (encoder.subject context))).2 = .ok reply ∧
            reply.schemaId = id) := by
  cases course with
  | known _ id known => exact ⟨id, known, rfl, .inl rfl⟩
  | refused _ e unknown answer => exact absurd ⟨rfl, answer⟩ (granted e)
  | resolved _ reply unknown answer =>
    refine ⟨reply.schemaId, ?_, rfl, .inr ⟨unknown, ?_, reply, answer, rfl⟩⟩
    · rw [SubjectCache.get?_put, if_pos rfl]
    · exact Assoc.put_of_absent (Assoc.absent_of_find? unknown) _

theorem Course.framed (course : encoder.Course ask state cache context object call)
    {bytes : List UInt8} (framed : call.outcome = .ok (some bytes)) :
    (∀ e, ¬ Refused encoder ask state context call e) ∧
      ∃ x document id, object = some x ∧ encoder.toDocument x context = .ok document ∧
        encoder.validator.validate document = .ok () ∧
        call.cache.get? (encoder.subject context) = some id ∧
        bytes = Envelope.encode ⟨id, payload document⟩ := by
  have granted : ∀ e, ¬ Refused encoder ask state context call e := by
    intro e refused
    cases framed.symm.trans (course.of_refused refused).2
  refine ⟨granted, ?_⟩
  cases object with
  | none =>
    cases course with
    | idle => cases framed
  | some x =>
    obtain ⟨id, known, outcome, _⟩ := course.of_granted granted
    obtain ⟨frame, made, same⟩ := Outcome.map_ok (outcome.symm.trans framed)
    cases same
    obtain ⟨document, converted, judged, encoded⟩ := frame_ok made
    exact ⟨x, document, id, rfl, converted, judged, known, encoded⟩

theorem Course.failed (course : encoder.Course ask state cache context object call)
    {e : CodecError} (failed : call.outcome = .error e) :
    (∃ fault, Refused encoder ask state context call fault ∧
      e = .registry (encoder.subject context) fault) ∨
      ∃ x, object = some x ∧ (encoder.toDocument x context = .error e ∨
        ∃ document violations id, encoder.toDocument x context = .ok document ∧
          encoder.validator.validate document = .error violations ∧
          call.cache.get? (encoder.subject context) = some id ∧
          e = .invalid violations (.outgoing (encoder.subject context) id)) := by
  by_cases refused : ∃ fault, Refused encoder ask state context call fault
  · obtain ⟨fault, refused⟩ := refused
    have outcome := (course.of_refused refused).2
    exact .inl ⟨fault, refused, Except.error.inj (failed.symm.trans outcome)⟩
  · cases object with
    | none =>
      cases course with
      | idle => cases failed
    | some x =>
      obtain ⟨id, known, outcome, _⟩ := course.of_granted (not_exists.mp refused)
      have unframed := Outcome.map_error_iff.mp (outcome.symm.trans failed)
      refine .inr ⟨x, rfl, (frame_error unframed).imp_right ?_⟩
      rintro ⟨document, violations, made, judged, same⟩
      exact ⟨document, violations, id, made, judged, known, same⟩

end Course

theorem message_outgoing (violations : List JsonSchema.Violation) (subject : String) (id : UInt32) :
    (CodecError.invalid violations (.outgoing subject id)).message =
      (CodecError.invalid violations .alone).message ++
        s!" (subject {subject}, schema id {id})" :=
  CodecError.message_invalid violations (.outgoing subject id)

/-- A call waited for alone, on any cache, over any registry and with any conversion. No object: nothing is
asked, written or given. The registry refuses: its own error is given back with the subject, nothing is
written, and the object is not even converted. Otherwise the subject is known afterwards, by an id that was
known before or has just been answered, and no other entry is made, whatever fails from then on: an error
of the conversion is given back as it is, violations of the schema with the subject and that id behind
them, and bytes are given for a document that satisfies the schema and for nothing else. -/
theorem call_fails_cleanly (encoder : Encoder α)
    (ask : σ → Request → σ × Except RegistryError Reply) (state : σ) (cache : SubjectCache)
    (object : Option α) (context : Context) :
    let subject := encoder.subject context
    let request := encoder.request subject
    let answer := (ask state request).2
    let call := encoder.trace ask state cache object context
    encoder.encodeVia ask state cache object context = (call.state, call.cache, call.outcome) ∧
    (call.asked = if object.isSome ∧ cache.get? subject = none then [request] else []) ∧
    (object = none → call.state = state ∧ call.cache = cache ∧ call.outcome = .ok none) ∧
    (∀ e, call.asked = [request] → answer = .error e →
      call.cache = cache ∧ call.outcome = .error (.registry subject e) ∧
      ∀ toDocument, Encoder.trace { encoder with toDocument := toDocument } ask state cache object
        context = call) ∧
    (∀ x, object = some x → (∀ e, ¬ (call.asked = [request] ∧ answer = .error e)) →
      ∃ id, call.cache.get? subject = some id ∧
        (call.cache = cache ∨ cache.get? subject = none ∧
          call.cache.ids = cache.ids ++ [(subject, id)] ∧
          ∃ reply, answer = .ok reply ∧ reply.schemaId = id) ∧
        (∀ e, encoder.toDocument x context = .error e → call.outcome = .error e) ∧
        ∀ document, encoder.toDocument x context = .ok document →
          (∀ violations, encoder.validator.validate document = .error violations →
            ∃ e, call.outcome = .error e ∧ e = .invalid violations (.outgoing subject id) ∧
              e.message = (CodecError.invalid violations .alone).message ++
                s!" (subject {subject}, schema id {id})") ∧
          (encoder.validator.validate document = .ok () →
            call.outcome = .ok (some (Envelope.encode ⟨id, payload document⟩)))) ∧
    (∀ bytes, call.outcome = .ok (some bytes) →
      (∀ e, ¬ (call.asked = [request] ∧ answer = .error e)) ∧
      ∃ x document id, object = some x ∧ encoder.toDocument x context = .ok document ∧
        encoder.validator.validate document = .ok () ∧ call.cache.get? subject = some id ∧
        bytes = Envelope.encode ⟨id, payload document⟩) ∧
    ∀ e, call.outcome = .error e →
      (∃ fault, call.asked = [request] ∧ answer = .error fault ∧ e = .registry subject fault) ∨
      ∃ x, object = some x ∧ (encoder.toDocument x context = .error e ∨
        ∃ document violations id, encoder.toDocument x context = .ok document ∧
          encoder.validator.validate document = .error violations ∧
          call.cache.get? subject = some id ∧ e = .invalid violations (.outgoing subject id)) := by
  intro subject request answer call
  have course : encoder.Course ask state cache context object call :=
    encoder.trace_course ask state cache context object
  refine ⟨course.encodes, course.asked_eq, ?_, ?_, ?_, ?_, ?_⟩
  · rintro rfl
    exact ⟨rfl, rfl, rfl⟩
  · intro e asked refused
    obtain ⟨kept, outcome⟩ := course.of_refused ⟨asked, refused⟩
    refine ⟨kept, outcome, fun toDocument => ?_⟩
    have other := trace_course { encoder with toDocument := toDocument } ask state cache context object
    exact other.unique (course.unconverted ⟨asked, refused⟩ toDocument)
  · rintro x rfl granted
    obtain ⟨id, known, outcome, written⟩ := course.of_granted granted
    refine ⟨id, known, written, ?_, ?_⟩
    · intro e failed
      rw [outcome, frame_unmade failed]
      rfl
    · intro document made
      constructor
      · intro violations judged
        rw [outcome, frame_rejected made judged]
        exact ⟨_, rfl, rfl, message_outgoing violations subject id⟩
      · intro judged
        rw [outcome, frame_made made judged]
        rfl
  · intro bytes framed
    exact course.framed framed
  · intro e failed
    refine (course.failed failed).imp_left ?_
    rintro ⟨fault, ⟨asked, answered⟩, same⟩
    exact ⟨fault, asked, answered, same⟩

/-- The object says what its conversion gives, and the schema lets only null through. -/
def nullOnly : Encoder (Except CodecError Json) :=
  ⟨⟨"\x7b\"title\":\"T\",\"type\":\"null\"\x7d", .json, []⟩, "T",
    ⟨.obj [("title", .str "T"), ("type", .str "null")], rfl⟩, .default, fun object _ => object⟩

def waking (awake : Bool) (_ : Request) : Bool × Except RegistryError Reply :=
  (true, if awake then .ok (.id 9) else .error (.transport "down"))

theorem call_fails_cleanly_waking :
    let call := fun awake object =>
      nullOnly.trace waking awake ⟨[("t-value", 2)]⟩ (some object) ⟨"s", .value⟩
    (call false (.ok .null)).outcome = .error (.registry "s-value" (.transport "down")) ∧
    (call false (.ok .null)).cache = ⟨[("t-value", 2)]⟩ ∧
    (call true (.error (.conversion "no"))).outcome = .error (.conversion "no") ∧
    (call true (.error (.conversion "no"))).cache = ⟨[("t-value", 2), ("s-value", 9)]⟩ ∧
    (∃ violations, (call true (.ok (.bool true))).outcome =
      .error (.invalid violations (.outgoing "s-value" 9))) ∧
    (call true (.ok .null)).outcome = .ok (some [0, 0, 0, 0, 9, 110, 117, 108, 108]) := by
  intro call
  have effects (awake : Bool) (object : Except CodecError Json) :=
    call_fails_cleanly nullOnly waking awake ⟨[("t-value", 2)]⟩ (some object) ⟨"s", .value⟩
  obtain ⟨kept, refused, _⟩ := (effects false (.ok .null)).2.2.2.1 (.transport "down") rfl rfl
  have resolved (object : Except CodecError Json) :=
    (effects true object).2.2.2.2.1 object rfl (fun _ refusal => nomatch refusal.2)
  obtain ⟨_, _, _, unmade, _⟩ := resolved (.error (.conversion "no"))
  obtain ⟨id, known, _, _, made⟩ := resolved (.ok (.bool true))
  obtain ⟨e, rejected, same, _⟩ := (made (.bool true) rfl).1 _ rfl
  obtain ⟨id', known', _, _, made'⟩ := resolved (.ok .null)
  cases known
  cases known'
  subst same
  exact ⟨refused, kept, unmade _ rfl, rfl, ⟨_, rejected⟩, (made' .null rfl).2 rfl⟩

end Encoder
end FramedJson
