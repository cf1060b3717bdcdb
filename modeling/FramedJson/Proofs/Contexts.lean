import FramedJson.Proofs.Session

namespace FramedJson

section Naming

theorem append_name_injective {stream stream' ending : String}
    (same : stream ++ "-" ++ ending = stream' ++ "-" ++ ending) : stream = stream' := by
  have lists := congrArg String.toList same
  simp only [String.toList_append, List.append_assoc] at lists
  exact String.toList_inj.mp (List.append_cancel_right lists)

theorem field_names_differ (stream stream' : String) :
    stream ++ "-" ++ MessageField.key.name ≠ stream' ++ "-" ++ MessageField.value.name := by
  intro same
  have ends := congrArg (fun text => text.toList.getLast?) same
  simp [MessageField.name, String.toList_append] at ends

theorem SubjectNaming.byTopic_inj (context other : Context) (record : String) :
    byTopic.subject context record = byTopic.subject other record ↔
      context.stream = other.stream ∧ context.field = other.field := by
  obtain ⟨stream, field⟩ := context
  obtain ⟨stream', field'⟩ := other
  simp only [subject]
  constructor
  · intro same
    cases field with
    | key =>
      cases field' with
      | key => exact ⟨append_name_injective same, rfl⟩
      | value => exact absurd same (field_names_differ stream stream')
    | value =>
      cases field' with
      | key => exact absurd same.symm (field_names_differ stream' stream)
      | value => exact ⟨append_name_injective same, rfl⟩
  · rintro ⟨rfl, rfl⟩
    rfl

theorem SubjectNaming.byTopicAndRecord_inj (context other : Context) (record : String) :
    byTopicAndRecord.subject context record = byTopicAndRecord.subject other record ↔
      context.stream = other.stream :=
  ⟨append_name_injective, fun same => congrArg (· ++ "-" ++ record) same⟩

end Naming

namespace Session

variable {α ι : Type}

def Event.call : Event ι → ι
  | .poll i => i
  | .answer i _ => i

variable (encoder : Encoder α) (calls : ι → Call α)

def Concerns (subject : String) (i : ι) : Prop := encoder.subject (calls i).context = subject

instance (subject : String) (i : ι) : Decidable (Concerns encoder calls subject i) :=
  inferInstanceAs (Decidable (_ = _))

/-- The whole of a session and what is left of it when only the calls about one subject are made show
the same to these. -/
structure Shows (subject : String) (whole own : Session ι) : Prop where
  entry : own.cache.get? subject = whole.cache.get? subject
  stages : ∀ i, Concerns encoder calls subject i → own.stage i = whole.stage i
  asked : own.asked = whole.asked.filter fun sent => Concerns encoder calls subject sent.1

variable {encoder calls}

theorem shows_opened {cache other : SubjectCache} {subject : String}
    (entry : other.get? subject = cache.get? subject) :
    Shows encoder calls subject (opened cache : Session ι) (opened other) :=
  ⟨entry, fun _ _ => rfl, rfl⟩

variable [DecidableEq ι]

theorem step_entry (session : Session ι) (event : Event ι) (subject : String) :
    (session.step encoder calls event).cache.get? subject = session.cache.get? subject ∨
      Concerns encoder calls subject event.call ∧ ∃ reply, event = .answer event.call (.ok reply) ∧
        (session.step encoder calls event).cache.get? subject = some reply.schemaId := by
  cases event with
  | poll i =>
    rw [step, poll_cache]
    exact .inl rfl
  | answer i reply =>
    rw [step]
    rcases answer_cases encoder calls session i reply with same | ⟨_, cache, _, _, resumed, same⟩
    · rw [same]
      exact .inl rfl
    · rw [same]
      have written := encoder.resume_entry session.cache (calls i).object (calls i).context reply subject
      rw [resumed] at written
      rcases written with kept | ⟨own, _, answer, rfl, entry⟩
      · exact .inl kept
      · exact .inr ⟨own, answer, rfl, entry⟩

section Steps

variable {subject : String} {whole own : Session ι} (shows : Shows encoder calls subject whole own)
include shows

theorem Shows.place (i : ι) (stage : Stage) :
    ∀ j, Concerns encoder calls subject j →
      (own.place i stage).stage j = (whole.place i stage).stage j := by
  intro j about
  by_cases self : j = i
  · rw [self, place_same, place_same]
  · rw [place_other _ _ self, place_other _ _ self]
    exact shows.stages j about

theorem Shows.place_elsewhere {i : ι} (elsewhere : ¬ Concerns encoder calls subject i) (stage : Stage) :
    ∀ j, Concerns encoder calls subject j → own.stage j = (whole.place i stage).stage j := by
  intro j about
  have differ : j ≠ i := by
    rintro rfl
    exact elsewhere about
  rw [place_other _ _ differ]
  exact shows.stages j about

theorem Shows.step_elsewhere {event : Event ι}
    (elsewhere : ¬ Concerns encoder calls subject event.call) :
    Shows encoder calls subject (whole.step encoder calls event) own := by
  have entry : own.cache.get? subject = (whole.step encoder calls event).cache.get? subject := by
    rcases step_entry whole event subject with kept | ⟨about, _⟩
    · exact shows.entry.trans kept.symm
    · exact absurd about elsewhere
  cases event with
  | poll i =>
    rw [step] at entry ⊢
    rcases poll_cases encoder calls whole i with
      same | ⟨outcome, _, _, same⟩ | ⟨request, _, _, same⟩
    all_goals rw [same] at entry ⊢
    · exact shows
    · exact ⟨entry, shows.place_elsewhere elsewhere _, shows.asked⟩
    · refine ⟨entry, shows.place_elsewhere elsewhere _, ?_⟩
      have silent : ¬ decide (Concerns encoder calls subject i) = true :=
        fun about => elsewhere (of_decide_eq_true about)
      rw [List.filter_append, List.filter_cons, if_neg silent, List.filter_nil, List.append_nil]
      exact shows.asked
  | answer i reply =>
    rw [step] at entry ⊢
    rcases answer_cases encoder calls whole i reply with same | ⟨_, cache, outcome, _, _, same⟩
    all_goals rw [same] at entry ⊢
    · exact shows
    · exact ⟨entry, shows.place_elsewhere elsewhere _, shows.asked⟩

theorem Shows.poll {i : ι} (about : Concerns encoder calls subject i) :
    Shows encoder calls subject (whole.poll encoder calls i) (own.poll encoder calls i) := by
  cases about
  have opening := encoder.begin_of_entry shows.entry (calls i).object
  unfold Session.poll
  -- Both are at one stage, and what the cache holds besides is not read.
  rw [shows.stages i rfl]
  cases whole.stage i with
  | fresh =>
    simp only [opening]
    cases encoder.begin whole.cache (calls i).object (calls i).context with
    | done outcome => exact ⟨shows.entry, shows.place i _, shows.asked⟩
    | asks request =>
      refine ⟨shows.entry, shows.place i _, ?_⟩
      have heard : decide (Concerns encoder calls (encoder.subject (calls i).context) i) = true :=
        decide_eq_true rfl
      simp only
      rw [List.filter_append, List.filter_cons, if_pos heard, List.filter_nil, shows.asked]
  | asking request => exact shows
  | ended outcome => exact shows

theorem Shows.answer {i : ι} (about : Concerns encoder calls subject i)
    (reply : Except RegistryError Reply) :
    Shows encoder calls subject (whole.answer encoder calls i reply)
      (own.answer encoder calls i reply) := by
  cases about
  obtain ⟨outcome, entry⟩ := encoder.resume_of_entry shows.entry (calls i).object reply
  unfold Session.answer
  rw [shows.stages i rfl]
  cases whole.stage i with
  | fresh => exact shows
  | asking request =>
    refine ⟨entry, ?_, shows.asked⟩
    simp only [outcome]
    exact shows.place i _
  | ended outcome => exact shows

end Steps

/-- A run shows the calls about a subject what their own steps alone would. -/
theorem Shows.run {subject : String} {whole own : Session ι}
    (shows : Shows encoder calls subject whole own) (events : List (Event ι)) :
    Shows encoder calls subject (whole.run encoder calls events)
      (own.run encoder calls (events.filter fun event => Concerns encoder calls subject event.call)) := by
  -- An event about the subject moves both, any other the whole session only.
  induction events generalizing whole own with
  | nil => exact shows
  | cons event rest ih =>
    by_cases about : Concerns encoder calls subject event.call
    · rw [List.filter_cons, if_pos (decide_eq_true about)]
      refine ih ?_
      cases event with
      | poll i => exact shows.poll about
      | answer i reply => exact shows.answer about reply
    · have skipped : ¬ decide (Concerns encoder calls subject event.call) = true :=
        fun chosen => about (of_decide_eq_true chosen)
      rw [List.filter_cons, if_neg skipped]
      exact ih (shows.step_elsewhere about)

theorem run_entry {session : Session ι} {events : List (Event ι)} {subject : String} {id : UInt32}
    (known : (session.run encoder calls events).cache.get? subject = some id) :
    session.cache.get? subject = some id ∨
      ∃ i reply, Concerns encoder calls subject i ∧ Event.answer i (.ok reply) ∈ events ∧
        reply.schemaId = id := by
  induction events generalizing session with
  | nil => exact .inl known
  | cons event rest ih =>
    rcases ih known with earlier | ⟨i, reply, about, member, same⟩
    · rcases step_entry session event subject with kept | ⟨about, reply, answer, entry⟩
      · exact .inl (kept.symm.trans earlier)
      · refine .inr ⟨event.call, reply, about, ?_, Option.some.inj (entry.symm.trans earlier)⟩
        rw [← answer]
        exact List.mem_cons_self
    · exact .inr ⟨i, reply, about, List.mem_cons_of_mem event member, same⟩

/-- Subjects formed from the stream and the field are the same exactly where both are, and those formed
from the stream and the record name exactly where the stream is. So with the former a step of a call writes
nothing for another context; the calls of one context give, ask and leave behind what they would if the
others were never made and the cache knew nothing of them, or anything else; and the id of a frame was
known to begin with for its own context, or answers a call of that context. -/
theorem contexts_apart (encoder : Encoder α) :
    (encoder.options.naming = .byTopicAndRecord → ∀ context other,
      encoder.subject context = encoder.subject other ↔ context.stream = other.stream) ∧
    (encoder.options.naming = .byTopic →
      (∀ context other, encoder.subject context = encoder.subject other ↔
        context.stream = other.stream ∧ context.field = other.field) ∧
      ∀ (calls : ι → Call α) (cache : SubjectCache) (events : List (Event ι)) (context : Context),
        let whole := (opened cache).run encoder calls events
        (∀ event, (calls event.call).context ≠ context →
          (whole.step encoder calls event).cache.get? (encoder.subject context) =
            whole.cache.get? (encoder.subject context)) ∧
        (∀ other : SubjectCache,
          other.get? (encoder.subject context) = cache.get? (encoder.subject context) →
          let own := (opened other).run encoder calls
            (events.filter fun event => (calls event.call).context = context)
          own.cache.get? (encoder.subject context) = whole.cache.get? (encoder.subject context) ∧
          (∀ i, (calls i).context = context → own.stage i = whole.stage i) ∧
          own.asked = whole.asked.filter fun sent => (calls sent.1).context = context) ∧
        ∀ i frame, (calls i).context = context → whole.stage i = .ended (.ok (some frame)) →
          ∃ id, (frame.drop 1).take 4 = Envelope.idBytes id ∧
            (cache.get? (encoder.subject context) = some id ∨
              ∃ j reply, (calls j).context = context ∧ Event.answer j (.ok reply) ∈ events ∧
                reply.schemaId = id)) := by
  constructor
  · intro byRecord context other
    rw [Encoder.subject, Encoder.subject, byRecord]
    exact SubjectNaming.byTopicAndRecord_inj context other encoder.recordName
  · intro byTopic
    have apart (context other : Context) : encoder.subject context = encoder.subject other ↔
        context.stream = other.stream ∧ context.field = other.field := by
      rw [Encoder.subject, Encoder.subject, byTopic]
      exact SubjectNaming.byTopic_inj context other encoder.recordName
    refine ⟨apart, ?_⟩
    intro calls cache events context whole
    have about (i : ι) :
        Concerns encoder calls (encoder.subject context) i ↔ (calls i).context = context :=
      (apart _ _).trans Context.ext_iff.symm
    refine ⟨?_, ?_, ?_⟩
    · intro event elsewhere
      rcases step_entry whole event (encoder.subject context) with kept | ⟨concerned, _⟩
      · exact kept
      · exact absurd ((about _).mp concerned) elsewhere
    · intro other entry own
      have shown : Shows encoder calls (encoder.subject context) whole _ :=
        (shows_opened entry).run events
      have asked := shown.asked
      simp only [about] at shown asked
      exact ⟨shown.entry, fun i same => shown.stages i ((about i).mpr same), asked⟩
    · intro i frame same ended
      obtain ⟨id, carried, known⟩ := run_framed encoder calls cache events i frame ended
      rw [same] at known
      refine ⟨id, carried, ?_⟩
      rcases run_entry known with start | ⟨j, reply, concerned, member, answered⟩
      · exact .inl start
      · exact .inr ⟨j, reply, (about j).mp concerned, member, answered⟩

def neighbours : Nat → Call Unit
  | 1 => ⟨some (), ⟨"s-value", .value⟩⟩
  | 2 => ⟨some (), ⟨"s-value", .key⟩⟩
  | _ => ⟨some (), ⟨"s", .value⟩⟩

def adjoining : List (Event Nat) :=
  [.poll 0, .poll 1, .answer 1 (.ok (.id 7)), .poll 2, .answer 0 (.ok (.id 5)), .poll 3]

theorem contexts_apart_neighbours :
    let whole := (opened .empty).run constant neighbours adjoining
    let own := (opened ⟨[("s-value-value", 3)]⟩).run constant neighbours
      [.poll 0, .answer 0 (.ok (.id 5)), .poll 3]
    constant.subject ⟨"s-value", .value⟩ ≠ constant.subject ⟨"s", .value⟩ ∧
    (whole.step constant neighbours (.answer 2 (.ok (.id 8)))).cache.get? "s-value" = some 5 ∧
    whole.stage 3 = .ended (.ok (some [0, 0, 0, 0, 5, 110, 117, 108, 108])) ∧
    own.stage 3 = whole.stage 3 ∧
    own.asked = [(0, constant.request "s-value")] := by
  intro whole own
  obtain ⟨apart, runs⟩ := (@contexts_apart Unit Nat _ constant).2 rfl
  obtain ⟨written, alone, _⟩ := runs neighbours .empty adjoining ⟨"s", .value⟩
  obtain ⟨_, stages, asked⟩ := alone ⟨[("s-value-value", 3)]⟩ rfl
  have known : whole.cache.get? "s-value" = some 5 := rfl
  refine ⟨?_, ?_, rfl, stages 3 rfl, asked⟩
  · intro same
    exact absurd ((apart _ _).mp same).1 (by decide)
  · exact (written (.answer 2 (.ok (.id 8))) (by decide)).trans known

end Session
end FramedJson
