import FramedJson.Session
import FramedJson.Proofs.Encoder

namespace FramedJson.Session

variable {α ι : Type}

section Place

variable [DecidableEq ι] (session : Session ι) {i j : ι} (stage : Stage)

theorem place_same (i : ι) : (session.place i stage).stage i = stage := if_pos rfl

theorem place_other (differ : j ≠ i) : (session.place i stage).stage j = session.stage j :=
  if_neg differ

variable {session stage}

theorem place_all {P : ι → Stage → Prop} (all : ∀ j, P j (session.stage j)) (one : P i stage) :
    ∀ j, P j ((session.place i stage).stage j) := by
  intro j
  by_cases self : j = i
  · subst self
    rw [place_same]
    exact one
  · rw [place_other session stage self]
    exact all j

end Place

variable [DecidableEq ι] (encoder : Encoder α) (calls : ι → Call α)

theorem poll_cases (session : Session ι) (i : ι) :
    session.poll encoder calls i = session ∨
    (∃ outcome, session.stage i = .fresh ∧
      encoder.begin session.cache (calls i).object (calls i).context = .done outcome ∧
      session.poll encoder calls i = session.place i (.ended outcome)) ∨
    (∃ request, session.stage i = .fresh ∧
      encoder.begin session.cache (calls i).object (calls i).context = .asks request ∧
      session.poll encoder calls i =
        { session.place i (.asking request) with asked := session.asked ++ [(i, request)] }) := by
  unfold poll
  cases stands : session.stage i with
  | fresh =>
    cases opening : encoder.begin session.cache (calls i).object (calls i).context with
    | done outcome => exact .inr (.inl ⟨outcome, rfl, rfl, rfl⟩)
    | asks request => exact .inr (.inr ⟨request, rfl, rfl, rfl⟩)
  | asking request => exact .inl rfl
  | ended outcome => exact .inl rfl

theorem answer_cases (session : Session ι) (i : ι) (reply : Except RegistryError Reply) :
    session.answer encoder calls i reply = session ∨
    (∃ request cache outcome, session.stage i = .asking request ∧
      encoder.resume session.cache (calls i).object (calls i).context reply = (cache, outcome) ∧
      session.answer encoder calls i reply =
        { session.place i (.ended outcome) with cache := cache }) := by
  unfold answer
  cases stands : session.stage i with
  | fresh => exact .inl rfl
  | asking request =>
    cases resumed : encoder.resume session.cache (calls i).object (calls i).context reply with
    | mk cache outcome => exact .inr ⟨request, cache, outcome, rfl, rfl, rfl⟩
  | ended outcome => exact .inl rfl

theorem poll_cache (session : Session ι) (i : ι) :
    (session.poll encoder calls i).cache = session.cache := by
  rcases poll_cases encoder calls session i with same | ⟨_, _, _, same⟩ | ⟨_, _, _, same⟩
  all_goals rw [same]
  all_goals rfl

theorem step_grows (session : Session ι) (event : Event ι) :
    session.cache.Grows (session.step encoder calls event).cache := by
  cases event with
  | poll i =>
    rw [step, poll_cache]
    exact SubjectCache.Grows.refl _
  | answer i reply =>
    rw [step]
    rcases answer_cases encoder calls session i reply with same | ⟨_, _, _, _, resumed, same⟩
    · rw [same]
      exact SubjectCache.Grows.refl _
    · rw [same]
      have grows := encoder.resume_grows session.cache (calls i).object (calls i).context reply
      rw [resumed] at grows
      exact grows

inductive Moves (i : ι) (session next : Session ι) : Prop
  | stays (stage : next.stage i = session.stage i)
      (quiet : ∀ request, (i, request) ∈ next.asked → (i, request) ∈ session.asked)
  | finishes (outcome : Encoder.Outcome) (fresh : session.stage i = .fresh)
      (opening : encoder.begin session.cache (calls i).object (calls i).context = .done outcome)
      (stage : next.stage i = .ended outcome) (quiet : next.asked = session.asked)
  | asks (request : Request) (fresh : session.stage i = .fresh)
      (opening : encoder.begin session.cache (calls i).object (calls i).context = .asks request)
      (stage : next.stage i = .asking request)
  | resumes (request : Request) (outcome : Encoder.Outcome) (reply : Except RegistryError Reply)
      (asking : session.stage i = .asking request)
      (resumed : encoder.resume session.cache (calls i).object (calls i).context reply =
        (next.cache, outcome))
      (stage : next.stage i = .ended outcome) (quiet : next.asked = session.asked)

theorem step_moves (session : Session ι) (event : Event ι) (i : ι) :
    Moves encoder calls i session (session.step encoder calls event) := by
  cases event with
  | poll j =>
    rw [step]
    rcases poll_cases encoder calls session j with
      same | ⟨outcome, fresh, opening, same⟩ | ⟨request, fresh, opening, same⟩
    all_goals rw [same]
    · exact .stays rfl fun _ asked => asked
    · by_cases self : i = j
      · subst self
        exact .finishes outcome fresh opening (place_same session _ i) rfl
      · exact .stays (place_other session _ self) fun _ asked => asked
    · by_cases self : i = j
      · subst self
        exact .asks request fresh opening (place_same session _ i)
      · refine .stays (place_other session _ self) fun sent asked => ?_
        rcases List.mem_append.mp asked with earlier | now
        · exact earlier
        · exact absurd (congrArg Prod.fst (List.mem_singleton.mp now)) self
  | answer j reply =>
    rw [step]
    rcases answer_cases encoder calls session j reply with
      same | ⟨request, cache, outcome, asking, resumed, same⟩
    all_goals rw [same]
    · exact .stays rfl fun _ asked => asked
    · by_cases self : i = j
      · subst self
        exact .resumes request outcome reply asking resumed (place_same session _ i) rfl
      · exact .stays (place_other session _ self) fun _ asked => asked

section Runs

theorem run_append (session : Session ι) (past future : List (Event ι)) :
    session.run encoder calls (past ++ future) =
      (session.run encoder calls past).run encoder calls future :=
  List.foldl_append

theorem run_keeps {P : Session ι → Prop}
    (kept : ∀ session event, P session → P (session.step encoder calls event))
    {session : Session ι} (holds : P session) (events : List (Event ι)) :
    P (session.run encoder calls events) :=
  List.foldlRecOn events _ holds fun session holds event _ => kept session event holds

theorem run_grows (session : Session ι) (events : List (Event ι)) :
    session.cache.Grows (session.run encoder calls events).cache :=
  run_keeps (P := fun later => session.cache.Grows later.cache) encoder calls
    (fun later event grows => grows.trans (step_grows encoder calls later event))
    (SubjectCache.Grows.refl _) events

theorem step_keeps_ended {session : Session ι} {i : ι} {outcome : Encoder.Outcome}
    (event : Event ι) (ended : session.stage i = .ended outcome) :
    (session.step encoder calls event).stage i = .ended outcome := by
  cases step_moves encoder calls session event i with
  | stays stage => exact stage.trans ended
  | finishes _ fresh => cases fresh.symm.trans ended
  | asks _ fresh => cases fresh.symm.trans ended
  | resumes _ _ _ asking => cases asking.symm.trans ended

theorem step_keeps_begun {session : Session ι} {i : ι} (event : Event ι)
    (begun : session.stage i ≠ .fresh) :
    (session.step encoder calls event).stage i ≠ .fresh := by
  intro fresh
  cases step_moves encoder calls session event i with
  | stays stage => exact begun (stage.symm.trans fresh)
  | finishes _ _ _ stage => cases stage.symm.trans fresh
  | asks _ _ _ stage => cases stage.symm.trans fresh
  | resumes _ _ _ _ _ stage => cases stage.symm.trans fresh

theorem poll_begun (session : Session ι) (i : ι) :
    (session.poll encoder calls i).stage i ≠ .fresh := by
  unfold poll
  cases stands : session.stage i with
  | fresh =>
    cases encoder.begin session.cache (calls i).object (calls i).context with
    | done outcome =>
      rw [place_same]
      exact nofun
    | asks request =>
      intro fresh
      cases (place_same session (.asking request) i).symm.trans fresh
  | asking request =>
    rw [stands]
    exact nofun
  | ended outcome =>
    rw [stands]
    exact nofun

theorem run_keeps_ended {session : Session ι} {i : ι} {outcome : Encoder.Outcome}
    (ended : session.stage i = .ended outcome) (events : List (Event ι)) :
    (session.run encoder calls events).stage i = .ended outcome :=
  run_keeps (P := fun later => later.stage i = .ended outcome) encoder calls
    (fun _ event => step_keeps_ended encoder calls event) ended events

end Runs

/-- Every frame given out carries the id by which its subject is known. -/
def Framed (session : Session ι) : Prop :=
  ∀ i frame, session.stage i = .ended (.ok (some frame)) →
    ∃ id, (frame.drop 1).take 4 = Envelope.idBytes id ∧
      session.cache.get? (encoder.subject (calls i).context) = some id

theorem step_framed {session : Session ι} (event : Event ι)
    (framed : Framed encoder calls session) :
    Framed encoder calls (session.step encoder calls event) := by
  have grows := step_grows encoder calls session event
  intro i frame ended
  cases step_moves encoder calls session event i with
  | stays stage =>
    obtain ⟨id, carried, known⟩ := framed i frame (stage.symm.trans ended)
    exact ⟨id, carried, grows _ _ known⟩
  | finishes outcome fresh opening stage =>
    cases Stage.ended.inj (stage.symm.trans ended)
    obtain ⟨object, id, _, known, made⟩ := encoder.begin_frame opening
    exact ⟨id, Encoder.frame_id made, grows _ _ known⟩
  | asks request fresh opening stage => cases stage.symm.trans ended
  | resumes request outcome reply asking resumed stage =>
    cases Stage.ended.inj (stage.symm.trans ended)
    obtain ⟨object, id, _, known, made⟩ := encoder.resume_frame resumed
    exact ⟨id, Encoder.frame_id made, known⟩

theorem run_framed (cache : SubjectCache) (events : List (Event ι)) :
    Framed encoder calls ((opened cache).run encoder calls events) := by
  refine run_keeps encoder calls (fun _ event => step_framed encoder calls event) ?_ events
  intro i frame ended
  cases ended

def Unheard (session : Session ι) : Prop :=
  ∀ i, session.stage i = .fresh → ∀ request, (i, request) ∉ session.asked

theorem step_unheard {session : Session ι} (event : Event ι) (unheard : Unheard session) :
    Unheard (session.step encoder calls event) := by
  intro i fresh request asked
  cases step_moves encoder calls session event i with
  | stays stage quiet => exact unheard i (stage.symm.trans fresh) request (quiet request asked)
  | finishes _ _ _ stage => cases stage.symm.trans fresh
  | asks _ _ _ stage => cases stage.symm.trans fresh
  | resumes _ _ _ _ _ stage => cases stage.symm.trans fresh

theorem run_unheard (cache : SubjectCache) (events : List (Event ι)) :
    Unheard ((opened cache).run encoder calls events) := by
  refine run_keeps encoder calls (fun _ event => step_unheard encoder calls event) ?_ events
  intro i _ request asked
  cases asked

structure Spared (i : ι) (session : Session ι) : Prop where
  known : ∃ id, session.cache.get? (encoder.subject (calls i).context) = some id
  idle : ∀ request, session.stage i ≠ .asking request
  unasked : ∀ request, (i, request) ∉ session.asked

theorem step_spared {i : ι} {session : Session ι} (event : Event ι)
    (spared : Spared encoder calls i session) :
    Spared encoder calls i (session.step encoder calls event) := by
  obtain ⟨⟨id, known⟩, idle, unasked⟩ := spared
  have still := step_grows encoder calls session event _ _ known
  cases step_moves encoder calls session event i with
  | stays stage quiet =>
    refine ⟨⟨id, still⟩, ?_, ?_⟩
    · intro request asking
      exact idle request (stage.symm.trans asking)
    · intro request asked
      exact unasked request (quiet request asked)
  | finishes outcome fresh opening stage quiet =>
    refine ⟨⟨id, still⟩, ?_, ?_⟩
    · intro request asking
      cases stage.symm.trans asking
    · rw [quiet]
      exact unasked
  | asks request fresh opening =>
    obtain ⟨_, _, unknown, _⟩ := encoder.begin_asks opening
    cases known.symm.trans unknown
  | resumes request outcome reply asking => exact absurd asking (idle request)

/-- However calls overlap and whatever the registry answers: outcomes stay; every frame carries the
id of its subject, which is known from then on and by no other id; and a call first polled when its
subject is known does not go to the registry. -/
theorem ids_are_permanent (cache : SubjectCache) (past future : List (Event ι)) :
    let now := (opened cache).run encoder calls past
    let later := now.run encoder calls future
    (∀ i outcome, now.stage i = .ended outcome → later.stage i = .ended outcome) ∧
    (∀ i frame, now.stage i = .ended (.ok (some frame)) →
      ∃ id, (frame.drop 1).take 4 = Envelope.idBytes id ∧
        now.cache.get? (encoder.subject (calls i).context) = some id ∧
        later.cache.get? (encoder.subject (calls i).context) = some id) ∧
    (∀ i j one other, later.stage i = .ended (.ok (some one)) →
      later.stage j = .ended (.ok (some other)) →
      encoder.subject (calls i).context = encoder.subject (calls j).context →
      (one.drop 1).take 4 = (other.drop 1).take 4) ∧
    now.cache.Grows later.cache ∧
    (∀ i id, now.stage i = .fresh →
      now.cache.get? (encoder.subject (calls i).context) = some id →
      ∀ request, (i, request) ∉ later.asked) := by
  intro now later
  have grows : now.cache.Grows later.cache := run_grows encoder calls now future
  refine ⟨?_, ?_, ?_, grows, ?_⟩
  · intro i outcome ended
    exact run_keeps_ended encoder calls ended future
  · intro i frame ended
    obtain ⟨id, carried, known⟩ := run_framed encoder calls cache past i frame ended
    exact ⟨id, carried, known, grows _ _ known⟩
  · intro i j one other first second same
    have framed : Framed encoder calls later := by
      have whole := run_framed encoder calls cache (past ++ future)
      rwa [run_append] at whole
    obtain ⟨id, carried, known⟩ := framed i one first
    obtain ⟨id', carried', known'⟩ := framed j other second
    rw [same, known'] at known
    rw [carried, carried', Option.some.inj known]
  · intro i id fresh known
    have spared : Spared encoder calls i now := by
      refine ⟨⟨id, known⟩, ?_, run_unheard encoder calls cache past i fresh⟩
      intro request asking
      cases fresh.symm.trans asking
    exact (run_keeps encoder calls (fun _ event => step_spared encoder calls event)
      spared future).unasked

def constant : Encoder Unit :=
  ⟨⟨"\x7b\x7d", .json, []⟩, "T", ⟨.bool true, rfl⟩, .default, fun _ _ => .ok .null⟩

def ticks : Nat → Call Unit := fun _ => ⟨some (), ⟨"s", .value⟩⟩

/-- The call that asks last is answered first, and the two answers differ. -/
def overtaking : List (Event Nat) :=
  [.poll 0, .poll 1, .answer 1 (.ok (.id 9)), .answer 0 (.ok (.id 7))]

theorem ids_are_permanent_overtaking :
    let now := (opened .empty).run constant ticks overtaking
    now.stage 0 = .ended (.ok (some [0, 0, 0, 0, 9, 110, 117, 108, 108])) ∧
    now.stage 1 = .ended (.ok (some [0, 0, 0, 0, 9, 110, 117, 108, 108])) ∧
    ∀ request, (2, request) ∉ (now.run constant ticks [.poll 2]).asked :=
  ⟨rfl, rfl, (ids_are_permanent constant ticks .empty overtaking [.poll 2]).2.2.2.2 2 9 rfl rfl⟩

end FramedJson.Session
