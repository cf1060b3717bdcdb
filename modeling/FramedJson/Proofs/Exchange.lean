import FramedJson.Proofs.Session
import FramedJson.Proofs.SoleClient

/-!
Calls that overlap on a registry without other clients end as they do one after the other, and leave
the same ids, versions and cache. Each step keeps every call to the outcome it would have alone.
-/
namespace FramedJson.Exchange

variable {α ι : Type} (encoder : Encoder α) (registry : MemoryRegistry) (known : SubjectCache)
  (calls : ι → Call α)

def Replied (exchange : Exchange ι) (subject : String) : Prop :=
  ∃ i reply, exchange.replies i = some reply ∧ encoder.subject (calls i).context = subject

/-- What the stage of a call says about the encoder and the registry. -/
def Fits (served : String → Prop) (cache : SubjectCache) (call : Call α) : Stage → Prop
  | .fresh => True
  | .asking request =>
    encoder.Needs known call ∧ request = encoder.request (encoder.subject call.context)
  | .ended outcome => encoder.Done registry known served cache call outcome

structure Faithful (exchange : Exchange ι) : Prop where
  consistent : encoder.Consistent registry known (Replied encoder calls exchange)
    exchange.registry.catalog exchange.session.cache
  fits : ∀ i, Fits encoder registry known (Replied encoder calls exchange)
    exchange.session.cache (calls i) (exchange.session.stage i)
  replied : ∀ i reply, exchange.replies i = some reply → encoder.Needs known (calls i) ∧
    reply = encoder.answerTo registry (encoder.subject (calls i).context)

variable {encoder registry known calls}

theorem Fits.mono {served more : String → Prop} {cache later : SubjectCache} {call : Call α}
    {stage : Stage} (fits : Fits encoder registry known served cache call stage)
    (wider : ∀ subject, served subject → more subject) (grows : cache.Grows later) :
    Fits encoder registry known more later call stage := by
  cases stage with
  | fresh => trivial
  | asking request => exact fits
  | ended outcome => exact Encoder.Done.mono fits wider grows

theorem faithful_start : Faithful encoder registry known calls (opened registry known) where
  consistent := by
    have none : Replied encoder calls (opened registry known) = fun _ => False := by
      funext subject
      exact propext ⟨fun ⟨i, reply, arrived, _⟩ => (nomatch arrived), False.elim⟩
    rw [none]
    exact Encoder.consistent_start
  fits := fun _ => trivial
  replied := fun _ _ arrived => nomatch arrived

theorem Faithful.done {exchange : Exchange ι}
    (faithful : Faithful encoder registry known calls exchange) {i : ι} {outcome : Encoder.Outcome}
    (ended : exchange.session.stage i = .ended outcome) :
    encoder.Done registry known (Replied encoder calls exchange) exchange.session.cache (calls i)
      outcome := by
  have fits := faithful.fits i
  rw [ended] at fits
  exact fits

variable [DecidableEq ι]

section Answered

variable {exchange : Exchange ι} {i : ι} {reply : Except RegistryError Reply}

theorem answered_same (served : MemoryRegistry) :
    (exchange.answered i served reply).replies i = some reply := if_pos rfl

theorem answered_other {j : ι} (differ : j ≠ i) (served : MemoryRegistry) :
    (exchange.answered i served reply).replies j = exchange.replies j := if_neg differ

theorem serve_cases (exchange : Exchange ι) (i : ι) :
    exchange.serve i = exchange ∨
    (∃ request, exchange.session.stage i = .asking request ∧ exchange.replies i = none ∧
      exchange.serve i = exchange.answered i (exchange.registry.serve request).1
        (exchange.registry.serve request).2) := by
  unfold Exchange.serve
  cases exchange.session.stage i with
  | fresh => exact .inl rfl
  | ended outcome => exact .inl rfl
  | asking request =>
    cases exchange.replies i with
    | some reply => exact .inl rfl
    | none => exact .inr ⟨request, rfl, rfl, rfl⟩

theorem replied_answered (absent : exchange.replies i = none) (served : MemoryRegistry) :
    Replied encoder calls (exchange.answered i served reply) =
      fun subject => Replied encoder calls exchange subject ∨
        subject = encoder.subject (calls i).context := by
  funext subject
  refine propext ⟨?_, ?_⟩
  · rintro ⟨j, other, arrived, rfl⟩
    by_cases self : j = i
    · exact .inr (congrArg (fun j => encoder.subject (calls j).context) self)
    · exact .inl ⟨j, other, (answered_other self served).symm.trans arrived, rfl⟩
  · rintro (⟨j, other, arrived, rfl⟩ | rfl)
    · have differ : j ≠ i := by
        rintro rfl
        cases absent.symm.trans arrived
      exact ⟨j, other, (answered_other differ served).trans arrived, rfl⟩
    · exact ⟨i, reply, answered_same served, rfl⟩

end Answered

section Steps

variable {exchange : Exchange ι} (faithful : Faithful encoder registry known calls exchange) (i : ι)
include faithful

theorem Faithful.poll : Faithful encoder registry known calls
    { exchange with session := exchange.session.poll encoder calls i } := by
  obtain ⟨consistent, fits, replied⟩ := faithful
  rcases Session.poll_cases encoder calls exchange.session i with
    same | ⟨outcome, fresh, opening, same⟩ | ⟨request, fresh, opening, same⟩
  all_goals rw [same]
  · exact ⟨consistent, fits, replied⟩
  · exact ⟨consistent, Session.place_all fits (consistent.begin opening), replied⟩
  · obtain ⟨object, present, absent, asked⟩ := encoder.begin_asks opening
    exact ⟨consistent,
      Session.place_all fits ⟨⟨⟨object, present⟩, consistent.unknown absent⟩, asked⟩, replied⟩

theorem Faithful.serve : Faithful encoder registry known calls (exchange.serve i) := by
  obtain ⟨consistent, fits, replied⟩ := faithful
  rcases serve_cases exchange i with same | ⟨request, stands, absent, same⟩
  all_goals rw [same]
  · exact ⟨consistent, fits, replied⟩
  · obtain ⟨needs, rfl⟩ : Fits encoder registry known _ _ (calls i) (.asking request) :=
      stands ▸ fits i
    obtain ⟨answered, asked⟩ := consistent.serve (encoder.subject (calls i).context)
    rw [MemoryRegistry.serve_eq, answered]
    refine ⟨?_, ?_, ?_⟩
    · rw [replied_answered absent]
      exact asked
    · rw [replied_answered absent]
      exact fun j => (fits j).mono (fun _ was => .inl was) (SubjectCache.Grows.refl _)
    · intro j other arrived
      by_cases self : j = i
      · subst self
        exact ⟨needs, Option.some.inj (arrived.symm.trans (answered_same _))⟩
      · exact replied j other ((answered_other self _).symm.trans arrived)

theorem Faithful.deliver : Faithful encoder registry known calls
    (exchange.deliver encoder calls i) := by
  obtain ⟨consistent, fits, replied⟩ := faithful
  unfold Exchange.deliver
  cases arrived : exchange.replies i with
  | none => exact ⟨consistent, fits, replied⟩
  | some reply =>
    obtain ⟨needs, rfl⟩ := replied i reply arrived
    dsimp only
    rcases Session.answer_cases encoder calls exchange.session i
      (encoder.answerTo registry (encoder.subject (calls i).context)) with
      same | ⟨request, cache, outcome, asking, resumed, same⟩
    · rw [same]
      exact ⟨consistent, fits, replied⟩
    · rw [same]
      have grows := encoder.resume_grows exchange.session.cache (calls i).object (calls i).context
        (encoder.answerTo registry (encoder.subject (calls i).context))
      rw [resumed] at grows
      obtain ⟨learnt, done⟩ := consistent.resume needs ⟨i, _, arrived, rfl⟩ resumed
      exact ⟨learnt, Session.place_all (fun j => (fits j).mono (fun _ was => was) grows) done, replied⟩

theorem Faithful.step (event : Event ι) :
    Faithful encoder registry known calls (exchange.step encoder calls event) := by
  cases event with
  | poll i => exact faithful.poll i
  | serve i => exact faithful.serve i
  | deliver i => exact faithful.deliver i

end Steps

theorem run_append (exchange : Exchange ι) (past future : List (Event ι)) :
    exchange.run encoder calls (past ++ future) =
      (exchange.run encoder calls past).run encoder calls future :=
  List.foldl_append

theorem run_keeps {P : Exchange ι → Prop}
    (kept : ∀ exchange event, P exchange → P (exchange.step encoder calls event))
    {exchange : Exchange ι} (holds : P exchange) (events : List (Event ι)) :
    P (exchange.run encoder calls events) :=
  List.foldlRecOn events _ holds fun exchange holds event _ => kept exchange event holds

theorem run_faithful (events : List (Event ι)) :
    Faithful encoder registry known calls ((opened registry known).run encoder calls events) :=
  run_keeps (fun _ event faithful => faithful.step event) faithful_start events

section Progress

variable {i : ι}

theorem step_other (encoder : Encoder α) (calls : ι → Call α) (exchange : Exchange ι)
    {event : Event ι} (differ : i ≠ event.call) :
    (exchange.step encoder calls event).session.stage i = exchange.session.stage i ∧
      (exchange.step encoder calls event).replies i = exchange.replies i := by
  cases event with
  | poll j =>
    rw [step]
    refine ⟨?_, rfl⟩
    rcases Session.poll_cases encoder calls exchange.session j with
      same | ⟨_, _, _, same⟩ | ⟨_, _, _, same⟩
    all_goals rw [same]
    · exact Session.place_other exchange.session _ differ
    · exact Session.place_other exchange.session _ differ
  | serve j =>
    rw [step]
    rcases serve_cases exchange j with same | ⟨_, _, _, same⟩
    all_goals rw [same]
    · exact ⟨rfl, rfl⟩
    · exact ⟨rfl, answered_other differ _⟩
  | deliver j =>
    rw [step, deliver]
    cases exchange.replies j with
    | none => exact ⟨rfl, rfl⟩
    | some reply =>
      refine ⟨?_, rfl⟩
      rcases Session.answer_cases encoder calls exchange.session j reply with
        same | ⟨_, _, _, _, _, same⟩
      · exact congrArg (fun session : Session ι => session.stage i) same
      · exact (congrArg (fun session : Session ι => session.stage i) same).trans
          (Session.place_other exchange.session _ differ)

theorem run_other (encoder : Encoder α) (calls : ι → Call α) (exchange : Exchange ι)
    {events : List (Event ι)} (differ : ∀ event ∈ events, i ≠ event.call) :
    (exchange.run encoder calls events).session.stage i = exchange.session.stage i ∧
      (exchange.run encoder calls events).replies i = exchange.replies i := by
  induction events generalizing exchange with
  | nil => exact ⟨rfl, rfl⟩
  | cons event rest ih =>
    have here := step_other encoder calls exchange (differ event List.mem_cons_self)
    have there := ih (exchange.step encoder calls event)
      fun other member => differ other (List.mem_cons_of_mem event member)
    exact ⟨there.1.trans here.1, there.2.trans here.2⟩

theorem run_serve_deliver (encoder : Encoder α) (calls : ι → Call α) {exchange : Exchange ι}
    {request : Request} (stands : exchange.session.stage i = .asking request)
    (absent : exchange.replies i = none) :
    let final := exchange.run encoder calls [.serve i, .deliver i]
    let resumed := encoder.resume exchange.session.cache (calls i).object (calls i).context
      (exchange.registry.serve request).2
    final.registry = (exchange.registry.serve request).1 ∧
      final.session.cache = resumed.1 ∧ final.session.stage i = .ended resumed.2 := by
  have served : exchange.serve i = exchange.answered i (exchange.registry.serve request).1
      (exchange.registry.serve request).2 := by
    simp [serve, stands, absent]
  simp [run, step, deliver, served, Session.answer, answered, stands,
    Session.place]

/-- What an event brings about, a run that contains it brings about, if later events undo neither
that nor what it took. -/
theorem run_reaches {P Q : Exchange ι → Prop} {event : Event ι} {events : List (Event ι)}
    (keptP : ∀ exchange event, P exchange → P (exchange.step encoder calls event))
    (keptQ : ∀ exchange event, Q exchange → Q (exchange.step encoder calls event))
    (makes : ∀ exchange, P exchange → Q (exchange.step encoder calls event))
    {exchange : Exchange ι} (holds : P exchange) (member : event ∈ events) :
    Q (exchange.run encoder calls events) := by
  induction events generalizing exchange with
  | nil => cases member
  | cons first rest ih =>
    rcases List.mem_cons.mp member with rfl | member
    · exact run_keeps keptQ (makes exchange holds) rest
    · exact ih (keptP exchange first holds) member

def Begun (i : ι) (exchange : Exchange ι) : Prop := exchange.session.stage i ≠ .fresh

def Ended (i : ι) (exchange : Exchange ι) : Prop :=
  ∃ outcome, exchange.session.stage i = .ended outcome

def Answered (i : ι) (exchange : Exchange ι) : Prop :=
  Ended i exchange ∨ Begun i exchange ∧ ∃ reply, exchange.replies i = some reply

theorem step_session (encoder : Encoder α) (calls : ι → Call α) (exchange : Exchange ι)
    (event : Event ι) :
    (exchange.step encoder calls event).session = exchange.session ∨
      ∃ inner, (exchange.step encoder calls event).session =
        exchange.session.step encoder calls inner := by
  cases event with
  | poll j => exact .inr ⟨.poll j, rfl⟩
  | serve j =>
    refine .inl ?_
    rw [step]
    rcases serve_cases exchange j with same | ⟨_, _, _, same⟩
    all_goals rw [same]
    rfl
  | deliver j =>
    rw [step, deliver]
    cases exchange.replies j with
    | none => exact .inl rfl
    | some reply => exact .inr ⟨.answer j reply, rfl⟩

theorem step_keeps_ended (exchange : Exchange ι) (event : Event ι) (ended : Ended i exchange) :
    Ended i (exchange.step encoder calls event) := by
  obtain ⟨outcome, ended⟩ := ended
  rcases step_session encoder calls exchange event with
    same | ⟨inner, same⟩
  · exact ⟨outcome, same ▸ ended⟩
  · exact ⟨outcome, same ▸ Session.step_keeps_ended encoder calls inner ended⟩

theorem step_keeps_begun (exchange : Exchange ι) (event : Event ι) (begun : Begun i exchange) :
    Begun i (exchange.step encoder calls event) := by
  unfold Begun
  rcases step_session encoder calls exchange event with
    same | ⟨inner, same⟩
  · rw [same]
    exact begun
  · rw [same]
    exact Session.step_keeps_begun encoder calls inner begun

theorem step_keeps_reply (exchange : Exchange ι) (event : Event ι)
    {reply : Except RegistryError Reply} (arrived : exchange.replies i = some reply) :
    (exchange.step encoder calls event).replies i = some reply := by
  cases event with
  | poll j => exact arrived
  | serve j =>
    rw [step]
    rcases serve_cases exchange j with same | ⟨_, _, absent, same⟩
    all_goals rw [same]
    · exact arrived
    · have differ : i ≠ j := by
        rintro rfl
        cases absent.symm.trans arrived
      exact (answered_other differ _).trans arrived
  | deliver j =>
    rw [step, deliver]
    cases exchange.replies j with
    | none => exact arrived
    | some other => exact arrived

theorem step_keeps_answered (exchange : Exchange ι) (event : Event ι)
    (answered : Answered i exchange) : Answered i (exchange.step encoder calls event) := by
  rcases answered with ended | ⟨begun, reply, arrived⟩
  · exact .inl (step_keeps_ended exchange event ended)
  · exact .inr ⟨step_keeps_begun exchange event begun, reply,
      step_keeps_reply exchange event arrived⟩

theorem poll_begins (exchange : Exchange ι) :
    Begun i (exchange.step encoder calls (.poll i)) :=
  Session.poll_begun encoder calls exchange.session i

theorem serve_answers (exchange : Exchange ι) (begun : Begun i exchange) :
    Answered i (exchange.step encoder calls (.serve i)) := by
  change Answered i (exchange.serve i)
  unfold serve
  cases stands : exchange.session.stage i with
  | fresh => exact absurd stands begun
  | ended outcome => exact .inl ⟨outcome, stands⟩
  | asking request =>
    cases arrived : exchange.replies i with
    | some reply => exact .inr ⟨begun, reply, arrived⟩
    | none => exact .inr ⟨begun, _, answered_same _⟩

theorem deliver_ends (exchange : Exchange ι) (answered : Answered i exchange) :
    Ended i (exchange.step encoder calls (.deliver i)) := by
  rcases answered with ended | ⟨begun, reply, arrived⟩
  · exact step_keeps_ended exchange _ ended
  · simp only [step, deliver, arrived, Session.answer]
    cases stands : exchange.session.stage i with
    | fresh => exact absurd stands begun
    | asking request => exact ⟨_, Session.place_same _ _ i⟩
    | ended outcome => exact ⟨outcome, stands⟩

theorem run_ends {events : List (Event ι)}
    (seen : [Event.poll i, .serve i, .deliver i].Sublist events) (exchange : Exchange ι) :
    Ended i (exchange.run encoder calls events) := by
  obtain ⟨before, rest, rfl, polled, seen⟩ := List.cons_sublist_iff.mp seen
  obtain ⟨between, last, rfl, served, seen⟩ := List.cons_sublist_iff.mp seen
  have delivered : Event.deliver i ∈ last := List.singleton_sublist.mp seen
  have begun : Begun i (exchange.run encoder calls before) :=
    run_reaches (P := fun _ => True) (fun _ _ _ => trivial) step_keeps_begun
      (fun exchange _ => poll_begins exchange) trivial polled
  have answered : Answered i ((exchange.run encoder calls before).run encoder calls between) :=
    run_reaches step_keeps_begun step_keeps_answered serve_answers begun served
  rw [run_append, run_append]
  exact run_reaches step_keeps_answered step_keeps_ended deliver_ends answered delivered

end Progress

theorem Faithful.concluded {encoder : Encoder α} {registry : MemoryRegistry}
    {known : SubjectCache} {calls : List (Call α)} {exchange : Exchange (Fin calls.length)}
    (faithful : Faithful encoder registry known calls.get exchange)
    (ended : ∀ i, Ended i exchange) :
    encoder.Concluded registry known calls exchange.registry.catalog exchange.session.cache := by
  refine faithful.consistent.concluded ?_ ?_
  · rintro _ ⟨i, reply, arrived, rfl⟩
    exact ⟨calls.get i, List.get_mem calls i, (faithful.replied i reply arrived).1, rfl⟩
  · intro call member
    obtain ⟨i, rfl⟩ := List.mem_iff_get.mp member
    obtain ⟨outcome, ended⟩ := ended i
    exact ⟨outcome, faithful.done ended⟩

/-- Calls that overlap on a registry without other clients, in any order of their polls and however
long their requests and replies are under way. Each ends as in the run that waits for one call after
the other, and once all have ended the cache and the registry hold the same. A call ends as soon as
it has been polled, served and given its reply. -/
theorem overlapping_as_sequential (encoder : Encoder α) (registry : MemoryRegistry)
    (cache : SubjectCache) (calls : List (Call α)) (events : List (Event (Fin calls.length))) :
    let final := (opened registry cache).run encoder calls.get events
    let sequential := encoder.encodeAll registry cache calls
    (∀ i outcome, final.session.stage i = .ended outcome →
      sequential.2.2[i.val]? = some outcome) ∧
    (∀ i, [Event.poll i, .serve i, .deliver i].Sublist events →
      ∃ outcome, final.session.stage i = .ended outcome) ∧
    ((∀ i, ∃ outcome, final.session.stage i = .ended outcome) →
      (∀ subject, final.session.cache.get? subject = sequential.2.1.get? subject) ∧
      final.registry.catalog.Same sequential.1.catalog) := by
  intro final sequential
  have faithful : Faithful encoder registry cache calls.get final := run_faithful events
  obtain ⟨outcomes, concluded⟩ : sequential.2.2 = calls.map (encoder.alone registry cache) ∧
      encoder.Concluded registry cache calls sequential.1.catalog sequential.2.1 :=
    Encoder.encodeAll_concluded rfl
  refine ⟨?_, fun i seen => run_ends seen _, ?_⟩
  · intro i outcome ended
    rw [outcomes, (faithful.done ended).outcome, List.getElem?_map]
    simp
  · intro ended
    obtain ⟨same, entries⟩ := (faithful.concluded ended).unique concluded
    exact ⟨entries, same⟩

end FramedJson.Exchange
