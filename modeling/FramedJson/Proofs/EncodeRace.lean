import FramedJson.EncodeRace
import FramedJson.Proofs.Exchange
import FramedJson.Proofs.Race
import Mathlib.Data.List.Forall2

/-!
A race of encoding calls, polled round after round over a link whose plans only hold calls back, is
one of the ways in which the calls of an exchange overlap.
-/
namespace FramedJson

structure Plan.OnlyDelays (plan : Plan) : Prop where
  failure : plan.failure = none
  id : plan.id = none

namespace Link

theorem complete_delayed {plan : Plan} (delays : plan.OnlyDelays) (link : Link)
    (request : Request) :
    link.complete plan request =
      (⟨(link.registry.serve request).1, link.plans⟩, (link.registry.serve request).2) := by
  simp [complete, delays.failure, delays.id]

theorem takePlan_delays {link : Link} (delays : ∀ plan ∈ link.plans, plan.OnlyDelays) :
    link.takePlan.1.OnlyDelays ∧ link.takePlan.2.registry = link.registry ∧
      ∀ plan ∈ link.takePlan.2.plans, plan.OnlyDelays := by
  unfold takePlan
  cases plans : link.plans with
  | nil => exact ⟨⟨rfl, rfl⟩, rfl, delays⟩
  | cons plan rest =>
    rw [plans] at delays
    exact ⟨delays plan List.mem_cons_self, rfl,
      fun other member => delays other (List.mem_cons_of_mem plan member)⟩

end Link

theorem Desk.cacheOf_setCache (desk : Desk) (owner : String) (cache : SubjectCache) :
    (desk.setCache owner cache).cacheOf owner = cache := by
  simp [Desk.cacheOf, Desk.setCache]

namespace EncodeState

section Poll

variable {α : Type} {desk : Desk} {call : EncodeCall α}

theorem poll_done {outcome : Encoder.Outcome}
    (opening : call.encoder.begin (desk.cacheOf call.owner) call.object call.context =
      .done outcome) :
    poll desk (.fresh call) = (desk, .finished outcome) := by
  simp only [poll, opening]

theorem poll_asks {request : Request}
    (opening : call.encoder.begin (desk.cacheOf call.owner) call.object call.context =
      .asks request) :
    poll desk (.fresh call) = await { desk with link := desk.link.takePlan.2 } call request
      desk.link.takePlan.1 desk.link.takePlan.1.delay := by
  simp only [poll, opening]

end Poll

variable {α ι : Type} [DecidableEq ι] (encoder : Encoder α) (owner : String) (calls : ι → Call α)

def seat (call : Call α) : EncodeCall α := ⟨owner, encoder, call.object, call.context⟩

structure Reflects (desk : Desk) (exchange : Exchange ι) : Prop where
  cache : desk.cacheOf owner = exchange.session.cache
  registry : desk.link.registry = exchange.registry
  delays : ∀ plan ∈ desk.link.plans, plan.OnlyDelays

/-- Call `i` stands in the race where it stands in the exchange. -/
def Shows (exchange : Exchange ι) (i : ι) : Progress (EncodeState α) Encoder.Outcome → Prop
  | .pending (.fresh call) =>
    call = seat encoder owner (calls i) ∧ exchange.session.stage i = .fresh ∧
      exchange.replies i = none
  | .pending (.waiting call request plan _) =>
    call = seat encoder owner (calls i) ∧ plan.OnlyDelays ∧
      exchange.session.stage i = .asking request ∧ exchange.replies i = none
  | .finished outcome => exchange.session.stage i = .ended outcome

variable {encoder owner calls} {desk desk' : Desk} {exchange : Exchange ι} {i : ι}
  {progress : Progress (EncodeState α) Encoder.Outcome}

theorem await_simulated {request : Request} {plan : Plan} {delays : Nat}
    (reflects : Reflects owner desk exchange) (held : plan.OnlyDelays)
    (stands : exchange.session.stage i = .asking request) (absent : exchange.replies i = none)
    (awaited : await desk (seat encoder owner (calls i)) request plan delays = (desk', progress)) :
    ∃ events : List (Exchange.Event ι), (∀ event ∈ events, event.call = i) ∧
      Reflects owner desk' (exchange.run encoder calls events) ∧
      Shows encoder owner calls (exchange.run encoder calls events) i progress := by
  cases delays with
  | succ delays =>
    cases awaited
    exact ⟨[], by simp, reflects, rfl, held, stands, absent⟩
  | zero =>
    obtain ⟨registry, cache, stage⟩ :=
      Exchange.run_serve_deliver encoder calls stands absent
    unfold await at awaited
    rw [Link.complete_delayed held, reflects.registry] at awaited
    simp only [seat, reflects.cache] at awaited
    cases awaited
    refine ⟨[.serve i, .deliver i], by simp [Exchange.Event.call], ⟨?_, registry.symm, ?_⟩, stage⟩
    · rw [Desk.cacheOf_setCache, cache]
    · exact reflects.delays

theorem poll_simulated {state : EncodeState α} (reflects : Reflects owner desk exchange)
    (shows : Shows encoder owner calls exchange i (.pending state))
    (polled : poll desk state = (desk', progress)) :
    ∃ events : List (Exchange.Event ι), (∀ event ∈ events, event.call = i) ∧
      Reflects owner desk' (exchange.run encoder calls events) ∧
      Shows encoder owner calls (exchange.run encoder calls events) i progress := by
  cases state with
  | waiting call request plan delays =>
    obtain ⟨rfl, held, stands, absent⟩ := shows
    exact await_simulated reflects held stands absent polled
  | fresh call =>
    obtain ⟨rfl, stands, absent⟩ := shows
    have seen : ∀ opening, encoder.begin exchange.session.cache (calls i).object
        (calls i).context = opening → (seat encoder owner (calls i)).encoder.begin
          (desk.cacheOf owner) (calls i).object (calls i).context = opening := by
      intro opening same
      rw [reflects.cache]
      exact same
    cases opening : encoder.begin exchange.session.cache (calls i).object (calls i).context with
    | done outcome =>
      rw [poll_done (seen _ opening)] at polled
      cases polled
      have ended : exchange.session.poll encoder calls i =
          exchange.session.place i (.ended outcome) := by
        simp [Session.poll, stands, opening]
      refine ⟨[.poll i], by simp [Exchange.Event.call], ⟨?_, reflects.registry, reflects.delays⟩, ?_⟩
      · exact reflects.cache.trans (Session.poll_cache encoder calls exchange.session i).symm
      · change (exchange.session.poll encoder calls i).stage i = _
        rw [ended]
        exact Session.place_same _ _ i
    | asks request =>
      rw [poll_asks (seen _ opening)] at polled
      have asking : (exchange.session.poll encoder calls i).stage i = .asking request := by
        simp [Session.poll, stands, opening, Session.place]
      obtain ⟨held, registry, delays⟩ := Link.takePlan_delays reflects.delays
      have moved : Reflects owner { desk with link := desk.link.takePlan.2 }
          (exchange.step encoder calls (.poll i)) := by
        constructor
        · exact reflects.cache.trans (Session.poll_cache encoder calls exchange.session i).symm
        · exact registry.trans reflects.registry
        · exact delays
      obtain ⟨events, own, after, seen⟩ := await_simulated moved held asking absent polled
      refine ⟨.poll i :: events, ?_, after, seen⟩
      intro event member
      rcases List.mem_cons.mp member with rfl | member
      · rfl
      · exact own event member

theorem Shows.other {events : List (Exchange.Event ι)} {j : ι}
    (shows : Shows encoder owner calls exchange j progress)
    (differ : ∀ event ∈ events, j ≠ event.call) :
    Shows encoder owner calls (exchange.run encoder calls events) j progress := by
  obtain ⟨stage, replies⟩ := Exchange.run_other encoder calls exchange differ
  cases progress with
  | finished outcome => exact stage.trans shows
  | pending state =>
    cases state with
    | fresh call =>
      obtain ⟨same, stands, absent⟩ := shows
      exact ⟨same, stage.trans stands, replies.trans absent⟩
    | waiting call request plan delays =>
      obtain ⟨same, held, stands, absent⟩ := shows
      exact ⟨same, held, stage.trans stands, replies.trans absent⟩

theorem shows_others {order : List ι} {race : List (Progress (EncodeState α) Encoder.Outcome)}
    (events : List (Exchange.Event ι))
    (shows : List.Forall₂ (Shows encoder owner calls exchange) order race)
    (differ : ∀ j ∈ order, ∀ event ∈ events, j ≠ event.call) :
    List.Forall₂ (Shows encoder owner calls (exchange.run encoder calls events)) order race := by
  induction shows with
  | nil => exact .nil
  | @cons i progress order race here rest ih =>
    constructor
    · exact here.other (differ i List.mem_cons_self)
    · exact ih fun j member => differ j (List.mem_cons_of_mem i member)

theorem round_simulated {order : List ι}
    {race race' : List (Progress (EncodeState α) Encoder.Outcome)}
    (reflects : Reflects owner desk exchange) (different : order.Nodup)
    (shows : List.Forall₂ (Shows encoder owner calls exchange) order race)
    (round : Race.round poll desk race = (desk', race')) :
    ∃ events : List (Exchange.Event ι), (∀ event ∈ events, event.call ∈ order) ∧
      Reflects owner desk' (exchange.run encoder calls events) ∧
      List.Forall₂ (Shows encoder owner calls (exchange.run encoder calls events)) order race' := by
  induction order generalizing desk exchange race race' with
  | nil =>
    cases shows
    cases round
    exact ⟨[], by simp, reflects, .nil⟩
  | cons i order ih =>
    obtain ⟨fresh, different⟩ := List.nodup_cons.mp different
    cases shows with
    | @cons _ progress _ race here rest =>
      -- The call itself moves by events of its own, then the others, which leave it alone.
      obtain ⟨middle, progress', polled, round⟩ : ∃ middle progress',
          (∃ events : List (Exchange.Event ι), (∀ event ∈ events, event.call = i) ∧
            Reflects owner middle (exchange.run encoder calls events) ∧
            Shows encoder owner calls (exchange.run encoder calls events) i progress') ∧
          race' = progress' :: (Race.round poll middle race).2 ∧
          desk' = (Race.round poll middle race).1 := by
        cases progress with
        | finished outcome =>
          cases round
          exact ⟨desk, .finished outcome, ⟨[], by simp, reflects, here⟩, rfl, rfl⟩
        | pending state =>
          cases round
          exact ⟨(poll desk state).1, (poll desk state).2, poll_simulated reflects here rfl,
            rfl, rfl⟩
      obtain ⟨first, own, reflects, shown⟩ := polled
      obtain ⟨rfl, rfl⟩ := round
      have rest := shows_others first rest fun j member event among same =>
        fresh ((same.trans (own event among)) ▸ member)
      obtain ⟨second, others, reflects, seen⟩ := ih reflects different rest rfl
      refine ⟨first ++ second, ?_, ?_⟩
      · intro event member
        rcases List.mem_append.mp member with member | member
        · exact List.mem_cons.mpr (.inl (own event member))
        · exact List.mem_cons_of_mem i (others event member)
      · rw [Exchange.run_append]
        refine ⟨reflects, .cons (shown.other ?_) seen⟩
        intro event member same
        exact fresh (same ▸ others event member)

theorem rounds_simulated {order : List ι}
    {race race' : List (Progress (EncodeState α) Encoder.Outcome)} {count : Nat}
    (reflects : Reflects owner desk exchange) (different : order.Nodup)
    (shows : List.Forall₂ (Shows encoder owner calls exchange) order race)
    (rounds : Race.rounds poll desk race count = (desk', race')) :
    ∃ events : List (Exchange.Event ι),
      Reflects owner desk' (exchange.run encoder calls events) ∧
      List.Forall₂ (Shows encoder owner calls (exchange.run encoder calls events)) order race' := by
  induction count generalizing desk exchange race with
  | zero =>
    cases rounds
    exact ⟨[], reflects, shows⟩
  | succ count ih =>
    obtain ⟨first, _, reflects, shows⟩ := round_simulated reflects different shows rfl
    obtain ⟨rest, reflects, shows⟩ := ih reflects shows rounds
    refine ⟨first ++ rest, ?_⟩
    rw [Exchange.run_append]
    exact ⟨reflects, shows⟩

section Patience

variable {call : EncodeCall α} {count : Nat}

def Near (count : Nat) : Progress (EncodeState α) Encoder.Outcome → Prop
  | .pending (.fresh _) => False
  | .pending (.waiting _ _ _ delays) => delays < count
  | .finished _ => True

theorem await_near {request : Request} {plan : Plan} {delays : Nat} (few : delays ≤ count) :
    Near count (await desk call request plan delays).2 := by
  cases delays with
  | zero => trivial
  | succ delays => exact few

theorem await_plans {request : Request} {plan : Plan} {delays : Nat} :
    (await desk call request plan delays).1.link.plans = desk.link.plans := by
  cases delays with
  | zero =>
    simp only [await, Desk.setCache, Link.complete]
    cases plan.failure with
    | none => rfl
    | some e => rfl
  | succ delays => rfl

def Patient (count : Nat) (desk : Desk) : Prop := ∀ plan ∈ desk.link.plans, plan.delay ≤ count

theorem poll_fresh_near (call : EncodeCall α) (patient : Patient count desk) :
    Near count (poll desk (.fresh call)).2 ∧ Patient count (poll desk (.fresh call)).1 := by
  cases opening : call.encoder.begin (desk.cacheOf call.owner) call.object call.context with
  | done outcome =>
    rw [poll_done opening]
    exact ⟨trivial, patient⟩
  | asks request =>
    have taken : desk.link.takePlan.1.delay ≤ count ∧
        ∀ plan ∈ desk.link.takePlan.2.plans, plan.delay ≤ count := by
      unfold Link.takePlan
      unfold Patient at patient
      cases plans : desk.link.plans with
      | nil => exact ⟨Nat.zero_le count, patient⟩
      | cons plan rest =>
        rw [plans] at patient
        exact ⟨patient plan List.mem_cons_self,
          fun other member => patient other (List.mem_cons_of_mem plan member)⟩
    rw [poll_asks opening]
    refine ⟨await_near taken.1, ?_⟩
    unfold Patient
    rw [await_plans]
    exact taken.2

theorem round_fresh_near (calls : List (EncodeCall α)) (patient : Patient count desk) :
    ∀ progress ∈ (Race.round poll desk ((calls.map .fresh).map .pending)).2,
      Near count progress := by
  induction calls generalizing desk with
  | nil => exact fun _ none => nomatch none
  | cons call rest ih =>
    obtain ⟨near, patient⟩ := poll_fresh_near call patient
    intro progress member
    rcases List.mem_cons.mp member with rfl | member
    · exact near
    · exact ih patient progress member

theorem round_near {race : List (Progress (EncodeState α) Encoder.Outcome)}
    (near : ∀ progress ∈ race, Near (count + 1) progress) :
    ∀ progress ∈ (Race.round poll desk race).2, Near count progress := by
  induction race generalizing desk with
  | nil => exact fun _ none => nomatch none
  | cons first rest ih =>
    have others := fun progress member => near progress (List.mem_cons_of_mem first member)
    have here := near first List.mem_cons_self
    intro progress member
    cases first with
    | finished outcome =>
      rcases List.mem_cons.mp member with rfl | member
      · trivial
      · exact ih others progress member
    | pending state =>
      cases state with
      | fresh call => exact here.elim
      | waiting call request plan delays =>
        rcases List.mem_cons.mp member with rfl | member
        · exact await_near (Nat.lt_succ_iff.mp here)
        · exact ih others progress member

theorem rounds_near {race : List (Progress (EncodeState α) Encoder.Outcome)}
    (near : ∀ progress ∈ race, Near count progress) :
    ∀ progress ∈ (Race.rounds poll desk race count).2, Near 0 progress := by
  induction count generalizing desk race with
  | zero => exact near
  | succ count ih => exact ih (round_near near)

theorem race_near (desk : Desk) (calls : List (EncodeCall α)) :
    ∀ progress ∈ (Race.rounds poll desk ((calls.map .fresh).map .pending)
      desk.link.patience).2, Near 0 progress := by
  have patient : Patient ((desk.link.plans.map (·.delay)).foldl max 0) desk := by
    intro plan member
    exact (Race.le_foldl_max _ 0).2 _ (List.mem_map_of_mem member)
  rw [Link.patience, Race.rounds]
  exact rounds_near (round_fresh_near calls patient)

end Patience

omit [DecidableEq ι] in
theorem shows_ended {order : List ι} {race : List (Progress (EncodeState α) Encoder.Outcome)}
    {outcome : ι → Encoder.Outcome}
    (shows : List.Forall₂ (Shows encoder owner calls exchange) order race)
    (near : ∀ progress ∈ race, Near 0 progress)
    (only : ∀ i result, exchange.session.stage i = .ended result → result = outcome i) :
    race = order.map (fun i => .finished (outcome i)) ∧
      ∀ i ∈ order, Exchange.Ended i exchange := by
  induction shows with
  | nil => exact ⟨rfl, fun _ none => nomatch none⟩
  | @cons i progress order race here rest ih =>
    obtain ⟨same, ended⟩ := ih fun progress member =>
      near progress (List.mem_cons_of_mem _ member)
    have last := near progress List.mem_cons_self
    cases progress with
    | pending state =>
      cases state with
      | fresh call => exact last.elim
      | waiting call request plan delays => exact absurd last (Nat.not_lt_zero delays)
    | finished result =>
      constructor
      · rw [List.map_cons, same, only i result here]
      · intro j member
        rcases List.mem_cons.mp member with rfl | member
        · exact ⟨result, here⟩
        · exact ended j member

end EncodeState

/-- The race of one encoder's calls, whatever the delays: results, cache and registry are those of
one call after the other. -/
theorem Desk.race_as_sequential {α : Type} (encoder : Encoder α) (owner : String) (desk : Desk)
    (calls : List (Call α)) (delays : ∀ plan ∈ desk.link.plans, plan.OnlyDelays) :
    let race := desk.race (calls.map (EncodeState.seat encoder owner))
    let sequential := encoder.encodeAll desk.link.registry (desk.cacheOf owner) calls
    race.2 = sequential.2.2 ∧
      (∀ subject, (race.1.cacheOf owner).get? subject = sequential.2.1.get? subject) ∧
      race.1.link.registry.catalog.Same sequential.1.catalog := by
  intro race sequential
  have all : (List.finRange calls.length).map calls.get = calls := List.map_get_finRange calls
  obtain ⟨outcomes, concluded⟩ : sequential.2.2 =
      calls.map (encoder.alone desk.link.registry (desk.cacheOf owner)) ∧
      encoder.Concluded desk.link.registry (desk.cacheOf owner) calls sequential.1.catalog
        sequential.2.1 :=
    Encoder.encodeAll_concluded rfl
  have start : EncodeState.Reflects owner desk
      (Exchange.opened (ι := Fin calls.length) desk.link.registry (desk.cacheOf owner)) :=
    ⟨rfl, rfl, delays⟩
  have fresh : List.Forall₂ (EncodeState.Shows encoder owner calls.get
      (Exchange.opened desk.link.registry (desk.cacheOf owner))) (List.finRange calls.length)
      (((calls.map (EncodeState.seat encoder owner)).map .fresh).map .pending) := by
    rw [List.forall₂_iff_get]
    refine ⟨by simp, ?_⟩
    intro i first second
    simp [EncodeState.Shows, Exchange.opened, Session.opened]
  have near := EncodeState.race_near desk (calls.map (EncodeState.seat encoder owner))
  cases rounds : Race.rounds EncodeState.poll desk
    (((calls.map (EncodeState.seat encoder owner)).map .fresh).map .pending)
    desk.link.patience with
  | mk after finish =>
    have ran : race = (after, Race.results finish) := by
      simp only [race, Desk.race, Race.run, rounds]
    rw [rounds] at near
    obtain ⟨events, reflects, shows⟩ :=
      EncodeState.rounds_simulated start (List.nodup_finRange _) fresh rounds
    have faithful : Exchange.Faithful encoder desk.link.registry (desk.cacheOf owner) calls.get _ :=
      Exchange.run_faithful events
    obtain ⟨same, ended⟩ := EncodeState.shows_ended shows near
      fun i result done => (faithful.done done).outcome
    obtain ⟨catalog, entries⟩ :=
      (faithful.concluded fun i => ended i (List.mem_finRange i)).unique concluded
    rw [ran]
    refine ⟨?_, ?_, ?_⟩
    · rw [outcomes, same, Race.results_finished]
      conv_rhs => rw [← all, List.map_map]
      rfl
    · intro subject
      rw [reflects.cache]
      exact entries subject
    · rw [reflects.registry]
      exact catalog

end FramedJson
