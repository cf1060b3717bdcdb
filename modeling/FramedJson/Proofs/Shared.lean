import FramedJson.Shared
import FramedJson.Proofs.Exchange
import FramedJson.Proofs.Registry.Growth

/-!
What a cache remembers is what the registry would answer, however the registry has grown meanwhile. So
an encoder without a cache, over the same events, writes the same frames, and leaves the same catalog.
-/
namespace FramedJson

variable {α : Type} {encoder : Encoder α} {catalog : Catalog} {cache : SubjectCache}

/-- Every id that is known is the one the registry gives for the encoder's schema. -/
def Encoder.Truthful (encoder : Encoder α) (catalog : Catalog) (cache : SubjectCache) : Prop :=
  ∀ subject id, cache.get? subject = some id →
    catalog.settledId? (encoder.request subject) = some id

theorem Encoder.truthful_empty (encoder : Encoder α) (catalog : Catalog) :
    encoder.Truthful catalog .empty :=
  fun _ _ known => nomatch known

theorem Encoder.Truthful.mono {later : Catalog} (truthful : encoder.Truthful catalog cache)
    (grown : catalog.Extends later) : encoder.Truthful later cache :=
  fun subject id known => grown.settled (truthful subject id known)

theorem Encoder.Truthful.resume (truthful : encoder.Truthful catalog cache) (object : α)
    {context : Context} {reply : Reply}
    (settled : catalog.settledId? (encoder.request (encoder.subject context)) =
      some reply.schemaId) :
    ∃ later, encoder.resume cache (some object) context (.ok reply) =
      (later, (encoder.frame object context reply.schemaId).map some) ∧
      encoder.Truthful catalog later := by
  cases entry : cache.get? (encoder.subject context) with
  | some id =>
    obtain rfl : id = reply.schemaId :=
      Option.some.inj ((truthful _ id entry).symm.trans settled)
    exact ⟨cache, encoder.resume_known entry object reply, truthful⟩
  | none =>
    refine ⟨⟨Assoc.put (encoder.subject context) reply.schemaId cache.ids⟩, ?_, ?_⟩
    · exact encoder.resume_unknown entry object reply
    · intro subject id known
      rw [SubjectCache.get?_put] at known
      split at known
      · rename_i same
        subst same
        rw [settled, known]
      · exact truthful subject id known

namespace Stage

section Local

variable (encoder : Encoder α) (cache : SubjectCache) (call : Call α)

def polled : Stage → Stage
  | .fresh =>
    match encoder.begin cache call.object call.context with
    | .done outcome => .ended outcome
    | .asks request => .asking request
  | .asking request => .asking request
  | .ended outcome => .ended outcome

def delivered (reply : Option (Except RegistryError Reply)) : Stage → Stage
  | .asking request =>
    match reply with
    | some reply => .ended (encoder.resume cache call.object call.context reply).2
    | none => .asking request
  | .fresh => .fresh
  | .ended outcome => .ended outcome

def replied (answer : Request → Except RegistryError Reply) :
    Stage → Option (Except RegistryError Reply) → Option (Except RegistryError Reply)
  | .asking request, none => some (answer request)
  | _, reply => reply

def learnt (reply : Option (Except RegistryError Reply)) : Stage → SubjectCache
  | .asking _ =>
    match reply with
    | some reply => (encoder.resume cache call.object call.context reply).1
    | none => cache
  | .fresh => cache
  | .ended _ => cache

def served (catalog : Catalog) : Stage → Option (Except RegistryError Reply) → Catalog
  | .asking request, none => (catalog.answer request).1
  | _, _ => catalog

end Local

def frame? : Stage → Option (List UInt8)
  | .ended (.ok frame) => frame
  | _ => none

theorem frame?_some {stage : Stage} {frame : List UInt8} (framed : stage.frame? = some frame) :
    stage = .ended (.ok (some frame)) := by
  unfold frame? at framed
  split at framed
  · rw [framed]
  · cases framed

theorem served_extends (stage : Stage) (catalog : Catalog)
    (reply : Option (Except RegistryError Reply)) :
    catalog.Extends (stage.served catalog reply) := by
  unfold served
  split
  · exact Catalog.answer_extends catalog _
  · exact Catalog.Extends.refl catalog

section Alike

variable (encoder : Encoder α) (call : Call α) (fails : RegistryError → Prop) (catalog : Catalog)

/-- How one call stands with a cache and without: its stage and its reply there, and then here. Without
a cache the call may still be under way, or may have ended with an error on the way. -/
inductive Alike : Stage → Option (Except RegistryError Reply) →
    Stage → Option (Except RegistryError Reply) → Prop
  | fresh : Alike .fresh none .fresh none
  | asking {object : α} {reply : Option (Except RegistryError Reply)}
      (present : call.object = some object)
      (settled : ∀ answer, reply = some (.ok answer) →
        catalog.settledId? (encoder.request (encoder.subject call.context)) =
          some answer.schemaId) :
      Alike (.asking (encoder.request (encoder.subject call.context))) reply
        (.asking (encoder.request (encoder.subject call.context))) reply
  | spared {object : α} {id : UInt32} {kept reply : Option (Except RegistryError Reply)}
      (present : call.object = some object)
      (settled : catalog.settledId? (encoder.request (encoder.subject call.context)) = some id)
      (same : ∀ answer, reply = some (.ok answer) → answer.schemaId = id)
      (failed : ∀ e, reply = some (.error e) → fails e) :
      Alike (.ended ((encoder.frame object call.context id).map some)) kept
        (.asking (encoder.request (encoder.subject call.context))) reply
  | ended {outcome : Encoder.Outcome} {kept reply : Option (Except RegistryError Reply)} :
      Alike (.ended outcome) kept (.ended outcome) reply
  | failed {outcome : Encoder.Outcome} {kept reply : Option (Except RegistryError Reply)}
      {e : RegistryError} (failed : fails e) :
      Alike (.ended outcome) kept
        (.ended (.error (.registry (encoder.subject call.context) e))) reply

variable {encoder call fails catalog} {kept asking : Stage}
  {reply reply' : Option (Except RegistryError Reply)}
  (alike : Alike encoder call fails catalog kept reply asking reply')
include alike

theorem Alike.mono {later : Catalog} (grown : catalog.Extends later) :
    Alike encoder call fails later kept reply asking reply' := by
  cases alike with
  | fresh => exact .fresh
  | asking present settled =>
    exact .asking present fun answer arrived => grown.settled (settled answer arrived)
  | spared present settled same failed => exact .spared present (grown.settled settled) same failed
  | ended => exact .ended
  | failed failed => exact .failed failed

theorem Alike.poll (truthful : encoder.Truthful catalog cache) :
    Alike encoder call fails catalog (kept.polled encoder cache call) reply
      (asking.polled encoder .empty call) reply' := by
  cases alike with
  | fresh =>
    cases present : call.object with
    | none =>
      simp only [polled, present, Encoder.begin_none]
      exact .ended
    | some object =>
      have asks : encoder.begin .empty (some object) call.context =
          .asks (encoder.request (encoder.subject call.context)) :=
        encoder.begin_unknown rfl object
      cases entry : cache.get? (encoder.subject call.context) with
      | none =>
        simp only [polled, present, asks, encoder.begin_unknown entry]
        exact .asking present nofun
      | some id =>
        simp only [polled, present, asks, encoder.begin_known entry]
        exact .spared present (truthful _ id entry) nofun nofun
  | asking present settled => exact .asking present settled
  | spared present settled same failed => exact .spared present settled same failed
  | ended => exact .ended
  | failed failed => exact .failed failed

theorem Alike.served (about : ∀ subject, (encoder.request subject).aboutSchema = true) :
    asking.served catalog reply' = kept.served catalog reply ∧
      Alike encoder call fails (kept.served catalog reply) kept
        (kept.replied (fun request => (catalog.answer request).2) reply) asking
        (asking.replied (fun request => (catalog.answer request).2) reply') := by
  cases alike with
  | fresh => exact ⟨rfl, .fresh⟩
  | asking present settled =>
    cases reply with
    | some reply => exact ⟨rfl, .asking present settled⟩
    | none =>
      refine ⟨rfl, .asking present ?_⟩
      intro answer answered
      exact Catalog.settled_of_answer (about _) (Option.some.inj answered)
  | spared present settled same failed =>
    cases reply' with
    | some reply => exact ⟨rfl, .spared present settled same failed⟩
    | none =>
      obtain ⟨answer, answered, id⟩ := Catalog.answer_of_settled settled
      have unchanged : (catalog.answer (encoder.request (encoder.subject call.context))).1 =
          catalog := congrArg Prod.fst answered
      have replied : (catalog.answer (encoder.request (encoder.subject call.context))).2 =
          .ok answer := congrArg Prod.snd answered
      refine ⟨unchanged, .spared present settled ?_ ?_⟩
      · intro other arrived
        cases replied.symm.trans (Option.some.inj arrived)
        exact id
      · intro e arrived
        cases replied.symm.trans (Option.some.inj arrived)
  | ended => exact ⟨rfl, .ended⟩
  | failed failed => exact ⟨rfl, .failed failed⟩

theorem Alike.fail {e : RegistryError} (fallen : fails e) :
    Alike encoder call fails catalog kept (kept.replied (fun _ => .error e) reply) asking
      (asking.replied (fun _ => .error e) reply') := by
  cases alike with
  | fresh => exact .fresh
  | asking present settled =>
    cases reply with
    | some reply => exact .asking present settled
    | none => exact .asking present nofun
  | spared present settled same failed =>
    cases reply' with
    | some reply => exact .spared present settled same failed
    | none =>
      refine .spared present settled nofun ?_
      intro other arrived
      cases arrived
      exact fallen
  | ended => exact .ended
  | failed failed => exact .failed failed

theorem Alike.deliver (truthful : encoder.Truthful catalog cache) :
    Alike encoder call fails catalog (kept.delivered encoder cache call reply) reply
      (asking.delivered encoder .empty call reply') reply' := by
  cases alike with
  | fresh => exact .fresh
  | @asking object _ present settled =>
    cases reply with
    | none => exact .asking present settled
    | some reply =>
      cases reply with
      | error e =>
        simp only [delivered, present, Encoder.resume_error]
        exact .ended
      | ok answer =>
        obtain ⟨_, resumed, _⟩ := truthful.resume object (settled answer rfl)
        obtain ⟨_, resumed', _⟩ :=
          (encoder.truthful_empty catalog).resume object (settled answer rfl)
        simp only [delivered, present, resumed, resumed']
        exact .ended
  | @spared object id _ _ present settled same failed =>
    cases reply' with
    | none => exact .spared present settled same failed
    | some reply =>
      cases reply with
      | error e =>
        simp only [delivered, present, Encoder.resume_error]
        exact .failed (failed e rfl)
      | ok answer =>
        obtain rfl : answer.schemaId = id := same answer rfl
        obtain ⟨_, resumed, _⟩ := (encoder.truthful_empty catalog).resume object settled
        simp only [delivered, present, resumed]
        exact .ended
  | ended => exact .ended
  | failed failed => exact .failed failed

theorem Alike.learn (truthful : encoder.Truthful catalog cache) :
    encoder.Truthful catalog (kept.learnt encoder cache call reply) := by
  cases alike with
  | fresh => exact truthful
  | @asking object _ present settled =>
    cases reply with
    | none => exact truthful
    | some reply =>
      cases reply with
      | error e =>
        simp only [learnt, present, Encoder.resume_error]
        exact truthful
      | ok answer =>
        obtain ⟨later, resumed, still⟩ := truthful.resume object (settled answer rfl)
        simp only [learnt, present, resumed]
        exact still
  | spared => exact truthful
  | ended => exact truthful
  | failed => exact truthful

end Alike

end Stage

namespace Exchange

variable {ι : Type} [DecidableEq ι] {calls : ι → Call α}

section Moves

/-- A step of one call, after which its stage and reply, the cache and the catalog are as given, and
every other call stands as before. -/
structure Moves (exchange after : Exchange ι) (i : ι) (stage : Stage)
    (reply : Option (Except RegistryError Reply)) (cache : SubjectCache) (catalog : Catalog) :
    Prop where
  stage : after.session.stage i = stage
  reply : after.replies i = reply
  cache : after.session.cache = cache
  catalog : after.registry.catalog = catalog
  elsewhere : ∀ j, j ≠ i →
    after.session.stage j = exchange.session.stage j ∧ after.replies j = exchange.replies j

variable {exchange : Exchange ι} {i : ι} {stage : Stage}
  {reply : Option (Except RegistryError Reply)}

omit [DecidableEq ι] in
theorem Moves.still (stands : exchange.session.stage i = stage)
    (arrived : exchange.replies i = reply) :
    Moves exchange exchange i stage reply exchange.session.cache exchange.registry.catalog :=
  ⟨stands, arrived, rfl, rfl, fun _ _ => ⟨rfl, rfl⟩⟩

theorem Moves.places {session : Session ι}
    (placed : session.stage = (exchange.session.place i stage).stage)
    (arrived : exchange.replies i = reply) :
    Moves exchange { exchange with session := session } i stage reply session.cache
      exchange.registry.catalog where
  stage := (congrFun placed i).trans (Session.place_same exchange.session stage i)
  reply := arrived
  cache := rfl
  catalog := rfl
  elsewhere := fun j differ =>
    ⟨(congrFun placed j).trans (Session.place_other exchange.session stage differ), rfl⟩

theorem Moves.answers (stands : exchange.session.stage i = stage) (registry : MemoryRegistry)
    (reply : Except RegistryError Reply) :
    Moves exchange (exchange.answered i registry reply) i stage (some reply)
      exchange.session.cache registry.catalog where
  stage := stands
  reply := answered_same registry
  cache := rfl
  catalog := rfl
  elsewhere := fun _ differ => ⟨rfl, answered_other differ registry⟩

variable (encoder : Encoder α) (calls : ι → Call α) (exchange) (i)

theorem poll_moves : Moves exchange (exchange.step encoder calls (.poll i)) i
    ((exchange.session.stage i).polled encoder exchange.session.cache (calls i))
    (exchange.replies i) exchange.session.cache exchange.registry.catalog := by
  rw [step]
  unfold Session.poll Stage.polled
  cases stands : exchange.session.stage i with
  | fresh =>
    cases encoder.begin exchange.session.cache (calls i).object (calls i).context with
    | done outcome => exact .places rfl rfl
    | asks request => exact .places rfl rfl
  | asking request => exact .still stands rfl
  | ended outcome => exact .still stands rfl

theorem serve_moves : Moves exchange (exchange.step encoder calls (.serve i)) i
    (exchange.session.stage i)
    ((exchange.session.stage i).replied
      (fun request => (exchange.registry.catalog.answer request).2) (exchange.replies i))
    exchange.session.cache
    ((exchange.session.stage i).served exchange.registry.catalog (exchange.replies i)) := by
  rw [step]
  unfold serve
  cases stands : exchange.session.stage i with
  | fresh => exact .still stands rfl
  | ended outcome => exact .still stands rfl
  | asking request =>
    cases arrived : exchange.replies i with
    | some reply => exact .still stands arrived
    | none => exact .answers stands _ _

theorem deliver_moves : Moves exchange (exchange.step encoder calls (.deliver i)) i
    ((exchange.session.stage i).delivered encoder exchange.session.cache (calls i)
      (exchange.replies i))
    (exchange.replies i)
    ((exchange.session.stage i).learnt encoder exchange.session.cache (calls i)
      (exchange.replies i))
    exchange.registry.catalog := by
  rw [step]
  unfold deliver
  cases arrived : exchange.replies i with
  | none =>
    cases stands : exchange.session.stage i with
    | fresh => exact .still stands arrived
    | asking request => exact .still stands arrived
    | ended outcome => exact .still stands arrived
  | some reply =>
    unfold Session.answer
    cases stands : exchange.session.stage i with
    | fresh => exact .still stands arrived
    | asking request => exact .places rfl arrived
    | ended outcome => exact .still stands arrived

theorem fail_moves (e : RegistryError) : Moves exchange (exchange.fail i e) i
    (exchange.session.stage i)
    ((exchange.session.stage i).replied (fun _ => .error e) (exchange.replies i))
    exchange.session.cache exchange.registry.catalog := by
  unfold fail
  cases stands : exchange.session.stage i with
  | fresh => exact .still stands rfl
  | ended outcome => exact .still stands rfl
  | asking request =>
    cases arrived : exchange.replies i with
    | some reply => exact .still stands arrived
    | none => exact .answers stands _ _

end Moves

/-- The encoder with its cache, and the one without, after the same events. -/
structure Alongside (encoder : Encoder α) (calls : ι → Call α) (fails : ι → RegistryError → Prop)
    (kept asking : Exchange ι) : Prop where
  truthful : encoder.Truthful kept.registry.catalog kept.session.cache
  forgotten : asking.session.cache = .empty
  catalog : asking.registry.catalog = kept.registry.catalog
  alike : ∀ i, Stage.Alike encoder (calls i) (fails i) kept.registry.catalog
    (kept.session.stage i) (kept.replies i) (asking.session.stage i) (asking.replies i)

section Steps

variable {fails : ι → RegistryError → Prop} {kept asking : Exchange ι}

omit [DecidableEq ι] in
theorem alongside_start (encoder : Encoder α) (calls : ι → Call α)
    (fails : ι → RegistryError → Prop) (registry : MemoryRegistry) :
    Alongside encoder calls fails (opened registry .empty) (opened registry .empty) where
  truthful := encoder.truthful_empty _
  forgotten := rfl
  catalog := rfl
  alike := fun _ => .fresh

variable (about : ∀ subject, (encoder.request subject).aboutSchema = true)
  (alongside : Alongside encoder calls fails kept asking)
include alongside

omit [DecidableEq ι] in
theorem Alongside.move {i : ι} {kept' asking' : Exchange ι} {stage stage' : Stage}
    {reply reply' : Option (Except RegistryError Reply)} {cache cache' : SubjectCache}
    {catalog catalog' : Catalog}
    (moves : Moves kept kept' i stage reply cache catalog)
    (moves' : Moves asking asking' i stage' reply' cache' catalog')
    (grown : kept.registry.catalog.Extends catalog) (truthful : encoder.Truthful catalog cache)
    (same : catalog' = catalog)
    (here : Stage.Alike encoder (calls i) (fails i) catalog stage reply stage' reply') :
    Alongside encoder calls fails kept' asking'.forget := by
  obtain ⟨rfl, rfl, rfl, rfl, elsewhere⟩ := moves
  obtain ⟨rfl, rfl, rfl, rfl, elsewhere'⟩ := moves'
  refine ⟨truthful, rfl, same, ?_⟩
  intro j
  by_cases self : j = i
  · subst self
    exact here
  · have before := (alongside.alike j).mono grown
    obtain ⟨stage, reply⟩ := elsewhere j self
    obtain ⟨stage', reply'⟩ := elsewhere' j self
    rw [← stage, ← reply, ← stage', ← reply'] at before
    exact before

theorem Alongside.poll (i : ι) : Alongside encoder calls fails
    (kept.step encoder calls (.poll i)) (asking.step encoder calls (.poll i)).forget := by
  have here := (alongside.alike i).poll alongside.truthful
  have asks := poll_moves asking i encoder calls
  rw [alongside.forgotten] at asks
  exact alongside.move (poll_moves kept i encoder calls) asks (Catalog.Extends.refl _)
    alongside.truthful alongside.catalog here

include about in
theorem Alongside.serve (i : ι) : Alongside encoder calls fails
    (kept.step encoder calls (.serve i)) (asking.step encoder calls (.serve i)).forget := by
  obtain ⟨same, here⟩ := (alongside.alike i).served about
  have grown := (kept.session.stage i).served_extends kept.registry.catalog (kept.replies i)
  have asks := serve_moves asking i encoder calls
  rw [alongside.catalog] at asks
  exact alongside.move (serve_moves kept i encoder calls) asks grown
    (alongside.truthful.mono grown) same here

theorem Alongside.deliver (i : ι) : Alongside encoder calls fails
    (kept.step encoder calls (.deliver i)) (asking.step encoder calls (.deliver i)).forget := by
  have here := (alongside.alike i).deliver alongside.truthful
  have learnt := (alongside.alike i).learn alongside.truthful
  have asks := deliver_moves asking i encoder calls
  rw [alongside.forgotten] at asks
  exact alongside.move (deliver_moves kept i encoder calls) asks (Catalog.Extends.refl _) learnt
    alongside.catalog here

theorem Alongside.fail {i : ι} {e : RegistryError} (fallen : fails i e) :
    Alongside encoder calls fails (kept.fail i e) (asking.fail i e).forget :=
  alongside.move (fail_moves kept i e) (fail_moves asking i e) (Catalog.Extends.refl _)
    alongside.truthful alongside.catalog ((alongside.alike i).fail fallen)

omit [DecidableEq ι] in
theorem Alongside.other (request : Request) : Alongside encoder calls fails
    { kept with registry := (kept.registry.serve request).1 }
    (forget { asking with registry := (asking.registry.serve request).1 }) where
  truthful := alongside.truthful.mono (Catalog.answer_extends _ request)
  forgotten := rfl
  catalog := congrArg (fun catalog => (Catalog.answer catalog request).1) alongside.catalog
  alike := fun i => (alongside.alike i).mono (Catalog.answer_extends _ request)

include about in
theorem Alongside.step (event : Shared.Event ι) (fallen : ∀ i e, event = .fail i e → fails i e) :
    Alongside encoder calls fails (kept.stepShared encoder calls event)
      (asking.stepShared encoder calls event).forget := by
  cases event with
  | own event =>
    cases event with
    | poll i => exact alongside.poll i
    | serve i => exact alongside.serve about i
    | deliver i => exact alongside.deliver i
  | fail i e => exact alongside.fail (fallen i e rfl)
  | other request => exact alongside.other request

include about in
theorem Alongside.run (events : List (Shared.Event ι))
    (fallen : ∀ i e, .fail i e ∈ events → fails i e) :
    Alongside encoder calls fails (kept.runShared encoder calls events)
      (asking.runForgetful encoder calls events) := by
  induction events generalizing kept asking with
  | nil => exact alongside
  | cons event rest ih =>
    have next := alongside.step about event fun i e same =>
      fallen i e (same ▸ List.mem_cons_self)
    exact ih next fun i e later => fallen i e (List.mem_cons_of_mem event later)

end Steps

section Conclusions

variable {fails : ι → RegistryError → Prop} {kept asking : Exchange ι} {i : ι}

theorem runForgetful_serve_deliver (encoder : Encoder α) (calls : ι → Call α) (exchange : Exchange ι)
    (begun : exchange.session.stage i ≠ .fresh) :
    ∃ outcome, (exchange.runForgetful encoder calls
      [.own (.serve i), .own (.deliver i)]).session.stage i = .ended outcome := by
  obtain ⟨stage, reply, _, _, _⟩ := serve_moves exchange i encoder calls
  have delivered :=
    (deliver_moves (exchange.step encoder calls (.serve i)).forget i encoder calls).stage
  change _ = Stage.delivered encoder .empty (calls i)
    ((exchange.step encoder calls (.serve i)).replies i)
    ((exchange.step encoder calls (.serve i)).session.stage i) at delivered
  rw [stage, reply] at delivered
  refine Exists.imp (fun _ => delivered.trans) ?_
  cases stands : exchange.session.stage i with
  | fresh => exact absurd stands begun
  | ended outcome => exact ⟨outcome, rfl⟩
  | asking request =>
    cases exchange.replies i with
    | none => exact ⟨_, rfl⟩
    | some reply => exact ⟨_, rfl⟩

theorem runShared_keeps_ended (encoder : Encoder α) (calls : ι → Call α)
    {outcome : Encoder.Outcome} (ended : kept.session.stage i = .ended outcome) :
    (kept.runShared encoder calls [.own (.serve i), .own (.deliver i)]).session.stage i =
      .ended outcome := by
  have served := (serve_moves kept i encoder calls).stage
  have delivered := (deliver_moves (kept.step encoder calls (.serve i)) i encoder calls).stage
  rw [served, ended] at delivered
  exact delivered

omit [DecidableEq ι] in
theorem Alongside.ended (alongside : Alongside encoder calls fails kept asking)
    {outcome : Encoder.Outcome} (ended : asking.session.stage i = .ended outcome) :
    kept.session.stage i = .ended outcome ∨
      ∃ e other, fails i e ∧ outcome = .error (.registry (encoder.subject (calls i).context) e) ∧
        kept.session.stage i = .ended other := by
  have alike := alongside.alike i
  rw [ended] at alike
  generalize kept.session.stage i = stage, kept.replies i = reply,
    asking.replies i = reply' at alike
  cases alike with
  | ended => exact .inl rfl
  | failed failed => exact .inr ⟨_, _, failed, rfl, rfl⟩

omit [DecidableEq ι] in
theorem Alongside.begun (alongside : Alongside encoder calls fails kept asking)
    {outcome : Encoder.Outcome} (ended : kept.session.stage i = .ended outcome) :
    asking.session.stage i ≠ .fresh := by
  have alike := alongside.alike i
  intro fresh
  rw [ended, fresh] at alike
  cases alike

end Conclusions

/-- Take an encoder that registers its schema or looks it up, over a registry that any other clients
write to, with calls that overlap, wait and are lost. Whenever a subject is known, to ask the registry
for it gives the known id and changes nothing. An encoder that asks for every object leaves the same
catalog and ends each call alike, or with an error that befell its own request on the way; and once a
call's request has been served, with the frame that was written without asking. -/
theorem known_as_answered (encoder : Encoder α) (own : encoder.mode ≠ .useLatest)
    (calls : ι → Call α) (registry : MemoryRegistry) (events : List (Shared.Event ι)) :
    let kept := (opened registry .empty).runShared encoder calls events
    let asking := (opened registry .empty).runForgetful encoder calls events
    (∀ subject id, kept.session.cache.get? subject = some id →
      ∃ reply, (kept.registry.serve (encoder.request subject)).2 = .ok reply ∧
        reply.schemaId = id ∧
        (kept.registry.serve (encoder.request subject)).1.catalog = kept.registry.catalog) ∧
    asking.registry.catalog = kept.registry.catalog ∧
    (∀ i outcome, asking.session.stage i = .ended outcome →
      kept.session.stage i = .ended outcome ∨
      ∃ e other, .fail i e ∈ events ∧
        outcome = .error (.registry (encoder.subject (calls i).context) e) ∧
        kept.session.stage i = .ended other) ∧
    (∀ i frame, kept.session.stage i = .ended (.ok (some frame)) →
      ∃ outcome, (asking.runForgetful encoder calls
          [.own (.serve i), .own (.deliver i)]).session.stage i = .ended outcome ∧
        (outcome = .ok (some frame) ∨ ∃ e, .fail i e ∈ events ∧
          outcome = .error (.registry (encoder.subject (calls i).context) e))) := by
  intro kept asking
  have about := fun subject =>
    ResolutionMode.request_aboutSchema own subject encoder.schema
  have alongside : Alongside encoder calls (fun i e => .fail i e ∈ events) kept asking :=
    (alongside_start encoder calls _ registry).run about events fun _ _ fallen => fallen
  refine ⟨?_, alongside.catalog, fun _ _ ended => alongside.ended ended, ?_⟩
  · intro subject id known
    obtain ⟨reply, answered, same⟩ :=
      Catalog.answer_of_settled (alongside.truthful subject id known)
    rw [MemoryRegistry.serve_eq, answered]
    exact ⟨reply, rfl, same, rfl⟩
  · intro i frame framed
    have later := alongside.run about [.own (.serve i), .own (.deliver i)] nofun
    obtain ⟨outcome, ended⟩ :=
      runForgetful_serve_deliver encoder calls asking (alongside.begun framed)
    refine ⟨outcome, ended, ?_⟩
    have still := runShared_keeps_ended encoder calls framed
    rcases later.ended ended with same | ⟨e, _, fallen, same, _⟩
    · exact .inl (Stage.ended.inj (same.symm.trans still))
    · exact .inr ⟨e, fallen, same⟩

def crowded : List (Shared.Event Nat) :=
  [.own (.poll 0), .own (.poll 1), .other (.register "s-value" ⟨"[]", .json, []⟩ false),
   .fail 1 (.transport "lost"), .own (.serve 0), .own (.deliver 0), .own (.poll 2)]

theorem known_as_answered_crowded :
    let kept := (opened (.startingAt 7) .empty).runShared Session.constant Session.ticks crowded
    let asking :=
      (opened (.startingAt 7) .empty).runForgetful Session.constant Session.ticks crowded
    kept.session.cache.get? "s-value" = some 8 ∧
    (∃ reply, (kept.registry.serve (Session.constant.request "s-value")).2 = .ok reply ∧
      reply.schemaId = 8) ∧
    kept.session.stage 2 = .ended (.ok (some [0, 0, 0, 0, 8, 110, 117, 108, 108])) ∧
    (asking.runForgetful Session.constant Session.ticks
      [.own (.serve 2), .own (.deliver 2)]).session.stage 2 =
        .ended (.ok (some [0, 0, 0, 0, 8, 110, 117, 108, 108])) := by
  dsimp only
  have known : ((opened (.startingAt 7) .empty).runShared Session.constant Session.ticks
      crowded).session.cache.get? "s-value" = some 8 := by decide +kernel
  have framed : ((opened (.startingAt 7) .empty).runShared Session.constant Session.ticks
      crowded).session.stage 2 = .ended (.ok (some [0, 0, 0, 0, 8, 110, 117, 108, 108])) :=
    Stage.frame?_some (by decide +kernel)
  have own : Session.constant.mode ≠ .useLatest :=
    show ResolutionMode.autoRegister false ≠ .useLatest from nofun
  obtain ⟨answers, _, _, frames⟩ :=
    known_as_answered Session.constant own Session.ticks (.startingAt 7) crowded
  obtain ⟨reply, answered, id, _⟩ := answers "s-value" 8 known
  obtain ⟨outcome, ended, same | ⟨e, fallen, _⟩⟩ := frames 2 _ framed
  · exact ⟨known, ⟨reply, answered, id⟩, framed, ended.trans (congrArg Stage.ended same)⟩
  · simp [crowded] at fallen

end Exchange
end FramedJson
