import FramedJson.Ledger
import FramedJson.Proofs.CallEffects

namespace FramedJson

namespace Encoder

variable {α : Type}

theorem request_subject (encoder : Encoder α) (subject : String) :
    (encoder.request subject).subject = subject := by
  rw [request]
  cases encoder.mode with
  | autoRegister normalize => rfl
  | useLatest => rfl
  | lookupOnly normalize => rfl

/-- No conversion ends with an error of the registry's. -/
def ConvertsUnasked (toDocument : α → Context → Except CodecError Json) : Prop :=
  ∀ object context subject e, toDocument object context ≠ .error (.registry subject e)

theorem frame_unrefused {encoder : Encoder α} (unasked : ConvertsUnasked encoder.toDocument)
    (object : α) (context : Context) (id : UInt32) :
    Ledger.refusal? ((encoder.frame object context id).map some) = none := by
  cases framed : encoder.frame object context id with
  | ok bytes => rfl
  | error e =>
    rcases frame_error framed with unmade | ⟨document, violations, _, _, rfl⟩
    · cases e with
      | registry subject fault => exact absurd unmade (unasked object context subject fault)
      | _ => rfl
    · rfl

theorem build_request {definition : String} {options : Options} {references : List SchemaReference}
    {toDocument : α → Context → Except CodecError Json} {encoder : Encoder α}
    (built : build definition options references toDocument = .ok encoder) (subject : String) :
    encoder.request subject =
      if options.useLatest then .latest subject
      else if options.autoRegister then
        .register subject ⟨definition, .json, references⟩ options.normalize
      else .lookup subject ⟨definition, .json, references⟩ options.normalize := by
  obtain ⟨_, _, _, _, _, rfl⟩ := build_ok built
  simp only [request, mode, Options.mode]
  split
  · rfl
  · split <;> rfl

end Encoder

namespace Ledger

variable {α σ : Type}

inductive Posted (encoder : Encoder α) (ledger next : Ledger σ) : Prop
  | nothing (inquiries : next.inquiries = ledger.inquiries) (cache : next.cache = ledger.cache)
      (refusals : next.refusals = ledger.refusals)
  | refusal (subject : String) (e : RegistryError) (unknown : ledger.cache.get? subject = none)
      (inquiries : next.inquiries = ledger.inquiries ++ [⟨encoder.request subject, .error e⟩])
      (cache : next.cache = ledger.cache)
      (refusals : next.refusals = ledger.refusals ++ [(subject, e)])
  | resolution (subject : String) (reply : Reply) (unknown : ledger.cache.get? subject = none)
      (inquiries : next.inquiries = ledger.inquiries ++ [⟨encoder.request subject, .ok reply⟩])
      (cache : next.cache = ⟨Assoc.put subject reply.schemaId ledger.cache.ids⟩)
      (refusals : next.refusals = ledger.refusals)

theorem refusals_snoc (state : σ) (cache : SubjectCache) (inquiries : List Inquiry)
    (outcomes : List Encoder.Outcome) (outcome : Encoder.Outcome) :
    (Ledger.mk state cache inquiries (outcomes ++ [outcome])).refusals =
      outcomes.filterMap refusal? ++ (refusal? outcome).toList := by
  rw [refusals, List.filterMap_append]
  cases given : refusal? outcome with
  | none => simp [given]
  | some refusal => simp [given]

variable {encoder : Encoder α} {ask : σ → Request → σ × Except RegistryError Reply}

theorem posted_of_course (unasked : Encoder.ConvertsUnasked encoder.toDocument) {ledger : Ledger σ}
    {object : Option α} {context : Context} {call : Encoder.Trace (σ × List Inquiry)}
    (course : encoder.Course (logging ask) (ledger.state, ledger.inquiries) ledger.cache context object
      call) :
    Posted encoder ledger
      ⟨call.state.1, call.cache, call.state.2, ledger.outcomes ++ [call.outcome]⟩ := by
  cases course with
  | idle => exact .nothing rfl rfl ((refusals_snoc ..).trans (List.append_nil _))
  | known object id known =>
    refine .nothing rfl rfl ((refusals_snoc ..).trans ?_)
    rw [Encoder.frame_unrefused unasked]
    exact List.append_nil _
  | refused object e unknown answer =>
    refine .refusal (encoder.subject context) e unknown ?_ rfl (refusals_snoc ..)
    exact congrArg (ledger.inquiries ++ [⟨encoder.request (encoder.subject context), ·⟩]) answer
  | resolved object reply unknown answer =>
    refine .resolution (encoder.subject context) reply unknown ?_ rfl ((refusals_snoc ..).trans ?_)
    · exact congrArg (ledger.inquiries ++ [⟨encoder.request (encoder.subject context), ·⟩]) answer
    · rw [Encoder.frame_unrefused unasked]
      exact List.append_nil _

theorem step_posted (unasked : Encoder.ConvertsUnasked encoder.toDocument) (ledger : Ledger σ)
    (call : Call α) : Posted encoder ledger (ledger.step encoder ask call) := by
  have course := encoder.trace_course (logging ask) (ledger.state, ledger.inquiries) ledger.cache
    call.context call.object
  rw [step, course.encodes]
  exact posted_of_course unasked course

theorem about_snoc {ledger next : Ledger σ} {inquiry : Inquiry}
    (sent : next.inquiries = ledger.inquiries ++ [inquiry]) (subject : String) :
    next.about subject =
      ledger.about subject ++ if inquiry.request.subject = subject then [inquiry] else [] := by
  rw [about, sent, List.filter_append, ← about]
  by_cases same : inquiry.request.subject = subject <;> simp [same]

theorem refused_snoc {ledger next : Ledger σ} {refusal : String × RegistryError}
    (given : next.refusals = ledger.refusals ++ [refusal]) (encoder : Encoder α) (subject : String) :
    next.refused encoder subject = ledger.refused encoder subject ++
      if refusal.1 = subject then [⟨encoder.request subject, .error refusal.2⟩] else [] := by
  rw [refused, given, List.filter_append, List.map_append, ← refused]
  by_cases same : refusal.1 = subject <;> simp [same]

theorem refused_same {ledger next : Ledger σ} (same : next.refusals = ledger.refusals)
    (encoder : Encoder α) (subject : String) :
    next.refused encoder subject = ledger.refused encoder subject := by
  rw [refused, same, ← refused]

/-- The books of an encoder: whose requests they are, how many, and what became of those about each
subject. -/
structure Balanced (encoder : Encoder α) (ledger : Ledger σ) : Prop where
  own : ∀ inquiry ∈ ledger.inquiries, inquiry.request = encoder.request inquiry.request.subject
  count : ledger.inquiries.length = ledger.refusals.length + ledger.cache.size
  names : ledger.cache.NamesDiffer
  bySubject : ∀ subject,
    ledger.cache.get? subject = none ∧ ledger.about subject = ledger.refused encoder subject ∨
    ∃ reply, ledger.cache.get? subject = some reply.schemaId ∧
      ledger.about subject =
        ledger.refused encoder subject ++ [⟨encoder.request subject, .ok reply⟩]

theorem balanced_opened (encoder : Encoder α) (state : σ) : Balanced encoder (opened state) where
  own := fun _ member => absurd member List.not_mem_nil
  count := rfl
  names := List.nodup_nil
  bySubject := fun _ => .inl ⟨rfl, rfl⟩

theorem Balanced.refused_only {ledger : Ledger σ} (balanced : Balanced encoder ledger)
    {subject : String} (unknown : ledger.cache.get? subject = none) :
    ledger.about subject = ledger.refused encoder subject := by
  rcases balanced.bySubject subject with ⟨_, refused⟩ | ⟨reply, known, _⟩
  · exact refused
  · cases unknown.symm.trans known

theorem Balanced.post {ledger next : Ledger σ} (balanced : Balanced encoder ledger)
    (posted : Posted encoder ledger next) : Balanced encoder next := by
  have ownRequest (subject : String) :
      encoder.request subject = encoder.request (encoder.request subject).subject :=
    congrArg encoder.request (encoder.request_subject subject).symm
  cases posted with
  | nothing inquiries cache refusals =>
    refine ⟨?_, ?_, ?_, fun subject => ?_⟩
    · rw [inquiries]
      exact balanced.own
    · rw [inquiries, refusals, cache]
      exact balanced.count
    · rw [cache]
      exact balanced.names
    · rw [cache, refused_same refusals, about, inquiries]
      exact balanced.bySubject subject
  | refusal subject e unknown inquiries cache refusals =>
    refine ⟨?_, ?_, ?_, fun other => ?_⟩
    · rw [inquiries]
      exact List.forall_mem_append.mpr ⟨balanced.own, List.forall_mem_singleton.mpr (ownRequest subject)⟩
    · rw [inquiries, refusals, cache, List.length_append, List.length_append, balanced.count]
      simp only [List.length_singleton]
      omega
    · rw [cache]
      exact balanced.names
    · rw [cache, about_snoc inquiries, refused_snoc refusals, encoder.request_subject]
      by_cases same : subject = other
      · subst same
        rw [if_pos rfl, balanced.refused_only unknown]
        exact .inl ⟨unknown, rfl⟩
      · rw [if_neg same, if_neg same, List.append_nil, List.append_nil]
        exact balanced.bySubject other
  | resolution subject reply unknown inquiries cache refusals =>
    refine ⟨?_, ?_, ?_, fun other => ?_⟩
    · rw [inquiries]
      exact List.forall_mem_append.mpr ⟨balanced.own, List.forall_mem_singleton.mpr (ownRequest subject)⟩
    · rw [inquiries, refusals, cache, List.length_append, balanced.count, SubjectCache.size,
        SubjectCache.size, Assoc.put_of_absent (Assoc.absent_of_find? unknown), List.length_append]
      simp only [List.length_singleton]
      omega
    · rw [cache]
      exact Assoc.nodup_put subject reply.schemaId balanced.names
    · rw [cache, about_snoc inquiries, refused_same refusals, SubjectCache.get?_put,
        encoder.request_subject]
      by_cases same : subject = other
      · subst same
        rw [if_pos rfl, if_pos rfl, balanced.refused_only unknown]
        exact .inr ⟨reply, rfl, rfl⟩
      · rw [if_neg same, if_neg same, List.append_nil]
        exact balanced.bySubject other

theorem balanced_run (unasked : Encoder.ConvertsUnasked encoder.toDocument)
    (ask : σ → Request → σ × Except RegistryError Reply) (state : σ) (calls : List (Call α)) :
    Balanced encoder ((opened state).run encoder ask calls) :=
  List.foldlRecOn calls _ (balanced_opened encoder state) fun ledger balanced call _ =>
    balanced.post (step_posted unasked ledger call)

end Ledger

/-- Calls on a new encoder, one after the other, over any registry and with any objects. The requests
that went out are as many as the registry errors that were given back and the subjects that are known;
each is of the one kind that the options name and about the encoder's own schema; and those about one
subject are the ones refused, each with the error given back for it, and behind them the one that was
answered with the id, if the subject is known. -/
theorem Encoder.requests_accounted {α σ : Type} {definition : String} {options : Options}
    {references : List SchemaReference} {toDocument : α → Context → Except CodecError Json}
    {encoder : Encoder α}
    (built : Encoder.build definition options references toDocument = .ok encoder)
    (unasked : ∀ object context subject e, toDocument object context ≠ .error (.registry subject e))
    (ask : σ → Request → σ × Except RegistryError Reply) (state : σ) (calls : List (Call α)) :
    let ledger := (Ledger.opened state).run encoder ask calls
    ledger.inquiries.length = ledger.refusals.length + ledger.cache.size ∧
    (ledger.cache.ids.map Prod.fst).Nodup ∧
    (∀ inquiry ∈ ledger.inquiries, ∃ subject, inquiry.request =
      if options.useLatest then .latest subject
      else if options.autoRegister then
        .register subject ⟨definition, .json, references⟩ options.normalize
      else .lookup subject ⟨definition, .json, references⟩ options.normalize) ∧
    ∀ subject,
      let refused := (ledger.refusals.filter fun refusal => refusal.1 = subject).map fun refusal =>
        Inquiry.mk (encoder.request subject) (.error refusal.2)
      (ledger.cache.get? subject = none ∧ ledger.about subject = refused) ∨
      ∃ reply, ledger.cache.get? subject = some reply.schemaId ∧
        ledger.about subject = refused ++ [⟨encoder.request subject, .ok reply⟩] := by
  intro ledger
  have own : encoder.toDocument = toDocument := by
    obtain ⟨_, _, _, _, _, rfl⟩ := Encoder.build_ok built
    rfl
  have balanced : Ledger.Balanced encoder ledger :=
    Ledger.balanced_run (own ▸ unasked) ask state calls
  refine ⟨balanced.count, balanced.names, ?_, balanced.bySubject⟩
  intro inquiry member
  refine ⟨inquiry.request.subject, ?_⟩
  rw [← Encoder.build_request built]
  exact balanced.own inquiry member

namespace Encoder

def nullText : String := "\x7b\"title\":\"T\",\"type\":\"null\"\x7d"

def documentIfAny : Option Json → Context → Except CodecError Json
  | some document, _ => .ok document
  | none, _ => .error (.conversion "no document")

def lookingUp : Except CodecError (Encoder (Option Json)) :=
  build nullText ⟨false, true, false, .byTopic⟩ [] documentIfAny

def downTwice (served : Nat) (_ : Request) : Nat × Except RegistryError Reply :=
  (served + 1, if served < 2 then .error (.transport "down") else .ok (.id 9))

/-- No object, two refusals, a conversion that fails on the answer, a document that is not valid under the
known id, and another subject. -/
def mishaps : List (Call (Option Json)) :=
  [⟨none, ⟨"s", .value⟩⟩, ⟨some (some .null), ⟨"s", .value⟩⟩, ⟨some (some .null), ⟨"s", .value⟩⟩,
   ⟨some none, ⟨"s", .value⟩⟩, ⟨some (some (.bool true)), ⟨"s", .value⟩⟩,
   ⟨some (some .null), ⟨"s", .key⟩⟩]

theorem requests_accounted_mishaps :
    ∃ encoder, lookingUp = .ok encoder ∧
      let ledger := (Ledger.opened 0).run encoder downTwice mishaps
      let request : Request := .lookup "s-value" ⟨nullText, .json, []⟩ true
      ledger.inquiries.length = 4 ∧ ledger.cache.size = 2 ∧
      ledger.refusals = [("s-value", .transport "down"), ("s-value", .transport "down")] ∧
      ∃ reply, reply.schemaId = 9 ∧
        ledger.about "s-value" =
          [⟨request, .error (.transport "down")⟩, ⟨request, .error (.transport "down")⟩,
           ⟨request, .ok reply⟩] := by
  have books : lookingUp.toOption.map (fun encoder =>
      let ledger := (Ledger.opened 0).run encoder downTwice mishaps
      (ledger.refusals, ledger.cache.ids)) =
      some ([("s-value", .transport "down"), ("s-value", .transport "down")],
        [("s-value", 9), ("s-key", 9)]) := by decide +kernel
  cases built : lookingUp with
  | error e =>
    rw [built] at books
    cases books
  | ok encoder =>
    simp only [built, Except.toOption, Option.map_some, Option.some.injEq, Prod.mk.injEq] at books
    obtain ⟨refusals, ids⟩ := books
    have unasked : ∀ object context subject e,
        documentIfAny object context ≠ .error (.registry subject e) := by
      intro object context subject e converted
      cases object <;> cases converted
    obtain ⟨count, _, _, bySubject⟩ :=
      requests_accounted built unasked downTwice 0 mishaps
    have size : ((Ledger.opened 0).run encoder downTwice mishaps).cache.size = 2 := by
      rw [SubjectCache.size, ids]
      rfl
    have known : ((Ledger.opened 0).run encoder downTwice mishaps).cache.get? "s-value" = some 9 := by
      rw [SubjectCache.get?, ids]
      rfl
    rw [refusals, size] at count
    refine ⟨encoder, rfl, count, size, refusals, ?_⟩
    rcases bySubject "s-value" with ⟨unknown, _⟩ | ⟨reply, entry, about⟩
    · cases unknown.symm.trans known
    · refine ⟨reply, Option.some.inj (entry.symm.trans known), ?_⟩
      rw [about, refusals, build_request built]
      rfl

end Encoder
end FramedJson
