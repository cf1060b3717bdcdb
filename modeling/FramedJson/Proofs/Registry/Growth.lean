import FramedJson.Resolution
import FramedJson.Proofs.Outcome
import FramedJson.Proofs.Registry.Catalog

namespace FramedJson

def Request.aboutSchema : Request → Bool
  | .register _ _ _ => true
  | .lookup _ _ _ => true
  | .latest _ => false

theorem ResolutionMode.request_aboutSchema {mode : ResolutionMode} (own : mode ≠ .useLatest)
    (subject : String) (schema : Schema) : (mode.request subject schema).aboutSchema = true := by
  cases mode with
  | autoRegister normalize => rfl
  | useLatest => exact absurd rfl own
  | lookupOnly normalize => rfl

namespace Catalog

/-- The versions of `later` are those of `earlier` with more behind them. -/
def Extends (earlier later : Catalog) : Prop :=
  ∀ subject, earlier.versionsOf subject <+: later.versionsOf subject

theorem Extends.refl (catalog : Catalog) : catalog.Extends catalog :=
  fun _ => List.prefix_refl _

theorem Extends.trans {a b c : Catalog} (first : a.Extends b) (second : b.Extends c) : a.Extends c :=
  fun subject => (first subject).trans (second subject)

theorem Extends.find? {earlier later : Catalog} (grown : earlier.Extends later) {subject : String}
    {serves : SubjectVersion → Bool} {entry : SubjectVersion}
    (found : (earlier.versionsOf subject).find? serves = some entry) :
    (later.versionsOf subject).find? serves = some entry := by
  obtain ⟨more, appended⟩ := grown subject
  rw [← appended, List.find?_append, found, Option.some_or]

theorem register_extends (catalog : Catalog) (subject : String) (schema : Schema)
    (normalize : Bool) : catalog.Extends (catalog.register subject schema normalize).1 := by
  intro other
  cases held : catalog.held? subject (schema.stored normalize).fingerprint with
  | some entry =>
    refine ⟨[], ?_⟩
    rw [register_held catalog subject held, List.append_nil]
  | none =>
    rw [register_new catalog subject held, versionsOf_put]
    by_cases same : subject = other
    · rw [if_pos same, same]
      exact List.prefix_append _ _
    · refine ⟨[], ?_⟩
      rw [if_neg same, List.append_nil]

theorem answer_extends (catalog : Catalog) (request : Request) :
    catalog.Extends (catalog.answer request).1 := by
  cases request with
  | register subject schema normalize => exact register_extends catalog subject schema normalize
  | lookup subject schema normalize => exact Extends.refl catalog
  | latest subject => exact Extends.refl catalog

theorem lookup_found {catalog : Catalog} {subject : String} {schema : Schema} {normalize : Bool}
    {entry : SubjectVersion}
    (found : (catalog.versionsOf subject).find? (matching schema normalize) = some entry) :
    catalog.lookup subject schema normalize = .ok (entry.registered subject) := by
  unfold versionsOf at found
  unfold lookup
  cases listed : Assoc.find? subject catalog.subjects with
  | none =>
    rw [listed] at found
    cases found
  | some versions =>
    rw [listed, Option.getD_some] at found
    simp only [found]

theorem lookup_ok {catalog : Catalog} {subject : String} {schema : Schema} {normalize : Bool}
    {reply : RegisteredSchema} (found : catalog.lookup subject schema normalize = .ok reply) :
    ∃ entry, (catalog.versionsOf subject).find? (matching schema normalize) = some entry ∧
      reply = entry.registered subject := by
  cases first : (catalog.versionsOf subject).find? (matching schema normalize) with
  | some entry =>
    rw [lookup_found first] at found
    exact ⟨entry, rfl, (Except.ok.inj found).symm⟩
  | none =>
    unfold versionsOf at first
    unfold lookup at found
    cases listed : Assoc.find? subject catalog.subjects with
    | none =>
      rw [listed] at found
      cases found
    | some versions =>
      rw [listed, Option.getD_some] at first
      simp only [listed, first] at found
      cases found

/-- The id that a request about one schema gives from now on, if that is decided. -/
def settledId? (catalog : Catalog) : Request → Option UInt32
  | .register subject schema normalize =>
    (catalog.held? subject (schema.stored normalize).fingerprint).map (·.schemaId)
  | .lookup subject schema normalize =>
    ((catalog.versionsOf subject).find? (matching schema normalize)).map (·.schemaId)
  | .latest _ => none

variable {catalog : Catalog} {request : Request} {id : UInt32}

theorem answer_of_settled (settled : catalog.settledId? request = some id) :
    ∃ reply, catalog.answer request = (catalog, .ok reply) ∧ reply.schemaId = id := by
  cases request with
  | register subject schema normalize =>
    obtain ⟨entry, held, rfl⟩ := Option.map_eq_some_iff.mp settled
    refine ⟨.id entry.schemaId, ?_, rfl⟩
    simp only [answer, register_held catalog subject held]
  | lookup subject schema normalize =>
    obtain ⟨entry, found, rfl⟩ := Option.map_eq_some_iff.mp settled
    refine ⟨.version (entry.registered subject), ?_, rfl⟩
    simp only [answer, lookup_found found, Except.map]
  | latest subject => cases settled

theorem settled_of_answer {reply : Reply} (about : request.aboutSchema = true)
    (answered : (catalog.answer request).2 = .ok reply) :
    (catalog.answer request).1.settledId? request = some reply.schemaId := by
  cases request with
  | register subject schema normalize =>
    obtain ⟨entry, held, same⟩ := register_holds catalog subject schema normalize
    cases answered
    exact Option.map_eq_some_iff.mpr ⟨entry, held, same⟩
  | lookup subject schema normalize =>
    obtain ⟨found, looked, rfl⟩ := Outcome.map_ok answered
    obtain ⟨entry, first, rfl⟩ := lookup_ok looked
    exact Option.map_eq_some_iff.mpr ⟨entry, first, rfl⟩
  | latest subject => cases about

theorem Extends.settled {earlier later : Catalog} (grown : earlier.Extends later)
    (settled : earlier.settledId? request = some id) : later.settledId? request = some id := by
  cases request with
  | register subject schema normalize =>
    obtain ⟨entry, held, same⟩ := Option.map_eq_some_iff.mp settled
    exact Option.map_eq_some_iff.mpr ⟨entry, grown.find? held, same⟩
  | lookup subject schema normalize =>
    obtain ⟨entry, found, same⟩ := Option.map_eq_some_iff.mp settled
    exact Option.map_eq_some_iff.mpr ⟨entry, grown.find? found, same⟩
  | latest subject => cases settled

end Catalog
end FramedJson
