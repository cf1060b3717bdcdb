import FramedJson.Proofs.Encoder
import FramedJson.Proofs.Json.Canonical
import FramedJson.Proofs.Registry.Contents
import FramedJson.Proofs.Registry.Growth
import Mathlib.Data.List.Find
import Mathlib.Data.List.Nodup

/-!
Registering and looking up in canonical form. Registering compares the canonical text with the texts as
they are stored, looking up with their canonical forms. The two agree where the version that the one
finds is the version that the other finds, and always where a subject holds canonical texts only.
-/
namespace FramedJson

theorem readsBack_of_noReals {definition : String}
    (whole : ∀ document, Json.ofText definition = .ok document → document.noReals) :
    ReadsBack definition :=
  fun document read => Json.numbersReadBack_of_noReals (whole document read)

/-- What the request registers under the subject, if anything, is in canonical form. -/
def Request.Canonical (subject : String) : Request → Prop
  | .register other schema normalize =>
    other = subject → (schema.stored normalize).normalized = schema.stored normalize
  | .lookup _ _ _ => True
  | .latest _ => True

namespace Catalog

variable {catalog : Catalog} {subject : String} {schema : Schema}

def match? (catalog : Catalog) (subject : String) (schema : Schema) : Option SubjectVersion :=
  (catalog.versionsOf subject).find? (matching schema true)

/-- The two ways to find a schema in canonical form give the same version of the subject, or none. -/
def FindsAlike (catalog : Catalog) (subject : String) (schema : Schema) : Prop :=
  catalog.match? subject schema = catalog.held? subject schema.normalized.fingerprint

theorem matching_normalized (exact : ReadsBack schema.definition) (version id : UInt32) :
    matching schema true ⟨version, id, schema.normalized, schema.normalized.fingerprint⟩ = true := by
  rw [matching, if_pos rfl]
  exact decide_eq_true (by rw [Schema.normalized_normalized exact])

theorem register_of_lookup (alike : catalog.FindsAlike subject schema) {found : RegisteredSchema}
    (looked : catalog.lookup subject schema true = .ok found) :
    catalog.register subject schema true = (catalog, found.schemaId) := by
  obtain ⟨entry, first, rfl⟩ := lookup_ok looked
  have held : catalog.held? subject (schema.stored true).fingerprint = some entry :=
    alike.symm.trans first
  exact register_held catalog subject held

theorem lookup_of_register (exact : ReadsBack schema.definition)
    (alike : catalog.FindsAlike subject schema) :
    ∃ found, (catalog.register subject schema true).1.lookup subject schema true = .ok found ∧
      found.schemaId = (catalog.register subject schema true).2 := by
  cases held : catalog.held? subject (schema.stored true).fingerprint with
  | some entry =>
    rw [register_held catalog subject held]
    exact ⟨entry.registered subject, lookup_found (alike.trans held), rfl⟩
  | none =>
    have unmatched : catalog.match? subject schema = none := alike.trans held
    refine ⟨(catalog.newVersion subject (schema.stored true)).registered subject,
      lookup_found ?_, ?_⟩
    · unfold match? at unmatched
      rw [versionsOf_register_new catalog subject held, List.find?_append,
        unmatched, Option.none_or]
      exact List.find?_cons_of_pos (matching_normalized exact _ _)
    · rw [register_new catalog subject held]
      rfl

theorem findsAlike_of_lookup
    (distinct : ∀ a ∈ (catalog.register subject schema true).1.versionsOf subject,
      ∀ b ∈ (catalog.register subject schema true).1.versionsOf subject,
      a.schemaId = b.schemaId → a = b) {found : RegisteredSchema}
    (looked : (catalog.register subject schema true).1.lookup subject schema true = .ok found)
    (same : found.schemaId = (catalog.register subject schema true).2) :
    catalog.FindsAlike subject schema := by
  obtain ⟨entry, first, rfl⟩ := lookup_ok looked
  obtain ⟨kept, holds, id⟩ := register_holds catalog subject schema true
  have unique : entry = kept :=
    distinct entry (List.mem_of_find?_eq_some first) kept (List.mem_of_find?_eq_some holds)
      (same.trans id.symm)
  subst unique
  cases held : catalog.held? subject (schema.stored true).fingerprint with
  | some old =>
    rw [register_held catalog subject held] at first holds
    exact first.trans holds.symm
  | none =>
    refine Eq.trans ?_ held.symm
    cases earlier : catalog.match? subject schema with
    | none => rfl
    | some old =>
      -- An earlier match would still be the first, and the content it holds is not there.
      have still := (register_extends catalog subject schema true).find? earlier
      obtain rfl : old = entry := Option.some.inj (still.symm.trans first)
      have fingerprint := List.find?_some holds
      have absent := List.find?_eq_none.mp held old (List.mem_of_find?_eq_some earlier)
      exact absurd fingerprint absent

section Canonical

def CanonicalUnder (subject : String) (catalog : Catalog) : Prop :=
  ∀ entry ∈ catalog.versionsOf subject,
    entry.schema.normalized = entry.schema ∧ entry.fingerprint = entry.schema.fingerprint

theorem CanonicalUnder.findsAlike (canonical : CanonicalUnder subject catalog) (schema : Schema) :
    catalog.FindsAlike subject schema := by
  refine List.find?_congr ?_
  intro entry member
  obtain ⟨own, fingerprint⟩ := canonical entry member
  rw [matching, if_pos rfl, own, fingerprint]

theorem register_canonicalUnder {other : String} {normalize : Bool}
    (canonical : CanonicalUnder subject catalog)
    (stored : other = subject → (schema.stored normalize).normalized = schema.stored normalize) :
    CanonicalUnder subject (catalog.register other schema normalize).1 := by
  intro entry member
  rcases mem_versionsOf_register catalog other member with earlier | ⟨same, _, rfl⟩
  · exact canonical entry earlier
  · exact ⟨stored same, rfl⟩

theorem answer_canonicalUnder {request : Request} (canonical : CanonicalUnder subject catalog)
    (stored : request.Canonical subject) :
    CanonicalUnder subject (catalog.answer request).1 := by
  cases request with
  | register other schema normalize => exact register_canonicalUnder canonical stored
  | lookup other schema normalize => exact canonical
  | latest other => exact canonical

end Canonical

theorem Mirrors.distinct {firstId : UInt32} {writes : List Write}
    (mirrors : catalog.Mirrors firstId writes) (few : (Write.contents writes).length < 2 ^ 32) :
    ∀ a ∈ catalog.versionsOf subject, ∀ b ∈ catalog.versionsOf subject,
      a.schemaId = b.schemaId → a = b := by
  intro a first b second same
  obtain ⟨own, id⟩ := mirrors.entry first
  obtain ⟨own', id'⟩ := mirrors.entry second
  have content : a.schema.content = b.schema.content :=
    Write.idFor_injective few (Write.mem_contents_of_subject own)
      (Write.mem_contents_of_subject own') (id.symm.trans (same.trans id'))
  have differ : ((catalog.versionsOf subject).map fun entry => entry.schema.content).Nodup := by
    rw [mirrors.stock]
    exact Write.contents_nodup _
  exact List.inj_on_of_nodup_map differ first second content

end Catalog

namespace MemoryRegistry

open Write

theorem serveAll_extends (registry : MemoryRegistry) (requests : List Request) :
    registry.catalog.Extends (registry.serveAll requests).catalog := by
  induction requests generalizing registry with
  | nil => exact Catalog.Extends.refl _
  | cons request rest ih =>
    exact (Catalog.answer_extends registry.catalog request).trans (ih (registry.serve request).1)

theorem serveAll_append (registry : MemoryRegistry) (past future : List Request) :
    registry.serveAll (past ++ future) = (registry.serveAll past).serveAll future :=
  List.foldl_append

theorem settled_of_run {registry : MemoryRegistry} {before requests : List Request}
    {request : Request} {reply : Reply} (about : request.aboutSchema = true)
    (ran : before ++ [request] <+: requests)
    (answered : ((registry.serveAll before).serve request).2 = .ok reply) :
    (registry.serveAll requests).catalog.settledId? request = some reply.schemaId := by
  obtain ⟨after, rfl⟩ := ran
  rw [serveAll_append, serveAll_append]
  exact (serveAll_extends _ after).settled (Catalog.settled_of_answer about answered)

theorem serveAll_canonicalUnder {subject : String} {registry : MemoryRegistry}
    (canonical : registry.catalog.CanonicalUnder subject) {requests : List Request}
    (stored : ∀ request ∈ requests, request.Canonical subject) :
    (registry.serveAll requests).catalog.CanonicalUnder subject :=
  serveAll_keeps (fun request member _ canonical =>
    Catalog.answer_canonicalUnder canonical (stored request member)) canonical

/-- Some time in the run the encoder asks for the id of the subject, and writes the frame with it. -/
def Frames {α : Type} (firstId : UInt32) (requests : List Request) (encoder : Encoder α)
    (subject : String) (frame : List UInt8) : Prop :=
  ∃ before cache object context after later, encoder.subject context = subject ∧
    cache.get? subject = none ∧ before ++ [encoder.request subject] <+: requests ∧
    encoder.encodeVia serve ((startingAt firstId).serveAll before) cache (some object) context =
      (after, later, .ok (some frame))

theorem Frames.settled {α : Type} {firstId : UInt32} {requests : List Request}
    {encoder : Encoder α} {subject : String} {frame : List UInt8}
    (frames : Frames firstId requests encoder subject frame)
    (about : (encoder.request subject).aboutSchema = true) :
    ∃ id, (frame.drop 1).take 4 = Envelope.idBytes id ∧
      ((startingAt firstId).serveAll requests).catalog.settledId? (encoder.request subject) =
        some id := by
  obtain ⟨before, cache, object, context, after, later, rfl, unknown, ran, framed⟩ := frames
  rw [Encoder.encodeVia_unknown encoder unknown] at framed
  have resumed := (Prod.mk.inj framed).2
  cases answered : (((startingAt firstId).serveAll before).serve
      (encoder.request (encoder.subject context))).2 with
  | error e =>
    rw [answered, Encoder.resume_error] at resumed
    cases resumed
  | ok reply =>
    rw [answered, Encoder.resume_unknown encoder unknown] at resumed
    obtain ⟨bytes, made, same⟩ := Outcome.map_ok (Prod.mk.inj resumed).2
    cases same
    exact ⟨reply.schemaId, Encoder.frame_id made, settled_of_run about ran answered⟩

/-- Take a schema whose numbers are read back from its canonical text. Registering it in canonical form
gives the version that looking it up in canonical form gives, before and after, exactly where the two
find alike. That is so wherever the subject was given canonical texts only; there an encoder that
registers the schema and one that looks it up write the same id for the subject. -/
theorem normalized_agree_iff (firstId : UInt32) (requests : List Request) (subject : String)
    (schema : Schema) (exact : ReadsBack schema.definition)
    (apart : Apart (contents (writes (requests ++ [.register subject schema true]))))
    (few : (contents (writes (requests ++ [.register subject schema true]))).length < 2 ^ 32) :
    let catalog := ((startingAt firstId).serveAll requests).catalog
    let registered := catalog.register subject schema true
    ((∀ found, catalog.lookup subject schema true = .ok found →
        registered = (catalog, found.schemaId)) ∧
      (∃ found, registered.1.lookup subject schema true = .ok found ∧
        found.schemaId = registered.2) ↔ catalog.FindsAlike subject schema) ∧
    ((∀ request ∈ requests, request.Canonical subject) →
      catalog.FindsAlike subject schema ∧
      ∀ {α β : Type} (writer : Encoder α) (reader : Encoder β) (frame frame' : List UInt8),
        writer.schema = schema → reader.schema = schema →
        writer.mode = .autoRegister true → reader.mode = .lookupOnly true →
        Frames firstId requests writer subject frame →
        Frames firstId requests reader subject frame' →
        (frame.drop 1).take 4 = (frame'.drop 1).take 4) := by
  intro catalog registered
  have mirrors : registered.1.Mirrors firstId
      (writes (requests ++ [.register subject schema true])) := by
    have whole := mirrors_of_requests firstId apart
    rw [serveAll_append] at whole
    exact whole
  constructor
  · constructor
    · rintro ⟨_, found, looked, same⟩
      exact Catalog.findsAlike_of_lookup (mirrors.distinct few) looked same
    · intro alike
      exact ⟨fun found looked => Catalog.register_of_lookup alike looked,
        Catalog.lookup_of_register exact alike⟩
  · intro stored
    have start : (startingAt firstId).catalog.CanonicalUnder subject :=
      fun entry none => nomatch none
    have alike : catalog.FindsAlike subject schema :=
      (serveAll_canonicalUnder start stored).findsAlike schema
    refine ⟨alike, ?_⟩
    intro α β writer reader frame frame' own own' registers looks wrote read
    have asked : writer.request subject = .register subject schema true := by
      rw [Encoder.request, registers, own]
      rfl
    have asked' : reader.request subject = .lookup subject schema true := by
      rw [Encoder.request, looks, own']
      rfl
    obtain ⟨id, carried, settled⟩ := wrote.settled (by rw [asked]; rfl)
    obtain ⟨id', carried', settled'⟩ := read.settled (by rw [asked']; rfl)
    rw [asked] at settled
    rw [asked'] at settled'
    have same : some id = some id' := by
      rw [← settled, ← settled']
      exact congrArg (Option.map (·.schemaId)) alike.symm
    rw [carried, carried', Option.some.inj same]

def shuffled : Schema := ⟨"\x7b\"b\": [1, -2], \"a\": \x7b\x7d\x7d", .json, []⟩

def canonicalOnly : List Request :=
  [.register "s" shuffled true, .lookup "s" shuffled true]

theorem normalized_agree_iff_shuffled :
    let catalog := ((startingAt 5).serveAll canonicalOnly).catalog
    catalog.FindsAlike "s" shuffled ∧ catalog.lookup "s" shuffled true = .ok ⟨5, "s", 1⟩ ∧
      catalog.register "s" shuffled true = (catalog, 5) := by
  have exact : ReadsBack shuffled.definition := by
    refine readsBack_of_noReals fun document read => ?_
    have whole : (Json.ofText shuffled.definition).toOption.map Json.noReals = some true := by
      decide +kernel
    rw [read] at whole
    exact Option.some.inj whole
  have single : contents (writes (canonicalOnly ++ [.register "s" shuffled true])) =
      [shuffled.normalized.content] := by decide +kernel
  have apart : Apart (contents (writes (canonicalOnly ++ [.register "s" shuffled true]))) := by
    intro a here b there _
    rw [single, List.mem_singleton] at here there
    rw [here, there]
  obtain ⟨agree, canonical⟩ := normalized_agree_iff 5 canonicalOnly "s" shuffled exact apart
    (by rw [single]; decide)
  have stored : ∀ request ∈ canonicalOnly, request.Canonical "s" := by
    intro request member
    simp only [canonicalOnly, List.mem_cons, List.not_mem_nil, or_false] at member
    rcases member with rfl | rfl
    · exact fun _ => Schema.normalized_normalized exact
    · trivial
  have alike := (canonical stored).1
  have looked : ((startingAt 5).serveAll canonicalOnly).catalog.lookup "s" shuffled true =
      .ok ⟨5, "s", 1⟩ := Outcome.toOption_some (by decide +kernel)
  exact ⟨alike, looked, (agree.mpr alike).1 _ looked⟩

def spread : Schema := ⟨"\x7b \x7d", .json, []⟩

theorem normalized_register_beside_match :
    let registry := (startingAt 1).serveAll [.register "s" spread false]
    let after := (registry.serve (.register "s" spread true)).1
    (registry.serve (.lookup "s" spread true)).2 = .ok (.version ⟨1, "s", 1⟩) ∧
    (registry.serve (.register "s" spread true)).2 = .ok (.id 2) ∧
    after.catalog.versions "s" = [1, 2] ∧
    (after.serve (.lookup "s" spread true)).2 = .ok (.version ⟨1, "s", 1⟩) := by
  refine ⟨Outcome.toOption_some ?_, Outcome.toOption_some ?_, ?_, Outcome.toOption_some ?_⟩
  · decide +kernel
  · decide +kernel
  · decide +kernel
  · decide +kernel

end MemoryRegistry
end FramedJson
