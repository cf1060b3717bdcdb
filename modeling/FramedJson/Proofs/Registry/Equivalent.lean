import FramedJson.Proofs.Json.Unordered
import FramedJson.Proofs.Registry.Normalized

/-!
Definitions of one document have one canonical text. Encoders that register them in canonical form
register one schema: it has one id under all subjects, and every subject holds it once. Nothing is
taken for granted about digests here; what shares a digest is registered once in any case.
-/
namespace FramedJson

/-- The text holds no document, or one without doubles. -/
def WithoutReals (definition : String) : Prop :=
  ∀ document, Json.ofText definition = .ok document → document.noReals

theorem withoutReals_of_check {definition : String}
    (whole : (Json.ofText definition).toOption.all Json.noReals = true) :
    WithoutReals definition := by
  intro document read
  rw [read] at whole
  exact whole

namespace Catalog

/-- Each subject has a digest at most once, and under all subjects by the id that is kept for it. -/
structure Indexed (catalog : Catalog) : Prop where
  once : ∀ subject, ((catalog.versionsOf subject).map (·.fingerprint)).Nodup
  known : ∀ subject, ∀ entry ∈ catalog.versionsOf subject,
    Assoc.find? entry.fingerprint catalog.ids = some entry.schemaId

theorem indexed_start (firstId : UInt32) : (startingAt firstId).Indexed where
  once := fun _ => List.nodup_nil
  known := fun _ _ none => nomatch none

section Steps

variable {catalog : Catalog}

theorem Indexed.register (indexed : catalog.Indexed) (subject : String) (schema : Schema)
    (normalize : Bool) : (catalog.register subject schema normalize).1.Indexed := by
  constructor
  · intro other
    cases held : catalog.held? subject (schema.stored normalize).fingerprint with
    | some entry =>
      rw [register_held catalog subject held]
      exact indexed.once other
    | none =>
      rw [register_new catalog subject held, versionsOf_put]
      split
      · simp only [List.map_append, List.map_cons, List.map_nil, List.nodup_append]
        refine ⟨indexed.once subject, List.pairwise_singleton _ _, ?_⟩
        intro digest here last new
        rintro rfl
        rw [List.mem_singleton.mp new] at here
        exact absent_of_held held here
      · exact indexed.once other
  · intro other entry member
    rcases mem_versionsOf_register catalog subject member with earlier | ⟨_, absent, rfl⟩
    · exact register_keeps_id catalog subject (indexed.known other entry earlier)
    · rw [register_new catalog subject absent]
      exact find?_claimId catalog _

theorem Indexed.answer (indexed : catalog.Indexed) (request : Request) :
    (catalog.answer request).1.Indexed := by
  cases request with
  | register subject schema normalize => exact indexed.register subject schema normalize
  | lookup subject schema normalize => exact indexed
  | latest subject => exact indexed

end Steps

section Registered

variable {catalog : Catalog} {subject : String} {schema : Schema} {normalize : Bool} {id : UInt32}

theorem Indexed.registered (indexed : catalog.Indexed)
    (settled : catalog.settledId? (.register subject schema normalize) = some id) :
    Assoc.find? (schema.stored normalize).fingerprint catalog.ids = some id ∧
      ((catalog.versionsOf subject).map (·.fingerprint)).count
        (schema.stored normalize).fingerprint = 1 := by
  obtain ⟨entry, held, rfl⟩ := Option.map_eq_some_iff.mp settled
  obtain ⟨member, same⟩ := fingerprint_of_held held
  have listed := List.mem_map_of_mem (f := SubjectVersion.fingerprint) member
  rw [same] at listed
  refine ⟨?_, List.count_eq_one_of_mem (indexed.once subject) listed⟩
  rw [← same]
  exact indexed.known subject entry member

def SoleUnder (subject : String) (stored : Schema) (catalog : Catalog) : Prop :=
  catalog.versionsOf subject = [] ∨
    ∃ id, catalog.versionsOf subject = [⟨1, id, stored, stored.fingerprint⟩]

theorem SoleUnder.register {stored : Schema} (sole : catalog.SoleUnder subject stored)
    {other : String} (own : other = subject → schema.stored normalize = stored) :
    (catalog.register other schema normalize).1.SoleUnder subject stored := by
  cases held : catalog.held? other (schema.stored normalize).fingerprint with
  | some entry =>
    rw [register_held catalog other held]
    exact sole
  | none =>
    rw [register_new catalog other held]
    unfold SoleUnder
    rw [versionsOf_put]
    by_cases same : other = subject
    · subst same
      obtain rfl := own rfl
      rcases sole with empty | ⟨id, single⟩
      · refine .inr ⟨catalog.idOf (schema.stored normalize).fingerprint, ?_⟩
        simp [newVersion, empty, nextVersion]
      · have absent := absent_of_held held
        simp [single] at absent
    · rw [if_neg same]
      exact sole

end Registered

end Catalog

def Request.StoresOnly (subject : String) (stored : Schema) : Request → Prop
  | .register other schema normalize => other = subject → schema.stored normalize = stored
  | .lookup _ _ _ => True
  | .latest _ => True

theorem Catalog.SoleUnder.answer {catalog : Catalog} {subject : String} {stored : Schema}
    (sole : catalog.SoleUnder subject stored) {request : Request}
    (only : request.StoresOnly subject stored) :
    (catalog.answer request).1.SoleUnder subject stored := by
  cases request with
  | register other schema normalize => exact sole.register only
  | lookup other schema normalize => exact sole
  | latest other => exact sole

namespace MemoryRegistry

/-- In the run the encoder is given this id and no other, whatever the subject, and writes it in every
frame whose id it asked for. -/
def GivenOnly {α : Type} (firstId : UInt32) (requests : List Request) (encoder : Encoder α)
    (id : UInt32) : Prop :=
  (∀ before subject, before ++ [encoder.request subject] <+: requests →
    (((startingAt firstId).serveAll before).serve (encoder.request subject)).2 = .ok (.id id)) ∧
  ∀ subject frame, Frames firstId requests encoder subject frame →
    (frame.drop 1).take 4 = Envelope.idBytes id

/-- The encoder registers the schema, in the given form, under any subject. -/
def Stores {α : Type} (encoder : Encoder α) (stored : Schema) : Prop :=
  ∀ subject, ∃ schema normalize, encoder.request subject = .register subject schema normalize ∧
    schema.stored normalize = stored

def finalId (firstId : UInt32) (requests : List Request) (stored : Schema) : UInt32 :=
  ((startingAt firstId).serveAll requests).catalog.idOf stored.fingerprint

theorem indexed_of_requests (firstId : UInt32) (requests : List Request) :
    ((startingAt firstId).serveAll requests).catalog.Indexed := by
  have start : (startingAt firstId).catalog.Indexed := Catalog.indexed_start firstId
  exact serveAll_keeps (fun request _ _ indexed => indexed.answer request) start

section Encoders

variable {α : Type} {firstId : UInt32} {requests : List Request} {encoder : Encoder α}
  {stored : Schema} {subject : String} {id : UInt32} (stores : Stores encoder stored)
include stores

theorem Stores.about (subject : String) : (encoder.request subject).aboutSchema = true := by
  obtain ⟨schema, normalize, asked, _⟩ := stores subject
  rw [asked]
  rfl

theorem Stores.storesOnly (subject other : String) :
    (encoder.request subject).StoresOnly other stored := by
  obtain ⟨schema, normalize, asked, same⟩ := stores subject
  rw [asked]
  exact fun _ => same

theorem Stores.settled
    (settled : ((startingAt firstId).serveAll requests).catalog.settledId?
      (encoder.request subject) = some id) :
    finalId firstId requests stored = id ∧
      ((((startingAt firstId).serveAll requests).catalog.versionsOf subject).map
        (·.fingerprint)).count stored.fingerprint = 1 := by
  have indexed := indexed_of_requests firstId requests
  obtain ⟨schema, normalize, asked, rfl⟩ := stores subject
  rw [asked] at settled
  obtain ⟨known, once⟩ := indexed.registered settled
  exact ⟨Catalog.idOf_known _ _ known, once⟩

theorem Stores.answered {before : List Request}
    (ran : before ++ [encoder.request subject] <+: requests) :
    (((startingAt firstId).serveAll before).serve (encoder.request subject)).2 =
        .ok (.id (finalId firstId requests stored)) ∧
      ((((startingAt firstId).serveAll requests).catalog.versionsOf subject).map
        (·.fingerprint)).count stored.fingerprint = 1 := by
  obtain ⟨schema, normalize, asked, _⟩ := stores subject
  have answered : (((startingAt firstId).serveAll before).serve (encoder.request subject)).2 =
      .ok (.id (((startingAt firstId).serveAll before).catalog.register subject schema
        normalize).2) := by
    rw [asked]
    rfl
  obtain ⟨same, once⟩ := stores.settled (settled_of_run (stores.about subject) ran answered)
  exact ⟨same ▸ answered, once⟩

theorem Stores.givenOnly : GivenOnly firstId requests encoder (finalId firstId requests stored) := by
  constructor
  · intro before subject ran
    exact (stores.answered ran).1
  · intro subject frame framed
    obtain ⟨id, carried, settled⟩ := framed.settled (stores.about subject)
    rw [carried, (stores.settled settled).1]

theorem Stores.held (firstId : UInt32) (asked : encoder.request subject ∈ requests) :
    let versions := ((startingAt firstId).serveAll requests).catalog.versionsOf subject
    (versions.map (·.fingerprint)).count stored.fingerprint = 1 ∧
      ((∀ request ∈ requests, request.StoresOnly subject stored) →
        versions = [⟨1, finalId firstId requests stored, stored, stored.fingerprint⟩]) := by
  intro versions
  obtain ⟨before, after, rfl⟩ := List.append_of_mem asked
  have ran : before ++ [encoder.request subject] <+: before ++ encoder.request subject :: after :=
    ⟨after, (List.append_cons before _ after).symm⟩
  have once : (versions.map (·.fingerprint)).count stored.fingerprint = 1 :=
    (stores.answered ran).2
  refine ⟨once, ?_⟩
  intro only
  have start : (startingAt firstId).catalog.SoleUnder subject stored := .inl rfl
  have final := serveAll_keeps (fun request member _ sole => sole.answer (only request member)) start
  rcases final with empty | ⟨id, single⟩
  · have empty : versions = [] := empty
    rw [empty] at once
    cases once
  · have known := (indexed_of_requests firstId _).known subject _
      (single ▸ List.mem_singleton.mpr rfl)
    rw [finalId, Catalog.idOf_known _ _ known]
    exact single

end Encoders

theorem stores_of_build {α : Type} {definition : String} {options : Options}
    {references : List SchemaReference} {toDocument : α → Context → Except CodecError Json}
    {encoder : Encoder α}
    (built : Encoder.build definition options references toDocument = .ok encoder)
    (registers : encoder.mode = .autoRegister true) :
    Stores encoder ⟨canonicalize definition, .json, references⟩ := by
  obtain ⟨_, _, _, _, _, rfl⟩ := Encoder.build_ok built
  intro subject
  refine ⟨⟨definition, .json, references⟩, true, ?_, rfl⟩
  rw [Encoder.request, registers]
  rfl

/-- The canonical text is the same for two definitions that are equivalent, and without doubles only for
those; it is then its own canonical text. So two encoders that register equivalent definitions in
canonical form, with the same references, are given one id in any run, for every subject and whoever
asks first, and a subject that either asked for holds what they register once. -/
theorem canonical_form_complete :
    (∀ definition other, equivalent definition other →
      canonicalize definition = canonicalize other) ∧
    (∀ definition other, WithoutReals definition → WithoutReals other →
      canonicalize definition = canonicalize other → equivalent definition other) ∧
    (∀ definition, WithoutReals definition →
      canonicalize (canonicalize definition) = canonicalize definition) ∧
    ∀ {α β : Type} (definition definition' : String) (options options' : Options)
      (references : List SchemaReference) (toDocument : α → Context → Except CodecError Json)
      (toDocument' : β → Context → Except CodecError Json) (one : Encoder α) (other : Encoder β),
      equivalent definition definition' →
      Encoder.build definition options references toDocument = .ok one →
      Encoder.build definition' options' references toDocument' = .ok other →
      one.mode = .autoRegister true → other.mode = .autoRegister true →
      ∀ firstId requests,
        let stored : Schema := ⟨canonicalize definition, .json, references⟩
        ∃ id, GivenOnly firstId requests one id ∧ GivenOnly firstId requests other id ∧
          ∀ subject, one.request subject ∈ requests ∨ other.request subject ∈ requests →
            let versions := ((startingAt firstId).serveAll requests).catalog.versionsOf subject
            (versions.map (·.fingerprint)).count stored.fingerprint = 1 ∧
            ((∀ request ∈ requests, request.StoresOnly subject stored) →
              versions = [⟨1, id, stored, stored.fingerprint⟩]) := by
  refine ⟨fun _ _ same => canonicalize_of_equivalent same, ?_, ?_, ?_⟩
  · intro definition other whole whole' same
    exact equivalent_of_canonicalize (readsBack_of_noReals whole) (readsBack_of_noReals whole') same
  · intro definition whole
    exact canonicalize_canonicalize (readsBack_of_noReals whole)
  · intro α β definition definition' options options' references toDocument toDocument' one other
      same built built' registers registers' firstId requests stored
    have stores : Stores one stored := stores_of_build built registers
    have stores' : Stores other stored := by
      have own := stores_of_build built' registers'
      rw [← canonicalize_of_equivalent same] at own
      exact own
    refine ⟨finalId firstId requests stored, stores.givenOnly, stores'.givenOnly, ?_⟩
    intro subject asked
    rcases asked with first | second
    · exact stores.held firstId first
    · exact stores'.held firstId second

def plainText : String := "\x7b\"title\":\"T\",\"enum\":[\x7b\"b\":1,\"a\":2\x7d]\x7d"

def dressedText : String :=
  "\x7b \"enum\" : [ \x7b \"a\":0, \"b\":1, \"a\":2 \x7d ],\n \"title\":\"\\u0054\" \x7d"

def registering (definition : String) : Except CodecError (Encoder Unit) :=
  Encoder.build definition ⟨true, true, false, .byTopic⟩ [] fun _ _ => .ok .null

theorem canonical_form_complete_dressed :
    ∃ (one other : Encoder Unit) (id : UInt32),
      registering plainText = .ok one ∧ registering dressedText = .ok other ∧
      let requests := [other.request "a", one.request "b", one.request "a"]
      let stored : Schema := ⟨canonicalize plainText, .json, []⟩
      (((startingAt 9).serveAll [other.request "a"]).serve (one.request "b")).2 = .ok (.id id) ∧
      ((startingAt 9).serve (other.request "a")).2 = .ok (.id id) ∧
      ((startingAt 9).serveAll requests).catalog.versionsOf "a" =
        [⟨1, id, stored, stored.fingerprint⟩] := by
  have some : (registering plainText).toOption.isSome ∧
      (registering dressedText).toOption.isSome := by decide +kernel
  obtain ⟨one, first⟩ := Option.isSome_iff_exists.mp some.1
  obtain ⟨other, second⟩ := Option.isSome_iff_exists.mp some.2
  have built := Outcome.toOption_some first
  have built' := Outcome.toOption_some second
  have same : equivalent plainText dressedText := by decide +kernel
  obtain ⟨_, _, _, encoders⟩ := canonical_form_complete
  have mode : ∀ {definition encoder}, registering definition = .ok encoder →
      encoder.mode = .autoRegister true := by
    intro definition encoder built
    obtain ⟨_, _, _, _, _, rfl⟩ := Encoder.build_ok built
    rfl
  obtain ⟨id, given, given', held⟩ := encoders plainText dressedText _ _ [] _ _ one other same built
    built' (mode built) (mode built') 9 [other.request "a", one.request "b", one.request "a"]
  refine ⟨one, other, id, built, built', ?_, ?_, ?_⟩
  · exact given.1 [other.request "a"] "b" ⟨[one.request "a"], rfl⟩
  · exact given'.1 [] "a" ⟨[one.request "b", one.request "a"], rfl⟩
  · refine (held "a" (.inr List.mem_cons_self)).2 ?_
    have stores := stores_of_build built (mode built)
    have stores' := stores_of_build built' (mode built')
    rw [← canonicalize_of_equivalent same] at stores'
    intro request member
    simp only [List.mem_cons, List.not_mem_nil, or_false] at member
    rcases member with rfl | rfl | rfl
    · exact stores'.storesOnly "a" "a"
    · exact stores.storesOnly "b" "a"
    · exact stores.storesOnly "a" "a"

end MemoryRegistry
end FramedJson
