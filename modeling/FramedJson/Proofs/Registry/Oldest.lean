import FramedJson.Proofs.Registry.Answers
import FramedJson.Proofs.Registry.Equivalent
import FramedJson.Proofs.Registry.Identity

namespace FramedJson

namespace Schema

/-- A type and a definition without doubles, and nothing else. -/
structure Plain (schema : Schema) : Prop where
  alone : schema.references = []
  whole : WithoutReals schema.definition

def Equivalent (schema other : Schema) : Prop :=
  schema.type = other.type ∧ equivalent schema.definition other.definition

variable {a b : Schema}

theorem eq_of_content (alone : a.references = []) (alone' : b.references = [])
    (same : a.content = b.content) : a = b := by
  obtain ⟨type, text⟩ := content_eq_iff.mp same
  rw [Schema.text, Schema.text, alone, alone'] at text
  have definition := String.toList_inj.mp (List.append_cancel_right text)
  cases a
  cases b
  simp only [Schema.mk.injEq]
  exact ⟨definition, type, alone.trans alone'.symm⟩

theorem Plain.normalized_eq_iff (plain : a.Plain) (plain' : b.Plain) :
    a.normalized = b.normalized ↔ a.Equivalent b := by
  simp only [normalized, Equivalent, Schema.mk.injEq, plain.alone, plain'.alone, and_true]
  constructor
  · rintro ⟨same, type⟩
    exact ⟨type, equivalent_of_canonicalize (readsBack_of_noReals plain.whole)
      (readsBack_of_noReals plain'.whole) same⟩
  · rintro ⟨type, same⟩
    exact ⟨canonicalize_of_equivalent same, type⟩

theorem Plain.normalized_stored (plain : a.Plain) (normalize : Bool) :
    (a.stored normalize).normalized = a.normalized := by
  cases normalize with
  | false => rfl
  | true => exact normalized_normalized (readsBack_of_noReals plain.whole)

theorem stored_references (schema : Schema) (normalize : Bool) :
    (schema.stored normalize).references = schema.references := by
  cases normalize with
  | false => rfl
  | true => rfl

end Schema

/-- The element at the place is the first of its list that has the property. -/
def OldestAt {β : Type} (property : β → Prop) (xs : List β) (i : Nat) (x : β) : Prop :=
  xs[i]? = some x ∧ property x ∧ ∀ j y, j < i → xs[j]? = some y → ¬ property y

theorem find?_some_iff_oldest {β : Type} {test : β → Bool} {property : β → Prop} {xs : List β} {x : β}
    (agree : ∀ y ∈ xs, test y = true ↔ property y) :
    xs.find? test = some x ↔ ∃ i, OldestAt property xs i x := by
  rw [List.find?_eq_some_iff_getElem]
  constructor
  · rintro ⟨passed, i, bound, rfl, before⟩
    refine ⟨i, List.getElem?_eq_getElem bound, ?_, ?_⟩
    · exact (agree _ (List.getElem_mem bound)).mp passed
    · intro j y earlier here holds
      obtain ⟨inside, rfl⟩ := List.getElem?_eq_some_iff.mp here
      have failed := before j earlier
      rw [(agree _ (List.getElem_mem inside)).mpr holds] at failed
      cases failed
  · rintro ⟨i, here, holds, before⟩
    obtain ⟨bound, rfl⟩ := List.getElem?_eq_some_iff.mp here
    refine ⟨(agree _ (List.getElem_mem bound)).mpr holds, i, bound, rfl, ?_⟩
    intro j earlier
    have inside : j < xs.length := Nat.lt_trans earlier bound
    have lacks := before j _ earlier (List.getElem?_eq_getElem inside)
    rw [Bool.not_eq_true', ← Bool.not_eq_true]
    exact fun passed => lacks ((agree _ (List.getElem_mem inside)).mp passed)

namespace Catalog

variable {catalog : Catalog}

def Stocked (catalog : Catalog) : Prop :=
  ∀ subject versions, Assoc.find? subject catalog.subjects = some versions → versions ≠ []

theorem Stocked.register (stocked : catalog.Stocked) (subject : String) (schema : Schema)
    (normalize : Bool) : (catalog.register subject schema normalize).1.Stocked := by
  cases held : catalog.held? subject (schema.stored normalize).fingerprint with
  | some entry =>
    rw [register_held catalog subject held]
    exact stocked
  | none =>
    intro other versions listed
    rw [register_new catalog subject held, Assoc.find?_put] at listed
    split at listed
    · cases listed
      exact List.append_ne_nil_of_right_ne_nil _ (List.cons_ne_nil _ _)
    · exact stocked other versions listed

theorem Stocked.answer (stocked : catalog.Stocked) (request : Request) :
    (catalog.answer request).1.Stocked := by
  cases request with
  | register subject schema normalize => exact stocked.register subject schema normalize
  | lookup subject schema normalize => exact stocked
  | latest subject => exact stocked

theorem Stocked.lookup_eq (stocked : catalog.Stocked) (subject : String) (schema : Schema)
    (normalize : Bool) :
    catalog.lookup subject schema normalize =
      if catalog.versionsOf subject = [] then .error (.subjectNotFound subject)
      else match (catalog.versionsOf subject).find? (matching schema normalize) with
        | some entry => .ok (entry.registered subject)
        | none => .error (.schemaNotFound subject) := by
  unfold lookup versionsOf
  cases listed : Assoc.find? subject catalog.subjects with
  | none => rfl
  | some versions =>
    have nonempty := stocked subject versions listed
    exact (if_neg nonempty).symm

theorem lookup_ok_iff {subject : String} {schema : Schema} {normalize : Bool}
    {found : RegisteredSchema} :
    catalog.lookup subject schema normalize = .ok found ↔
      ∃ entry, (catalog.versionsOf subject).find? (matching schema normalize) = some entry ∧
        found = entry.registered subject := by
  constructor
  · exact lookup_ok
  · rintro ⟨entry, first, rfl⟩
    exact lookup_found first

theorem Stocked.lookup_missing_iff (stocked : catalog.Stocked) {subject : String} {schema : Schema}
    {normalize : Bool} :
    catalog.lookup subject schema normalize = .error (.schemaNotFound subject) ↔
      catalog.versionsOf subject ≠ [] ∧
        ∀ entry ∈ catalog.versionsOf subject, ¬ matching schema normalize entry = true := by
  rw [stocked.lookup_eq, ← List.find?_eq_none]
  split
  · rename_i empty
    simp [empty]
  · rename_i nonempty
    cases (catalog.versionsOf subject).find? (matching schema normalize) with
    | none => simp [nonempty]
    | some entry => simp

theorem Stocked.lookup_unknown_iff (stocked : catalog.Stocked) {subject : String} {schema : Schema}
    {normalize : Bool} :
    catalog.lookup subject schema normalize = .error (.subjectNotFound subject) ↔
      catalog.versionsOf subject = [] := by
  rw [stocked.lookup_eq]
  split
  · rename_i empty
    simp [empty]
  · rename_i nonempty
    cases (catalog.versionsOf subject).find? (matching schema normalize) with
    | none => simp [nonempty]
    | some entry => simp [nonempty]

end Catalog

namespace MemoryRegistry

open Write

variable {firstId : UInt32} {requests : List Request} {subject : String} {entry : SubjectVersion}
  {origin schema : Schema}

/-- The version came to its subject when the run registered this schema. -/
def AddedFor (firstId : UInt32) (requests : List Request) (subject : String) (entry : SubjectVersion)
    (origin : Schema) : Prop :=
  ∃ before normalize, before ++ [.register subject origin normalize] <+: requests ∧
    entry ∉ ((startingAt firstId).serveAll before).catalog.versionsOf subject ∧
    entry ∈ ((startingAt firstId).serveAll
      (before ++ [.register subject origin normalize])).catalog.versionsOf subject

theorem serveAll_snoc (registry : MemoryRegistry) (past : List Request) (request : Request) :
    (registry.serveAll (past ++ [request])).catalog =
      ((registry.serveAll past).catalog.answer request).1 := by
  rw [serveAll_append]
  rfl

theorem AddedFor.append (added : AddedFor firstId requests subject entry origin)
    (later : List Request) : AddedFor firstId (requests ++ later) subject entry origin := by
  obtain ⟨before, normalize, ran, absent, there⟩ := added
  exact ⟨before, normalize, ran.trans (List.prefix_append _ _), absent, there⟩

theorem added_of_version (firstId : UInt32) (requests : List Request)
    (there : entry ∈ ((startingAt firstId).serveAll requests).catalog.versionsOf subject) :
    ∃ origin, AddedFor firstId requests subject entry origin := by
  induction requests using List.reverseRecOn with
  | nil => cases there
  | append_singleton past request ih =>
    by_cases old : entry ∈ ((startingAt firstId).serveAll past).catalog.versionsOf subject
    · obtain ⟨origin, added⟩ := ih old
      exact ⟨origin, added.append [request]⟩
    · have now := there
      rw [serveAll_snoc] at now
      cases request with
      | register other schema normalize =>
        rcases Catalog.mem_versionsOf_register _ other now with earlier | ⟨rfl, _, _⟩
        · exact absurd earlier old
        · exact ⟨schema, past, normalize, List.prefix_refl _, old, there⟩
      | lookup other schema normalize => exact absurd now old
      | latest other => exact absurd now old

theorem AddedFor.holds (added : AddedFor firstId requests subject entry origin) :
    ∃ normalize, .register subject origin normalize ∈ requests ∧
      entry.schema = origin.stored normalize ∧
      entry.fingerprint = (origin.stored normalize).fingerprint := by
  obtain ⟨before, normalize, ran, absent, there⟩ := added
  rw [serveAll_snoc] at there
  have asked : .register subject origin normalize ∈ requests :=
    ran.subset (List.mem_append_right _ List.mem_cons_self)
  rcases Catalog.mem_versionsOf_register _ subject there with earlier | ⟨_, _, rfl⟩
  · exact absurd earlier absent
  · exact ⟨normalize, asked, rfl, rfl⟩

theorem held_of_registered {normalize : Bool} (firstId : UInt32)
    (asked : .register subject origin normalize ∈ requests) :
    ∃ entry ∈ ((startingAt firstId).serveAll requests).catalog.versionsOf subject,
      entry.fingerprint = (origin.stored normalize).fingerprint := by
  obtain ⟨before, after, rfl⟩ := List.append_of_mem asked
  obtain ⟨entry, held, _⟩ := Catalog.register_holds
    ((startingAt firstId).serveAll before).catalog subject origin normalize
  obtain ⟨member, same⟩ := Catalog.fingerprint_of_held held
  have grown := serveAll_extends
    (((startingAt firstId).serveAll before).serve (.register subject origin normalize)).1 after
  rw [serveAll_append]
  exact ⟨entry, (grown subject).subset member, same⟩

theorem unknown_iff_unregistered (firstId : UInt32) (requests : List Request) (subject : String) :
    ((startingAt firstId).serveAll requests).catalog.versionsOf subject = [] ↔
      ∀ origin normalize, .register subject origin normalize ∉ requests := by
  constructor
  · intro empty origin normalize asked
    obtain ⟨entry, member, _⟩ := held_of_registered firstId asked
    rw [empty] at member
    cases member
  · intro never
    apply List.eq_nil_iff_forall_not_mem.mpr
    intro entry member
    obtain ⟨origin, added⟩ := added_of_version firstId requests member
    obtain ⟨normalize, asked, _⟩ := added.holds
    exact never origin normalize asked

theorem stocked_of_requests (firstId : UInt32) (requests : List Request) :
    ((startingAt firstId).serveAll requests).catalog.Stocked := by
  have start : (startingAt firstId).catalog.Stocked := fun _ _ listed => nomatch listed
  exact serveAll_keeps (fun request _ _ stocked => stocked.answer request) start

theorem serveAll_reads (registry : MemoryRegistry) {reads : List Request}
    (unwritten : writes reads = []) :
    (registry.serveAll reads).catalog = registry.catalog := by
  induction reads generalizing registry with
  | nil => rfl
  | cons request rest ih =>
    cases request with
    | register subject schema normalize => cases unwritten
    | lookup subject schema normalize => exact ih _ unwritten
    | latest subject => exact ih _ unwritten

section Served

variable {registry : MemoryRegistry} {normalize : Bool}

theorem served_version_iff {found : RegisteredSchema} :
    (registry.serve (.lookup subject schema normalize)).2 = .ok (.version found) ↔
      registry.catalog.lookup subject schema normalize = .ok found := by
  constructor
  · intro answered
    obtain ⟨reply, looked, same⟩ := Outcome.map_ok answered
    cases same
    exact looked
  · exact congrArg (Except.map Reply.version)

theorem served_refused_iff {e : RegistryError} :
    (registry.serve (.lookup subject schema normalize)).2 = .error e ↔
      registry.catalog.lookup subject schema normalize = .error e :=
  Outcome.map_error_iff

end Served

/-- The contents of a run whose digests are compared: each schema as it is written and in canonical
form. -/
def hashed (requests : List Request) : List Content :=
  requests.flatMap fun
    | .register _ schema _ => [schema.content, schema.normalized.content]
    | .lookup _ schema _ => [schema.content, schema.normalized.content]
    | .latest _ => []

theorem hashed_of_registered {normalize : Bool}
    (asked : .register subject origin normalize ∈ requests) (later : List Request) :
    (origin.stored normalize).content ∈ hashed (requests ++ later) ∧
      origin.normalized.content ∈ hashed (requests ++ later) := by
  have listed : ∀ content ∈ [origin.content, origin.normalized.content],
      content ∈ hashed (requests ++ later) := fun content here =>
    List.mem_flatMap.mpr ⟨_, List.mem_append_left _ asked, here⟩
  refine ⟨?_, listed _ (List.mem_cons_of_mem _ List.mem_cons_self)⟩
  cases normalize with
  | false => exact listed _ List.mem_cons_self
  | true => exact listed _ (List.mem_cons_of_mem _ List.mem_cons_self)

section Plain

variable (plain : ∀ origin normalize, .register subject origin normalize ∈ requests → origin.Plain)
  (apart : Apart (hashed (requests ++ [.lookup subject schema true])))
include plain apart

theorem matching_iff_equivalent (own : schema.Plain)
    (added : AddedFor firstId requests subject entry origin) :
    Catalog.matching schema true entry = true ↔ origin.Equivalent schema := by
  obtain ⟨normalize, asked, stored, _⟩ := added.holds
  have bare := plain origin normalize asked
  rw [Catalog.matching, if_pos rfl, decide_eq_true_iff, stored, bare.normalized_stored normalize,
    ← bare.normalized_eq_iff own]
  constructor
  · intro same
    have wanted : schema.normalized.content ∈ hashed (requests ++ [.lookup subject schema true]) :=
      List.mem_flatMap.mpr ⟨_, List.mem_append_right _ List.mem_cons_self,
        List.mem_cons_of_mem _ List.mem_cons_self⟩
    have content := apart _ (hashed_of_registered asked _).2 _ wanted same
    exact Schema.eq_of_content bare.alone own.alone content
  · intro same
    rw [same]

theorem equivalent_of_registered {normalize : Bool} (firstId : UInt32)
    (asked : .register subject origin normalize ∈ requests) :
    ∃ entry ∈ ((startingAt firstId).serveAll requests).catalog.versionsOf subject,
      ∃ other, AddedFor firstId requests subject entry other ∧ other.Equivalent origin := by
  obtain ⟨entry, member, held⟩ := held_of_registered firstId asked
  obtain ⟨other, added⟩ := added_of_version firstId requests member
  obtain ⟨normalize', asked', _, digest⟩ := added.holds
  have bare := plain origin normalize asked
  have bare' := plain other normalize' asked'
  have content := apart _ (hashed_of_registered asked' _).1 _ (hashed_of_registered asked _).1
    (digest.symm.trans held)
  have stored : other.stored normalize' = origin.stored normalize := by
    apply Schema.eq_of_content _ _ content
    · rw [Schema.stored_references, bare'.alone]
    · rw [Schema.stored_references, bare.alone]
  refine ⟨entry, member, other, added, (bare'.normalized_eq_iff bare).mp ?_⟩
  rw [← bare'.normalized_stored normalize', stored, bare.normalized_stored normalize]

end Plain

/-- Take schemas without references and doubles, no two of whose contents have one digest. Looked up in
canonical form under a subject, a schema gives the oldest version that was added there for an equivalent
schema, by its number and id; is not found if the subject has versions but none of this kind; and the
subject is unknown exactly as long as nothing was registered under it. Whatever was registered has such
a version, and asking alone brings nothing about. -/
theorem normalized_lookup_finds_oldest (firstId : UInt32) (requests : List Request)
    (subject : String) (schema : Schema)
    (plain : ∀ origin normalize, .register subject origin normalize ∈ requests → origin.Plain)
    (own : schema.Plain) (apart : Apart (hashed (requests ++ [.lookup subject schema true]))) :
    let registry := (startingAt firstId).serveAll requests
    let versions := registry.catalog.versionsOf subject
    let answer := (registry.serve (.lookup subject schema true)).2
    let serves := fun entry =>
      ∃ origin, AddedFor firstId requests subject entry origin ∧ origin.Equivalent schema
    (∀ found, answer = .ok (.version found) ↔
      ∃ i entry, OldestAt serves versions i entry ∧
        found = ⟨entry.schemaId, subject, UInt32.ofNat (i + 1)⟩) ∧
    (answer = .error (.schemaNotFound subject) ↔
      versions ≠ [] ∧ ∀ entry ∈ versions, ¬ serves entry) ∧
    (answer = .error (.subjectNotFound subject) ↔
      ∀ origin normalize, .register subject origin normalize ∉ requests) ∧
    (∀ origin normalize, .register subject origin normalize ∈ requests →
      ∃ entry ∈ versions, ∃ other, AddedFor firstId requests subject entry other ∧
        other.Equivalent origin) ∧
    ∀ reads, writes reads = [] → (registry.serveAll reads).catalog = registry.catalog := by
  intro registry versions answer serves
  have agree : ∀ entry ∈ versions, Catalog.matching schema true entry = true ↔ serves entry := by
    intro entry member
    constructor
    · intro matched
      obtain ⟨origin, added⟩ := added_of_version firstId requests member
      exact ⟨origin, added, (matching_iff_equivalent plain apart own added).mp matched⟩
    · rintro ⟨origin, added, same⟩
      exact (matching_iff_equivalent plain apart own added).mpr same
  have stocked : registry.catalog.Stocked := stocked_of_requests firstId requests
  refine ⟨?_, ?_, ?_, ?_, fun reads unwritten => serveAll_reads registry unwritten⟩
  · intro found
    rw [served_version_iff, Catalog.lookup_ok_iff]
    constructor
    · rintro ⟨entry, first, rfl⟩
      obtain ⟨i, oldest⟩ := (find?_some_iff_oldest agree).mp first
      have number := numbered_of_requests firstId requests subject i entry oldest.1
      exact ⟨i, entry, oldest, by rw [← number]; rfl⟩
    · rintro ⟨i, entry, oldest, rfl⟩
      have number := numbered_of_requests firstId requests subject i entry oldest.1
      exact ⟨entry, (find?_some_iff_oldest agree).mpr ⟨i, oldest⟩, by rw [← number]; rfl⟩
  · rw [served_refused_iff, stocked.lookup_missing_iff]
    refine and_congr_right fun _ => forall₂_congr fun entry member => ?_
    rw [agree entry member]
  · rw [served_refused_iff, stocked.lookup_unknown_iff]
    exact unknown_iff_unregistered firstId requests subject
  · intro origin normalize asked
    exact equivalent_of_registered plain apart firstId asked

/-- The second and the third version are equivalent; the third is the one in canonical form. -/
def spaced : List Request :=
  [.register "s" (numeral "1") false, .latest "t", .register "s" (numeral "[1 ]") false,
   .register "s" (numeral "[1]") true]

theorem numeral_plain {definition : String}
    (whole : (Json.ofText definition).toOption.all Json.noReals = true) :
    (numeral definition).Plain :=
  ⟨rfl, withoutReals_of_check whole⟩

theorem normalized_lookup_finds_oldest_spaced :
    let registry := (startingAt 7).serveAll spaced
    let serves := fun entry =>
      ∃ origin, AddedFor 7 spaced "s" entry origin ∧ origin.Equivalent (numeral " [1]")
    registry.catalog.versions "s" = [1, 2, 3] ∧
    (registry.serve (.lookup "s" (numeral " [1]") true)).2 = .ok (.version ⟨8, "s", 2⟩) ∧
    ∃ i entry, OldestAt serves (registry.catalog.versionsOf "s") i entry ∧ entry.schemaId = 8 := by
  intro registry serves
  have plain : ∀ origin normalize, .register "s" origin normalize ∈ spaced → origin.Plain := by
    intro origin normalize asked
    simp only [spaced, List.mem_cons, Request.register.injEq, reduceCtorEq, List.not_mem_nil,
      or_false, false_or, true_and] at asked
    rcases asked with ⟨rfl, _⟩ | ⟨rfl, _⟩ | ⟨rfl, _⟩
    all_goals exact numeral_plain (by decide +kernel)
  have apart : Apart (hashed (spaced ++ [.lookup "s" (numeral " [1]") true])) :=
    apart_of_distinct
      (["1", "[1 ]", "[1]", " [1]"].map fun definition => (numeral definition).content)
      (by decide +kernel) (by decide +kernel)
  have answer : (registry.serve (.lookup "s" (numeral " [1]") true)).2 =
      .ok (.version ⟨8, "s", 2⟩) := Outcome.toOption_some (by decide +kernel)
  have oldest := (normalized_lookup_finds_oldest 7 spaced "s" (numeral " [1]") plain
    (numeral_plain (by decide +kernel)) apart).1
  obtain ⟨i, entry, first, same⟩ := (oldest _).mp answer
  exact ⟨by decide +kernel, answer, i, entry, first, (congrArg RegisteredSchema.schemaId same).symm⟩

end MemoryRegistry
end FramedJson
