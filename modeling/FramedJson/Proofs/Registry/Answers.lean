import FramedJson.Proofs.Registry.Normalized

namespace FramedJson

namespace Catalog

variable {catalog later : Catalog} {subject : String} {schema : Schema} {found : RegisteredSchema}

/-- The versions of every subject are numbered from one, as far as 32 bits go. -/
def Numbered (catalog : Catalog) : Prop :=
  ∀ subject i entry, (catalog.versionsOf subject)[i]? = some entry →
    entry.version = UInt32.ofNat (i + 1)

theorem numbered_start (firstId : UInt32) : (startingAt firstId).Numbered := by
  intro subject i entry here
  cases here

theorem Numbered.next (numbered : catalog.Numbered) (subject : String) :
    nextVersion (catalog.versionsOf subject) =
      UInt32.ofNat ((catalog.versionsOf subject).length + 1) := by
  unfold nextVersion
  cases last : (catalog.versionsOf subject).getLast? with
  | none =>
    rw [List.getLast?_eq_none_iff.mp last]
    rfl
  | some entry =>
    have nonempty := List.length_pos_of_mem (List.mem_of_getLast? last)
    rw [List.getLast?_eq_getElem?] at last
    have number := numbered subject _ entry last
    rw [Nat.sub_add_cancel nonempty] at number
    simp only [number, UInt32.ofNat_add]
    rfl

theorem Numbered.register (numbered : catalog.Numbered) (subject : String) (schema : Schema)
    (normalize : Bool) : (catalog.register subject schema normalize).1.Numbered := by
  cases held : catalog.held? subject (schema.stored normalize).fingerprint with
  | some entry =>
    rw [register_held catalog subject held]
    exact numbered
  | none =>
    intro other i entry here
    rw [register_new catalog subject held, versionsOf_put] at here
    by_cases same : subject = other
    · subst same
      rw [if_pos rfl, List.getElem?_append] at here
      split at here
      · exact numbered subject i entry here
      · -- Behind the versions there were, only the new one.
        obtain ⟨last, rfl⟩ := List.getElem?_eq_some_iff.mp here
        have place : i = (catalog.versionsOf subject).length := by
          simp only [List.length_singleton] at last
          omega
        simp only [place, Nat.sub_self, List.getElem_cons_zero]
        exact numbered.next subject
    · rw [if_neg same] at here
      exact numbered other i entry here

theorem Numbered.answer (numbered : catalog.Numbered) (request : Request) :
    (catalog.answer request).1.Numbered := by
  cases request with
  | register subject schema normalize => exact numbered.register subject schema normalize
  | lookup subject schema normalize => exact numbered
  | latest subject => exact numbered

theorem latest_ok (answered : catalog.latest subject = .ok found) :
    ∃ entry, (catalog.versionsOf subject).getLast? = some entry ∧
      found = entry.registered subject := by
  unfold latest at answered
  cases last : (catalog.versionsOf subject).getLast? with
  | none =>
    rw [last] at answered
    cases answered
  | some entry =>
    rw [last] at answered
    exact ⟨entry, rfl, (Except.ok.inj answered).symm⟩

theorem latest_of_versions (nonempty : catalog.versionsOf subject ≠ []) :
    ∃ found, catalog.latest subject = .ok found := by
  unfold latest
  cases last : (catalog.versionsOf subject).getLast? with
  | none => exact absurd (List.getLast?_eq_none_iff.mp last) nonempty
  | some entry => exact ⟨entry.registered subject, rfl⟩

theorem Numbered.latest (numbered : catalog.Numbered)
    (answered : catalog.latest subject = .ok found) :
    0 < (catalog.versionsOf subject).length ∧
      found.version = UInt32.ofNat (catalog.versionsOf subject).length := by
  obtain ⟨entry, last, rfl⟩ := latest_ok answered
  have nonempty := List.length_pos_of_mem (List.mem_of_getLast? last)
  rw [List.getLast?_eq_getElem?] at last
  refine ⟨nonempty, ?_⟩
  have number := numbered subject _ entry last
  rwa [Nat.sub_add_cancel nonempty] at number

/-- A request about one schema that was answered with success has that answer in every later catalog, and
changes nothing there. -/
theorem Extends.answer_again {request : Request} {reply : Reply}
    (about : request.aboutSchema = true) (answered : (catalog.answer request).2 = .ok reply)
    (grown : (catalog.answer request).1.Extends later) :
    later.answer request = (later, .ok reply) := by
  cases request with
  | register subject schema normalize =>
    obtain ⟨entry, held, id⟩ := register_holds catalog subject schema normalize
    have still : later.held? subject (schema.stored normalize).fingerprint = some entry :=
      grown.find? held
    obtain rfl : reply = .id (catalog.register subject schema normalize).2 :=
      (Except.ok.inj answered).symm
    simp only [answer, register_held later subject still, id]
  | lookup subject schema normalize =>
    obtain ⟨found, looked, rfl⟩ := Outcome.map_ok answered
    obtain ⟨entry, first, rfl⟩ := lookup_ok looked
    rw [answer, lookup_found (grown.find? first), Except.map]
  | latest subject => cases about

section AsWritten

theorem lookup_of_held {entry : SubjectVersion}
    (held : catalog.held? subject (schema.stored false).fingerprint = some entry) :
    catalog.lookup subject schema false = .ok (entry.registered subject) :=
  lookup_found held

theorem register_of_lookup_written (looked : catalog.lookup subject schema false = .ok found) :
    catalog.register subject schema false = (catalog, found.schemaId) := by
  obtain ⟨entry, first, rfl⟩ := lookup_ok looked
  have held : catalog.held? subject (schema.stored false).fingerprint = some entry := first
  exact register_held catalog subject held

theorem absent_of_lookup_error {e : RegistryError}
    (failed : catalog.lookup subject schema false = .error e) :
    catalog.held? subject (schema.stored false).fingerprint = none := by
  cases held : catalog.held? subject (schema.stored false).fingerprint with
  | none => rfl
  | some entry =>
    rw [lookup_of_held held] at failed
    cases failed

theorem versions_register_new {normalize : Bool}
    (absent : catalog.held? subject (schema.stored normalize).fingerprint = none) :
    (catalog.register subject schema normalize).1.versions subject ≠ catalog.versions subject := by
  intro same
  have longer := congrArg List.length same
  rw [versions, versionsOf_register_new catalog subject absent, versions, List.length_map,
    List.length_map, List.length_append, List.length_singleton] at longer
  exact Nat.succ_ne_self _ longer

end AsWritten

theorem find?_register_other {normalize : Bool} {other : String} (differ : other ≠ subject) :
    Assoc.find? other (catalog.register subject schema normalize).1.subjects =
      Assoc.find? other catalog.subjects := by
  cases held : catalog.held? subject (schema.stored normalize).fingerprint with
  | some entry => rw [register_held catalog subject held]
  | none =>
    rw [register_new catalog subject held, Assoc.find?_put, if_neg (Ne.symm differ)]

end Catalog

namespace MemoryRegistry

theorem numbered_of_requests (firstId : UInt32) (requests : List Request) :
    ((startingAt firstId).serveAll requests).catalog.Numbered := by
  have start : (startingAt firstId).catalog.Numbered := Catalog.numbered_start firstId
  exact serveAll_keeps (fun request _ _ numbered => numbered.answer request) start

/-- Whatever is asked of a registry in between: a schema that was once registered or found gives the same
reply again and adds nothing; the versions that a subject had, each with its number, id and schema, are
the first of those that it has; and the newest version is numbered by how many there are. The number wraps,
so that it never decreases needs 32 bits to hold it; a registry that checks the addition needs no such
bound. -/
theorem answers_are_permanent_wrapping (firstId : UInt32) (past future : List Request) :
    let earlier := (startingAt firstId).serveAll past
    let later := earlier.serveAll future
    (∀ request reply, request.aboutSchema = true → (earlier.serve request).2 = .ok reply →
      let after := (earlier.serve request).1.serveAll future
      (after.serve request).2 = .ok reply ∧ (after.serve request).1.catalog = after.catalog) ∧
    (∀ subject, earlier.catalog.versionsOf subject <+: later.catalog.versionsOf subject ∧
      earlier.catalog.versions subject <+: later.catalog.versions subject) ∧
    ∀ subject found, (earlier.serve (.latest subject)).2 = .ok (.version found) →
      ∃ newest, (later.serve (.latest subject)).2 = .ok (.version newest) ∧
        found.version = UInt32.ofNat (earlier.catalog.versions subject).length ∧
        newest.version = UInt32.ofNat (later.catalog.versions subject).length ∧
        ((later.catalog.versions subject).length < 2 ^ 32 → found.version ≤ newest.version) := by
  intro earlier later
  have grown : earlier.catalog.Extends later.catalog := serveAll_extends earlier future
  refine ⟨?_, ?_, ?_⟩
  · intro request reply about answered after
    have again := (serveAll_extends (earlier.serve request).1 future).answer_again about answered
    exact ⟨congrArg Prod.snd again, congrArg Prod.fst again⟩
  · intro subject
    exact ⟨grown subject, (grown subject).map _⟩
  · intro subject found answered
    obtain ⟨reply, looked, same⟩ := Outcome.map_ok answered
    cases same
    have length : ∀ catalog : Catalog,
        (catalog.versions subject).length = (catalog.versionsOf subject).length :=
      fun _ => List.length_map _
    obtain ⟨nonempty, number⟩ := (numbered_of_requests firstId past).latest looked
    have more : (earlier.catalog.versionsOf subject).length ≤
        (later.catalog.versionsOf subject).length := (grown subject).length_le
    have kept : later.catalog.versionsOf subject ≠ [] :=
      List.ne_nil_of_length_pos (Nat.lt_of_lt_of_le nonempty more)
    obtain ⟨newest, looked'⟩ := Catalog.latest_of_versions kept
    have whole := numbered_of_requests firstId (past ++ future)
    rw [serveAll_append] at whole
    obtain ⟨_, number'⟩ := whole.latest looked'
    rw [length, length]
    refine ⟨newest, congrArg (Except.map Reply.version) looked', number, number', ?_⟩
    intro room
    rw [number, number', UInt32.le_iff_toNat_le, UInt32.toNat_ofNat', UInt32.toNat_ofNat',
      Nat.mod_eq_of_lt room, Nat.mod_eq_of_lt (Nat.lt_of_le_of_lt more room)]
    exact more

def settled : List Request := [.register "a" (numeral "1") false, .register "b" (numeral "1") true]

/-- Looking a schema up as it is written tells exactly what registering it so does. If it is found, that
gives the id found and leaves everything as it is; if not, the schema becomes the newest version of the
subject and of no other, numbered by how many there are then, and the look-up finds it from then on. -/
theorem lookup_foretells_register (firstId : UInt32) (requests : List Request) (subject : String)
    (schema : Schema) :
    let registry := (startingAt firstId).serveAll requests
    let looked := (registry.serve (.lookup subject schema false)).2
    let registered := registry.serve (.register subject schema false)
    ((∃ found, looked = .ok (.version found)) ↔
      ∀ other, registered.1.catalog.versions other = registry.catalog.versions other) ∧
    (∀ found, looked = .ok (.version found) →
      registered.2 = .ok (.id found.schemaId) ∧ registered.1.catalog = registry.catalog) ∧
    ∀ e, looked = .error e →
      ∃ entry, entry.schema = schema ∧ registered.2 = .ok (.id entry.schemaId) ∧
        registered.1.catalog.versionsOf subject =
          registry.catalog.versionsOf subject ++ [entry] ∧
        ((registry.catalog.versions subject).length + 1 < 2 ^ 32 →
          entry.version.toNat = (registry.catalog.versions subject).length + 1) ∧
        (∀ other, other ≠ subject → Assoc.find? other registered.1.catalog.subjects =
          Assoc.find? other registry.catalog.subjects) ∧
        (registered.1.serve (.lookup subject schema false)).2 =
          .ok (.version (entry.registered subject)) := by
  intro registry looked registered
  have numbered : registry.catalog.Numbered := numbered_of_requests firstId requests
  cases answer : registry.catalog.lookup subject schema false with
  | ok found =>
    have answered : looked = .ok (.version found) := congrArg (Except.map Reply.version) answer
    have kept := Catalog.register_of_lookup_written answer
    have same : registered.1.catalog = registry.catalog := congrArg Prod.fst kept
    refine ⟨⟨fun _ other => ?_, fun _ => ⟨found, answered⟩⟩, ?_, ?_⟩
    · rw [same]
    · intro other answered'
      cases answered.symm.trans answered'
      exact ⟨congrArg (fun id => Except.ok (Reply.id id)) (congrArg Prod.snd kept), same⟩
    · intro e failed
      cases answered.symm.trans failed
  | error fault =>
    have refused : looked = .error fault := congrArg (Except.map Reply.version) answer
    have absent := Catalog.absent_of_lookup_error answer
    refine ⟨⟨?_, ?_⟩, ?_, ?_⟩
    · rintro ⟨found, answered⟩
      cases refused.symm.trans answered
    · intro same
      exact absurd (same subject) (Catalog.versions_register_new absent)
    · intro found answered
      cases refused.symm.trans answered
    · intro e _
      have new := Catalog.register_new registry.catalog subject absent
      have finds := Catalog.held?_register_new registry.catalog subject absent
      refine ⟨registry.catalog.newVersion subject (schema.stored false), rfl, ?_,
        Catalog.versionsOf_register_new registry.catalog subject absent, ?_, ?_, ?_⟩
      · exact congrArg (fun id => Except.ok (Reply.id id)) (congrArg Prod.snd new)
      · intro room
        have number := numbered.next subject
        rw [Catalog.versions, List.length_map] at room ⊢
        rw [Catalog.newVersion, number, UInt32.toNat_ofNat', Nat.mod_eq_of_lt room]
      · intro other differ
        exact Catalog.find?_register_other differ
      · exact congrArg (Except.map Reply.version) (Catalog.lookup_of_held finds)

theorem lookup_foretells_register_shared :
    let registry := (startingAt 7).serveAll settled
    (registry.serve (.register "b" (numeral "1") false)).2 = .ok (.id 7) ∧
    ∃ entry : SubjectVersion, entry.schema = numeral "1" ∧
      (registry.serve (.register "c" (numeral "1") false)).2 = .ok (.id entry.schemaId) ∧
      entry.version.toNat = 1 ∧
      ((registry.serve (.register "c" (numeral "1") false)).1.serve
        (.lookup "c" (numeral "1") false)).2 = .ok (.version (entry.registered "c")) := by
  intro registry
  have looked : (registry.serve (.lookup "b" (numeral "1") false)).2 = .ok (.version ⟨7, "b", 1⟩) :=
    Outcome.toOption_some (by decide +kernel)
  have missing : (registry.serve (.lookup "c" (numeral "1") false)).2 =
      .error (.subjectNotFound "c") := by decide +kernel
  obtain ⟨_, known, _⟩ := lookup_foretells_register 7 settled "b" (numeral "1")
  obtain ⟨_, _, new⟩ := lookup_foretells_register 7 settled "c" (numeral "1")
  obtain ⟨entry, own, id, _, number, _, finds⟩ := new _ missing
  have first : (registry.catalog.versions "c").length = 0 := by decide +kernel
  rw [first] at number
  exact ⟨(known _ looked).1, entry, own, id, number (by decide), finds⟩

end MemoryRegistry
end FramedJson
