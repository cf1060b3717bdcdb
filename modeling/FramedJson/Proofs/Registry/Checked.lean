import FramedJson.Registry.Checked
import FramedJson.Proofs.Registry.Answers

/-!
What a registry has answered it answers again, where every addition is checked: a schema that was registered
or found gives the same reply whatever is written later, and the newest version never goes back. As long as
no subject has 2 ^ 32 versions nothing overflows, and the two registries are one.
-/
namespace FramedJson

namespace Catalog

variable {catalog later : Catalog} {subject : String} {schema : Schema} {normalize : Bool}

theorem nextVersion_of_checked {versions : List SubjectVersion} {version : UInt32}
    (fits : nextVersion? versions = some version) : nextVersion versions = version := by
  unfold nextVersion? at fits
  unfold nextVersion
  cases last : versions.getLast? with
  | none => simpa [last] using fits
  | some entry =>
    simp only [last] at fits ⊢
    split at fits
    · cases fits
    · exact Option.some.inj fits

theorem registerChecked_held {entry : SubjectVersion}
    (held : catalog.held? subject (schema.stored normalize).fingerprint = some entry) :
    catalog.registerChecked subject schema normalize = (catalog, some entry.schemaId) := by
  unfold held? Schema.stored at held
  simp only [registerChecked, held]

theorem registerChecked_fits {version : UInt32}
    (absent : catalog.held? subject (schema.stored normalize).fingerprint = none)
    (fits : nextVersion? (catalog.versionsOf subject) = some version) :
    catalog.registerChecked subject schema normalize =
      ((catalog.register subject schema normalize).1,
        some (catalog.register subject schema normalize).2) := by
  have number := nextVersion_of_checked fits
  unfold held? Schema.stored at absent
  simp only [registerChecked, register, absent, fits, number]

theorem registerChecked_overflows
    (absent : catalog.held? subject (schema.stored normalize).fingerprint = none)
    (full : nextVersion? (catalog.versionsOf subject) = none) :
    catalog.registerChecked subject schema normalize =
      ((catalog.claimId (schema.stored normalize).fingerprint).1, none) := by
  unfold held? Schema.stored at absent
  simp only [registerChecked, absent, full, Schema.stored]

/-- The three ways for a checked call to go: nothing is written, the new version has a number, or the number
overflows and every subject stays as it is. -/
theorem answerChecked_cases (catalog : Catalog) (request : Request) :
    (catalog.answerChecked request = (catalog, some (catalog.answer request).2) ∧
      (catalog.answer request).1 = catalog) ∨
    (∃ subject schema normalize version, request = .register subject schema normalize ∧
      catalog.held? subject (schema.stored normalize).fingerprint = none ∧
      nextVersion? (catalog.versionsOf subject) = some version ∧
      catalog.answerChecked request =
        ((catalog.answer request).1, some (catalog.answer request).2)) ∨
    ∃ subject schema normalize, request = .register subject schema normalize ∧
      catalog.held? subject (schema.stored normalize).fingerprint = none ∧
      nextVersion? (catalog.versionsOf subject) = none ∧
      catalog.answerChecked request =
        ((catalog.claimId (schema.stored normalize).fingerprint).1, none) := by
  cases request with
  | lookup subject schema normalize => exact .inl ⟨rfl, rfl⟩
  | latest subject => exact .inl ⟨rfl, rfl⟩
  | register subject schema normalize =>
    cases held : catalog.held? subject (schema.stored normalize).fingerprint with
    | some entry =>
      left
      simp [answerChecked, answer, registerChecked_held held, register_held catalog subject held]
    | none =>
      right
      cases fits : nextVersion? (catalog.versionsOf subject) with
      | some version =>
        left
        refine ⟨subject, schema, normalize, version, rfl, held, fits, ?_⟩
        simp [answerChecked, answer, registerChecked_fits held fits]
      | none =>
        right
        refine ⟨subject, schema, normalize, rfl, held, fits, ?_⟩
        simp [answerChecked, registerChecked_overflows held fits]

/-- The versions of every subject are numbered from one. Unlike `Numbered` this leaves no room for more than
2 ^ 32 - 1 of them. -/
def Counted (catalog : Catalog) : Prop :=
  ∀ subject i entry, (catalog.versionsOf subject)[i]? = some entry → entry.version.toNat = i + 1

theorem Counted.last (counted : catalog.Counted) {entry : SubjectVersion}
    (last : (catalog.versionsOf subject).getLast? = some entry) :
    entry.version.toNat = (catalog.versionsOf subject).length := by
  have nonempty := List.length_pos_of_mem (List.mem_of_getLast? last)
  rw [List.getLast?_eq_getElem?] at last
  have number := counted subject _ entry last
  omega

theorem Counted.few (counted : catalog.Counted) (subject : String) :
    (catalog.versionsOf subject).length < 2 ^ 32 := by
  cases last : (catalog.versionsOf subject).getLast? with
  | none =>
    rw [List.getLast?_eq_none_iff.mp last]
    decide
  | some entry =>
    rw [← counted.last last]
    exact entry.version.toNat_lt

theorem Counted.next (counted : catalog.Counted) {version : UInt32}
    (fits : nextVersion? (catalog.versionsOf subject) = some version) :
    version.toNat = (catalog.versionsOf subject).length + 1 := by
  unfold nextVersion? at fits
  cases last : (catalog.versionsOf subject).getLast? with
  | none =>
    simp only [last, Option.some.injEq] at fits
    simp [← fits, List.getLast?_eq_none_iff.mp last]
  | some entry =>
    simp only [last] at fits
    split at fits
    · cases fits
    · rename_i small
      have number := counted.last last
      have bound := entry.version.toNat_lt
      have differ : entry.version.toNat ≠ 4294967295 := fun same => small (UInt32.toNat_inj.mp same)
      rw [← Option.some.inj fits, UInt32.toNat_add, ← number, UInt32.toNat_one]
      omega

/-- The check stops a registration just where 32 bits can hold no more. -/
theorem Counted.overflows_iff (counted : catalog.Counted) :
    nextVersion? (catalog.versionsOf subject) = none ↔
      (catalog.versionsOf subject).length = 2 ^ 32 - 1 := by
  unfold nextVersion?
  cases last : (catalog.versionsOf subject).getLast? with
  | none => simp [List.getLast?_eq_none_iff.mp last]
  | some entry =>
    simp [← counted.last last, ← UInt32.toNat_inj]

theorem Counted.answerChecked (counted : catalog.Counted) (request : Request) :
    (catalog.answerChecked request).1.Counted := by
  obtain ⟨eq, _⟩ | ⟨subject, schema, normalize, version, rfl, absent, fits, eq⟩ |
    ⟨_, _, _, _, _, _, eq⟩ := answerChecked_cases catalog request
  · rw [eq]
    exact counted
  · intro other i entry here
    simp only [eq, answer, register_new catalog subject absent, versionsOf_put] at here
    split at here
    · rename_i same
      subst same
      rw [List.getElem?_append] at here
      split at here
      · exact counted subject i entry here
      · -- Behind the versions there were, only the new one.
        obtain ⟨last, rfl⟩ := List.getElem?_eq_some_iff.mp here
        have place : i = (catalog.versionsOf subject).length := by
          simp only [List.length_singleton] at last
          omega
        simp only [place, Nat.sub_self, List.getElem_cons_zero, newVersion,
          nextVersion_of_checked fits]
        exact counted.next fits
    · exact counted other i entry here
  · intro other i entry here
    simp only [eq, versionsOf, claimId_subjects] at here
    exact counted other i entry here

theorem Counted.answerChecked_eq (counted : catalog.Counted) {request : Request}
    (room : ∀ subject, ((catalog.answer request).1.versionsOf subject).length < 2 ^ 32) :
    catalog.answerChecked request = ((catalog.answer request).1, some (catalog.answer request).2) := by
  obtain ⟨eq, kept⟩ | ⟨_, _, _, _, _, _, _, eq⟩ | ⟨subject, schema, normalize, rfl, absent, full, _⟩ :=
    answerChecked_cases catalog request
  · rw [eq, kept]
  · exact eq
  · have count := counted.overflows_iff.mp full
    have more := room subject
    simp only [answer, versionsOf_register_new catalog subject absent, List.length_append,
      List.length_singleton] at more
    omega

end Catalog

namespace MemoryRegistry

theorem serveAllChecked_counted {registry : MemoryRegistry} (counted : registry.catalog.Counted)
    (requests : List Request) : (registry.serveAllChecked requests).catalog.Counted := by
  induction requests generalizing registry with
  | nil => exact counted
  | cons request rest ih => exact ih (counted.answerChecked request)

/-- A run is the same checked or not exactly when no subject comes to 2 ^ 32 versions in it. -/
theorem serveAllChecked_eq_iff {registry : MemoryRegistry} (counted : registry.catalog.Counted)
    (requests : List Request) :
    registry.serveAllChecked requests = registry.serveAll requests ↔
      ∀ subject, ((registry.serveAll requests).catalog.versionsOf subject).length < 2 ^ 32 := by
  constructor
  · intro same subject
    rw [← same]
    exact (serveAllChecked_counted counted requests).few subject
  · intro room
    induction requests generalizing registry with
    | nil => rfl
    | cons request rest ih =>
      have within : ∀ subject,
          ((registry.catalog.answer request).1.versionsOf subject).length < 2 ^ 32 := by
        intro subject
        have more := (serveAll_extends (registry.serve request).1 rest subject).length_le
        exact Nat.lt_of_le_of_lt more (room subject)
      have same : (registry.serveChecked request).1 = (registry.serve request).1 := by
        simp only [serveChecked, serve, counted.answerChecked_eq within]
      have next := counted.answerChecked request
      calc registry.serveAllChecked (request :: rest)
          = (registry.serve request).1.serveAllChecked rest := by
            rw [← same]
            rfl
        _ = (registry.serve request).1.serveAll rest := ih (same ▸ next) room

end MemoryRegistry
end FramedJson
