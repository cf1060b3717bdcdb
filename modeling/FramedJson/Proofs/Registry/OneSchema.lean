import FramedJson.Resolution
import FramedJson.Proofs.Registry.Catalog

/-!
A registry that serves one schema only, for one subject after another. What it answers for a
subject does not depend on what it served before, and what it ends with depends only on which
subjects it served.
-/
namespace FramedJson.Catalog

/-- Two catalogs that nothing asked of them can tell apart. The order of the subjects is not part of
what a catalog holds. -/
structure Same (a b : Catalog) : Prop where
  subjects : ∀ subject, Assoc.find? subject a.subjects = Assoc.find? subject b.subjects
  ids : a.ids = b.ids
  nextId : a.nextId = b.nextId

section Claims

variable {a b : Catalog} (fingerprint : Fingerprint)

theorem claimId_congr (ids : a.ids = b.ids) (nextId : a.nextId = b.nextId) :
    (a.claimId fingerprint).1.ids = (b.claimId fingerprint).1.ids ∧
      (a.claimId fingerprint).1.nextId = (b.claimId fingerprint).1.nextId ∧
      a.idOf fingerprint = b.idOf fingerprint := by
  unfold claimId idOf
  rw [ids, nextId]
  cases Assoc.find? fingerprint b.ids with
  | none => exact ⟨rfl, rfl, rfl⟩
  | some id => exact ⟨ids, nextId, rfl⟩

theorem claimId_again (ids : a.ids = (b.claimId fingerprint).1.ids)
    (nextId : a.nextId = (b.claimId fingerprint).1.nextId) :
    (a.claimId fingerprint).1.ids = (b.claimId fingerprint).1.ids ∧
      (a.claimId fingerprint).1.nextId = (b.claimId fingerprint).1.nextId ∧
      a.idOf fingerprint = b.idOf fingerprint := by
  have known : Assoc.find? fingerprint a.ids = some (b.idOf fingerprint) := by
    rw [ids, find?_claimId]
  rw [claimId_known a fingerprint known]
  exact ⟨ids, nextId, idOf_known a fingerprint known⟩

end Claims

section Registrations

variable (schema : Schema) (normalize : Bool) (start : Catalog) (served : String → Prop)

def Lacking : Prop :=
  ∃ subject, served subject ∧ start.held? subject (schema.stored normalize).fingerprint = none

/-- What registering the schema under the `served` subjects, in whatever order and however often,
makes of a catalog. -/
structure Registered (catalog : Catalog) : Prop where
  here : ∀ subject, served subject → Assoc.find? subject catalog.subjects =
    Assoc.find? subject (start.register subject schema normalize).1.subjects
  elsewhere : ∀ subject, ¬ served subject →
    Assoc.find? subject catalog.subjects = Assoc.find? subject start.subjects
  claimed : Lacking schema normalize start served →
    catalog.ids = (start.claimId (schema.stored normalize).fingerprint).1.ids ∧
      catalog.nextId = (start.claimId (schema.stored normalize).fingerprint).1.nextId
  unclaimed : ¬ Lacking schema normalize start served →
    catalog.ids = start.ids ∧ catalog.nextId = start.nextId

theorem registered_start : Registered schema normalize start (fun _ => False) start where
  here := fun _ never => never.elim
  elsewhere := fun _ _ => rfl
  claimed := fun ⟨_, never, _⟩ => never.elim
  unclaimed := fun _ => ⟨rfl, rfl⟩

variable {schema normalize start served} {catalog : Catalog}

theorem registered_unique {other : Catalog} (one : Registered schema normalize start served catalog)
    (two : Registered schema normalize start served other) : catalog.Same other := by
  have subjects : ∀ subject,
      Assoc.find? subject catalog.subjects = Assoc.find? subject other.subjects := by
    intro subject
    by_cases was : served subject
    · rw [one.here subject was, two.here subject was]
    · rw [one.elsewhere subject was, two.elsewhere subject was]
  by_cases lacking : Lacking schema normalize start served
  · obtain ⟨ids, nextId⟩ := one.claimed lacking
    obtain ⟨ids', nextId'⟩ := two.claimed lacking
    exact ⟨subjects, ids.trans ids'.symm, nextId.trans nextId'.symm⟩
  · obtain ⟨ids, nextId⟩ := one.unclaimed lacking
    obtain ⟨ids', nextId'⟩ := two.unclaimed lacking
    exact ⟨subjects, ids.trans ids'.symm, nextId.trans nextId'.symm⟩

theorem registered_held (registered : Registered schema normalize start served catalog)
    {subject : String} (was : served subject) :
    ∃ entry, catalog.held? subject (schema.stored normalize).fingerprint = some entry ∧
      entry.schemaId = (start.register subject schema normalize).2 := by
  obtain ⟨entry, held, answered⟩ := register_holds start subject schema normalize
  refine ⟨entry, ?_, answered⟩
  unfold held? versionsOf at held ⊢
  rw [registered.here subject was]
  exact held

theorem versionsOf_congr {a b : Catalog} {subject : String}
    (same : Assoc.find? subject a.subjects = Assoc.find? subject b.subjects) :
    a.versionsOf subject = b.versionsOf subject := by
  rw [versionsOf, same, versionsOf]

theorem held?_congr {a b : Catalog} {subject : String}
    (same : Assoc.find? subject a.subjects = Assoc.find? subject b.subjects)
    (fingerprint : Fingerprint) : a.held? subject fingerprint = b.held? subject fingerprint := by
  rw [held?, versionsOf_congr same, held?]

theorem registered_claims (registered : Registered schema normalize start served catalog) :
    (catalog.claimId (schema.stored normalize).fingerprint).1.ids =
        (start.claimId (schema.stored normalize).fingerprint).1.ids ∧
      (catalog.claimId (schema.stored normalize).fingerprint).1.nextId =
        (start.claimId (schema.stored normalize).fingerprint).1.nextId ∧
      catalog.idOf (schema.stored normalize).fingerprint =
        start.idOf (schema.stored normalize).fingerprint := by
  by_cases lacking : Lacking schema normalize start served
  · obtain ⟨ids, nextId⟩ := registered.claimed lacking
    exact claimId_again _ ids nextId
  · obtain ⟨ids, nextId⟩ := registered.unclaimed lacking
    exact claimId_congr _ ids nextId

theorem registered_found (registered : Registered schema normalize start served catalog)
    {subject : String} {entry : SubjectVersion}
    (held : start.held? subject (schema.stored normalize).fingerprint = some entry)
    (was : ¬ served subject) :
    Registered schema normalize start (fun other => served other ∨ other = subject) catalog where
  here := by
    rintro other (before | rfl)
    · exact registered.here other before
    · rw [register_held start other held]
      exact registered.elsewhere other was
  elsewhere := fun other neither => registered.elsewhere other fun before => neither (.inl before)
  claimed := by
    rintro ⟨other, before | rfl, absent⟩
    · exact registered.claimed ⟨other, before, absent⟩
    · rw [held] at absent
      cases absent
  unclaimed := fun none => registered.unclaimed fun ⟨other, before, absent⟩ =>
    none ⟨other, .inl before, absent⟩

theorem registered_added (registered : Registered schema normalize start served catalog)
    {subject : String}
    (absent : start.held? subject (schema.stored normalize).fingerprint = none)
    (was : ¬ served subject) :
    (catalog.register subject schema normalize).2 = (start.register subject schema normalize).2 ∧
      Registered schema normalize start (fun other => served other ∨ other = subject)
        (catalog.register subject schema normalize).1 := by
  have same := registered.elsewhere subject was
  obtain ⟨ids, nextId, id⟩ := registered_claims registered
  have version : catalog.newVersion subject (schema.stored normalize) =
      start.newVersion subject (schema.stored normalize) := by
    rw [newVersion, versionsOf_congr same, id, newVersion]
  rw [register_new catalog subject ((held?_congr same _).trans absent)]
  constructor
  · rw [register_new start subject absent]
    exact id
  · rw [version, versionsOf_congr same]
    constructor
    · intro other before
      rw [Assoc.find?_put]
      split
      · rename_i self
        subst self
        rw [register_new start subject absent, Assoc.find?_put, if_pos rfl]
      · rename_i differ
        rcases before with before | self
        · exact registered.here other before
        · exact absurd self.symm differ
    · intro other neither
      rw [Assoc.find?_put, if_neg fun self => neither (.inr self.symm)]
      exact registered.elsewhere other fun before => neither (.inl before)
    · intro _
      exact ⟨ids, nextId⟩
    · intro lacking
      exact absurd ⟨subject, .inr rfl, absent⟩ lacking

theorem registered_step (registered : Registered schema normalize start served catalog)
    (subject : String) :
    (catalog.register subject schema normalize).2 = (start.register subject schema normalize).2 ∧
      Registered schema normalize start (fun other => served other ∨ other = subject)
        (catalog.register subject schema normalize).1 := by
  by_cases was : served subject
  · obtain ⟨entry, held, answered⟩ := registered_held registered was
    have nothing : (fun other => served other ∨ other = subject) = served := by
      funext other
      exact propext ⟨fun either => either.elim id fun self => self ▸ was, .inl⟩
    rw [register_held catalog subject held, nothing]
    exact ⟨answered, registered⟩
  · cases held : start.held? subject (schema.stored normalize).fingerprint with
    | none => exact registered_added registered held was
    | some entry =>
      have same := registered.elsewhere subject was
      rw [register_held catalog subject ((held?_congr same _).trans held),
        register_held start subject held]
      exact ⟨rfl, registered_found registered held was⟩

end Registrations

section Requests

variable {mode : ResolutionMode} {schema : Schema} {start catalog : Catalog}
  {served : String → Prop}

/-- What the requests of one mode for the `served` subjects make of a catalog: only registrations
leave anything. -/
def Served (mode : ResolutionMode) (schema : Schema) (start : Catalog) (served : String → Prop)
    (catalog : Catalog) : Prop :=
  match mode with
  | .autoRegister normalize => Registered schema normalize start served catalog
  | .useLatest => catalog = start
  | .lookupOnly _ => catalog = start

theorem served_start (mode : ResolutionMode) (schema : Schema) (start : Catalog) :
    Served mode schema start (fun _ => False) start := by
  cases mode with
  | autoRegister normalize => exact registered_start schema normalize start
  | useLatest => rfl
  | lookupOnly normalize => rfl

theorem served_unique {other : Catalog} (one : Served mode schema start served catalog)
    (two : Served mode schema start served other) : catalog.Same other := by
  cases mode with
  | autoRegister normalize => exact registered_unique one two
  | useLatest =>
    cases one
    cases two
    exact ⟨fun _ => rfl, rfl, rfl⟩
  | lookupOnly normalize =>
    cases one
    cases two
    exact ⟨fun _ => rfl, rfl, rfl⟩

theorem served_step (was : Served mode schema start served catalog) (subject : String) :
    (catalog.answer (mode.request subject schema)).2 =
        (start.answer (mode.request subject schema)).2 ∧
      Served mode schema start (fun other => served other ∨ other = subject)
        (catalog.answer (mode.request subject schema)).1 := by
  cases mode with
  | autoRegister normalize =>
    obtain ⟨same, registered⟩ := registered_step was subject
    exact ⟨congrArg (fun id => (Except.ok (Reply.id id) : Except RegistryError Reply)) same,
      registered⟩
  | useLatest =>
    cases was
    exact ⟨rfl, rfl⟩
  | lookupOnly normalize =>
    cases was
    exact ⟨rfl, rfl⟩

end Requests
end FramedJson.Catalog
