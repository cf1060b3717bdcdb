import FramedJson.Registry.Catalog

namespace FramedJson

def Schema.stored (schema : Schema) (normalize : Bool) : Schema :=
  if normalize then schema.normalized else schema

namespace Catalog

variable (catalog : Catalog) (subject : String) (fingerprint : Fingerprint)

def held? : Option SubjectVersion :=
  (catalog.versionsOf subject).find? fun entry => entry.fingerprint = fingerprint

/-- The id that a content has or would be given next. -/
def idOf : UInt32 := (Assoc.find? fingerprint catalog.ids).getD catalog.nextId

section Held

variable {catalog : Catalog} {subject : String} {fingerprint : Fingerprint}

theorem fingerprint_of_held {entry : SubjectVersion}
    (held : catalog.held? subject fingerprint = some entry) :
    entry ∈ catalog.versionsOf subject ∧ entry.fingerprint = fingerprint := by
  unfold held? at held
  refine ⟨List.mem_of_find?_eq_some held, ?_⟩
  have found := List.find?_some held
  exact of_decide_eq_true found

theorem absent_of_held (absent : catalog.held? subject fingerprint = none) :
    fingerprint ∉ (catalog.versionsOf subject).map (·.fingerprint) := by
  intro member
  obtain ⟨entry, here, same⟩ := List.mem_map.mp member
  have differ := List.find?_eq_none.mp absent entry here
  exact differ (decide_eq_true same)

end Held

section Ids

@[simp] theorem claimId_snd : (catalog.claimId fingerprint).2 = catalog.idOf fingerprint := by
  unfold claimId idOf
  cases Assoc.find? fingerprint catalog.ids with
  | none => rfl
  | some id => rfl

@[simp] theorem claimId_subjects :
    (catalog.claimId fingerprint).1.subjects = catalog.subjects := by
  unfold claimId
  cases Assoc.find? fingerprint catalog.ids with
  | none => rfl
  | some id => rfl

theorem claimId_known {id : UInt32} (known : Assoc.find? fingerprint catalog.ids = some id) :
    catalog.claimId fingerprint = (catalog, id) := by
  simp only [claimId, known]

theorem idOf_known {id : UInt32} (known : Assoc.find? fingerprint catalog.ids = some id) :
    catalog.idOf fingerprint = id := by
  rw [idOf, known, Option.getD_some]

theorem claimId_new (unknown : Assoc.find? fingerprint catalog.ids = none) :
    catalog.claimId fingerprint =
      (⟨catalog.subjects, Assoc.put fingerprint catalog.nextId catalog.ids, catalog.nextId + 1⟩,
        catalog.nextId) := by
  simp only [claimId, unknown]

theorem find?_claimId :
    Assoc.find? fingerprint (catalog.claimId fingerprint).1.ids =
      some (catalog.idOf fingerprint) := by
  unfold idOf
  cases known : Assoc.find? fingerprint catalog.ids with
  | none => rw [claimId_new catalog fingerprint known, Assoc.find?_put, if_pos rfl, Option.getD_none]
  | some id => rw [claimId_known catalog fingerprint known, known, Option.getD_some]

theorem claimId_keeps {other : Fingerprint} {id : UInt32}
    (known : Assoc.find? other catalog.ids = some id) :
    Assoc.find? other (catalog.claimId fingerprint).1.ids = some id := by
  cases mine : Assoc.find? fingerprint catalog.ids with
  | some old =>
    simp only [claimId_known catalog fingerprint mine]
    exact known
  | none =>
    have differ : fingerprint ≠ other := by
      rintro rfl
      cases mine.symm.trans known
    simp only [claimId_new catalog fingerprint mine, Assoc.find?_put, if_neg differ]
    exact known

end Ids

section Register

variable {schema : Schema} {normalize : Bool}

def newVersion (stored : Schema) : SubjectVersion :=
  ⟨nextVersion (catalog.versionsOf subject), catalog.idOf stored.fingerprint, stored,
    stored.fingerprint⟩

theorem register_held {entry : SubjectVersion}
    (held : catalog.held? subject (schema.stored normalize).fingerprint = some entry) :
    catalog.register subject schema normalize = (catalog, entry.schemaId) := by
  unfold held? Schema.stored at held
  simp only [register, held]

theorem register_new
    (absent : catalog.held? subject (schema.stored normalize).fingerprint = none) :
    catalog.register subject schema normalize =
      ({ (catalog.claimId (schema.stored normalize).fingerprint).1 with
          subjects := Assoc.put subject
            (catalog.versionsOf subject ++ [catalog.newVersion subject (schema.stored normalize)])
            catalog.subjects },
        catalog.idOf (schema.stored normalize).fingerprint) := by
  unfold held? Schema.stored at absent
  simp only [register, absent, newVersion, Schema.stored, claimId_snd, claimId_subjects]

theorem versionsOf_put (other : String) (versions : List SubjectVersion)
    (ids : List (Fingerprint × UInt32)) (nextId : UInt32) :
    versionsOf ⟨Assoc.put subject versions catalog.subjects, ids, nextId⟩ other =
      if subject = other then versions else catalog.versionsOf other := by
  unfold versionsOf
  rw [Assoc.find?_put]
  by_cases same : subject = other
  · rw [if_pos same, if_pos same, Option.getD_some]
  · rw [if_neg same, if_neg same]

theorem register_keeps_id {other : Fingerprint} {id : UInt32}
    (known : Assoc.find? other catalog.ids = some id) :
    Assoc.find? other (catalog.register subject schema normalize).1.ids = some id := by
  cases held : catalog.held? subject (schema.stored normalize).fingerprint with
  | some entry =>
    rw [register_held catalog subject held]
    exact known
  | none =>
    rw [register_new catalog subject held]
    exact claimId_keeps catalog _ known

theorem mem_versionsOf_register {other : String} {entry : SubjectVersion}
    (member : entry ∈ (catalog.register subject schema normalize).1.versionsOf other) :
    entry ∈ catalog.versionsOf other ∨
      subject = other ∧ catalog.held? subject (schema.stored normalize).fingerprint = none ∧
        entry = catalog.newVersion subject (schema.stored normalize) := by
  cases held : catalog.held? subject (schema.stored normalize).fingerprint with
  | some old =>
    rw [register_held catalog subject held] at member
    exact .inl member
  | none =>
    rw [register_new catalog subject held, versionsOf_put] at member
    split at member
    · rename_i same
      subst same
      rcases List.mem_append.mp member with earlier | new
      · exact .inl earlier
      · exact .inr ⟨rfl, rfl, List.mem_singleton.mp new⟩
    · exact .inl member

theorem versionsOf_register_new
    (absent : catalog.held? subject (schema.stored normalize).fingerprint = none) :
    (catalog.register subject schema normalize).1.versionsOf subject =
      catalog.versionsOf subject ++ [catalog.newVersion subject (schema.stored normalize)] := by
  rw [register_new catalog subject absent, versionsOf_put, if_pos rfl]

theorem held?_register_new
    (absent : catalog.held? subject (schema.stored normalize).fingerprint = none) :
    (catalog.register subject schema normalize).1.held? subject
        (schema.stored normalize).fingerprint =
      some (catalog.newVersion subject (schema.stored normalize)) := by
  rw [held?, versionsOf_register_new catalog subject absent, List.find?_append]
  rw [held?] at absent
  rw [absent, Option.none_or]
  simp [newVersion]

theorem register_holds (catalog : Catalog) (subject : String) (schema : Schema)
    (normalize : Bool) :
    ∃ entry, (catalog.register subject schema normalize).1.held? subject
        (schema.stored normalize).fingerprint = some entry ∧
      entry.schemaId = (catalog.register subject schema normalize).2 := by
  cases held : catalog.held? subject (schema.stored normalize).fingerprint with
  | some entry =>
    rw [register_held catalog subject held]
    exact ⟨entry, held, rfl⟩
  | none =>
    refine ⟨_, held?_register_new catalog subject held, ?_⟩
    rw [register_new catalog subject held]
    rfl

end Register

end Catalog
end FramedJson
