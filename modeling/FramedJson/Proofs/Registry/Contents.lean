import FramedJson.Registry.Memory
import FramedJson.Proofs.Registry.Catalog
import FramedJson.Proofs.Registry.Writes

namespace FramedJson

namespace Catalog

open Write

def view (entry : SubjectVersion) : UInt32 × UInt32 × Content :=
  (entry.version, entry.schemaId, entry.schema.content)

/-- The catalog of a registry that was given the writes, one after the other. -/
structure Mirrors (catalog : Catalog) (firstId : UInt32) (writes : List Write) : Prop where
  ids : catalog.ids = (contents writes).mapIdx fun i content =>
    (Sha256.digest content, firstId + UInt32.ofNat i)
  nextId : catalog.nextId = firstId + UInt32.ofNat (contents writes).length
  versions : ∀ subject, (catalog.versionsOf subject).map view = versionsFor firstId writes subject
  fingerprints : ∀ subject, ∀ entry ∈ catalog.versionsOf subject,
    entry.fingerprint = entry.schema.fingerprint

theorem mirrors_start (firstId : UInt32) : Mirrors (startingAt firstId) firstId [] where
  ids := rfl
  nextId := (UInt32.add_zero firstId).symm
  versions := fun _ => rfl
  fingerprints := fun _ _ none => nomatch none

variable {firstId : UInt32} {writes : List Write} {catalog : Catalog} {subject : String}
  {content : Content}

theorem Mirrors.id_known (mirrors : Mirrors catalog firstId writes)
    (apart : Apart (contents (writes ++ [(subject, content)]))) :
    Assoc.find? (Sha256.digest content) catalog.ids =
      if content ∈ contents writes then some (idFor firstId writes content) else none := by
  have last : content ∈ contents (writes ++ [(subject, content)]) :=
    mem_contents.mpr ⟨subject, List.mem_append_right _ List.mem_cons_self⟩
  rw [mirrors.ids]
  refine find?_places Sha256.digest content (contents writes) ?_ fun i => firstId + UInt32.ofNat i
  intro other member same
  obtain ⟨under, written⟩ := mem_contents.mp member
  exact apart other (mem_contents.mpr ⟨under, List.mem_append_left _ written⟩) content last same

theorem Mirrors.entry (mirrors : Mirrors catalog firstId writes) {entry : SubjectVersion}
    (member : entry ∈ catalog.versionsOf subject) :
    entry.schema.content ∈ contentsOf writes subject ∧
      entry.schemaId = idFor firstId writes entry.schema.content := by
  have listed := List.mem_map_of_mem (f := view) member
  rw [mirrors.versions, versionsFor, List.mem_mapIdx] at listed
  obtain ⟨i, bound, place⟩ := listed
  simp only [view, Prod.mk.injEq] at place
  obtain ⟨_, id, same⟩ := place
  rw [← same]
  exact ⟨List.getElem_mem bound, id.symm⟩

theorem Mirrors.entry_of (mirrors : Mirrors catalog firstId writes)
    (member : content ∈ contentsOf writes subject) :
    ∃ entry ∈ catalog.versionsOf subject, entry.schema.content = content := by
  obtain ⟨i, bound, rfl⟩ := List.getElem_of_mem member
  have listed : (UInt32.ofNat (i + 1), idFor firstId writes (contentsOf writes subject)[i],
      (contentsOf writes subject)[i]) ∈ (catalog.versionsOf subject).map view := by
    rw [mirrors.versions]
    exact List.mem_mapIdx.mpr ⟨i, bound, rfl⟩
  obtain ⟨entry, member, view⟩ := List.mem_map.mp listed
  exact ⟨entry, member, (Prod.mk.inj (Prod.mk.inj view).2).2⟩

theorem Mirrors.held (mirrors : Mirrors catalog firstId writes)
    (apart : Apart (contents (writes ++ [(subject, content)]))) {entry : SubjectVersion}
    (held : catalog.held? subject (Sha256.digest content) = some entry) :
    content ∈ contentsOf writes subject ∧ entry.schemaId = idFor firstId writes content := by
  obtain ⟨member, same⟩ := fingerprint_of_held held
  rw [mirrors.fingerprints subject entry member] at same
  obtain ⟨own, id⟩ := mirrors.entry member
  have unique : entry.schema.content = content :=
    apart _ (mem_contents.mpr ⟨subject, List.mem_append_left _ (mem_contentsOf.mp own)⟩) _
      (mem_contents.mpr ⟨subject, List.mem_append_right _ List.mem_cons_self⟩) same
  rw [← unique]
  exact ⟨own, id⟩

theorem Mirrors.absent (mirrors : Mirrors catalog firstId writes)
    (absent : catalog.held? subject (Sha256.digest content) = none) :
    content ∉ contentsOf writes subject := by
  intro own
  obtain ⟨entry, member, rfl⟩ := mirrors.entry_of own
  have same := mirrors.fingerprints subject entry member
  exact absent_of_held absent (List.mem_map.mpr ⟨entry, member, same⟩)

section Registration

variable (mirrors : Mirrors catalog firstId writes)
  (apart : Apart (contents (writes ++ [(subject, content)])))
include mirrors apart

theorem Mirrors.idOf : catalog.idOf (Sha256.digest content) =
    idFor firstId (writes ++ [(subject, content)]) content := by
  rw [Catalog.idOf, mirrors.id_known apart]
  by_cases member : content ∈ contents writes
  · rw [if_pos member, Option.getD_some, idFor_append firstId _ member]
  · rw [if_neg member, Option.getD_none, idFor_new firstId subject member, mirrors.nextId]

theorem Mirrors.claim :
    (catalog.claimId (Sha256.digest content)).1.ids =
        (contents (writes ++ [(subject, content)])).mapIdx (fun i content =>
          (Sha256.digest content, firstId + UInt32.ofNat i)) ∧
      (catalog.claimId (Sha256.digest content)).1.nextId =
        firstId + UInt32.ofNat (contents (writes ++ [(subject, content)])).length := by
  have known := mirrors.id_known apart
  by_cases member : content ∈ contents writes
  · rw [if_pos member] at known
    rw [claimId_known catalog _ known, contents_snoc_old subject member]
    exact ⟨mirrors.ids, mirrors.nextId⟩
  · rw [if_neg member] at known
    rw [claimId_new catalog _ known, contents_snoc_new subject member]
    constructor
    · dsimp only
      rw [Assoc.put_of_absent (Assoc.absent_of_find? known), mirrors.ids, mirrors.nextId,
        List.mapIdx_concat]
    · dsimp only
      rw [mirrors.nextId, List.length_append, List.length_singleton, UInt32.ofNat_add,
        UInt32.add_assoc]
      rfl

end Registration

theorem Mirrors.last (mirrors : Mirrors catalog firstId writes) (subject : String) :
    (catalog.versionsOf subject).getLast?.map view =
      (contentsOf writes subject).getLast?.map fun content =>
        (UInt32.ofNat (contentsOf writes subject).length, idFor firstId writes content,
          content) := by
  rw [← List.getLast?_map, mirrors.versions, versionsFor, List.getLast?_mapIdx]
  cases last : (contentsOf writes subject).getLast? with
  | none => rfl
  | some content =>
    have some := List.length_pos_of_mem (List.mem_of_getLast? last)
    rw [Option.map_some, Option.map_some, Nat.sub_add_cancel some]

theorem Mirrors.nextVersion (mirrors : Mirrors catalog firstId writes) (subject : String) :
    Catalog.nextVersion (catalog.versionsOf subject) =
      UInt32.ofNat ((contentsOf writes subject).length + 1) := by
  have last := mirrors.last subject
  unfold Catalog.nextVersion
  cases newest : (catalog.versionsOf subject).getLast? with
  | none =>
    rw [newest, Option.map_none] at last
    rw [List.getLast?_eq_none_iff.mp (Option.map_eq_none_iff.mp last.symm)]
    rfl
  | some entry =>
    rw [newest, Option.map_some] at last
    obtain ⟨content, _, view⟩ := Option.map_eq_some_iff.mp last.symm
    dsimp only
    rw [← (Prod.mk.inj view).1, UInt32.ofNat_add]
    rfl

theorem Mirrors.numbers (mirrors : Mirrors catalog firstId writes)
    (few : (contents writes).length < 2 ^ 32) (subject : String) :
    (catalog.versions subject).map UInt32.toNat =
      List.range' 1 (contentsOf writes subject).length := by
  have numbered := versionsFor_numbers few firstId subject
  rw [← mirrors.versions, List.map_map] at numbered
  rw [← numbered, Catalog.versions, List.map_map]
  rfl

theorem Mirrors.stock (mirrors : Mirrors catalog firstId writes) (subject : String) :
    (catalog.versionsOf subject).map (fun entry => entry.schema.content) =
      contentsOf writes subject := by
  rw [← versionsFor_contents firstId, ← mirrors.versions, List.map_map]
  rfl

theorem Mirrors.latest (mirrors : Mirrors catalog firstId writes) (subject : String) :
    catalog.latest subject =
      match (contentsOf writes subject).getLast? with
      | some content => .ok ⟨idFor firstId writes content, subject,
          UInt32.ofNat (contentsOf writes subject).length⟩
      | none => .error (.subjectNotFound subject) := by
  have last := mirrors.last subject
  unfold Catalog.latest
  cases newest : (contentsOf writes subject).getLast? with
  | none =>
    rw [newest, Option.map_none] at last
    rw [Option.map_eq_none_iff.mp last]
  | some content =>
    rw [newest, Option.map_some] at last
    obtain ⟨entry, found, same⟩ := Option.map_eq_some_iff.mp last
    simp only [view, Prod.mk.injEq] at same
    rw [found]
    simp only [SubjectVersion.registered, same]

theorem Mirrors.again {schema : Schema} {normalize : Bool}
    (mirrors : Mirrors catalog firstId writes)
    (member : (schema.stored normalize).content ∈ contentsOf writes subject) :
    (catalog.register subject schema normalize).1 = catalog := by
  cases held : catalog.held? subject (schema.stored normalize).fingerprint with
  | some entry => rw [register_held catalog subject held]
  | none => exact absurd member (mirrors.absent held)

theorem Mirrors.register {schema : Schema} {normalize : Bool}
    (mirrors : Mirrors catalog firstId writes)
    (apart : Apart (contents (writes ++ [(subject, (schema.stored normalize).content)]))) :
    Mirrors (catalog.register subject schema normalize).1 firstId
        (writes ++ [(subject, (schema.stored normalize).content)]) ∧
      (catalog.register subject schema normalize).2 =
        idFor firstId (writes ++ [(subject, (schema.stored normalize).content)])
          (schema.stored normalize).content := by
  cases held : catalog.held? subject (schema.stored normalize).fingerprint with
  | some entry =>
    obtain ⟨own, id⟩ := mirrors.held apart held
    have old := mem_contents_of_subject own
    rw [register_held catalog subject held]
    refine ⟨⟨?_, ?_, ?_, mirrors.fingerprints⟩, ?_⟩
    · rw [contents_snoc_old subject old]
      exact mirrors.ids
    · rw [contents_snoc_old subject old]
      exact mirrors.nextId
    · intro other
      rw [versionsFor_snoc_old firstId own, mirrors.versions]
    · rw [id, idFor_append firstId _ old]
  | none =>
    have absent := mirrors.absent held
    obtain ⟨ids, nextId⟩ := mirrors.claim apart
    rw [register_new catalog subject held]
    refine ⟨⟨ids, nextId, ?_, ?_⟩, mirrors.idOf apart⟩
    · intro other
      rw [versionsOf_put]
      by_cases self : subject = other
      · subst self
        rw [if_pos rfl, List.map_append, mirrors.versions, versionsFor_snoc_new firstId absent,
          List.map_singleton, view, newVersion, mirrors.nextVersion]
        exact congrArg (fun id => versionsFor firstId writes subject ++ [(_, id, _)])
          (mirrors.idOf apart)
      · rw [if_neg self, mirrors.versions, versionsFor_snoc_other firstId self]
    · intro other entry member
      rw [versionsOf_put] at member
      split at member
      · rcases List.mem_append.mp member with earlier | new
        · exact mirrors.fingerprints subject entry earlier
        · rw [List.mem_singleton.mp new]
          rfl
      · exact mirrors.fingerprints other entry member

end Catalog

namespace MemoryRegistry

open Write

def serveAll (registry : MemoryRegistry) (requests : List Request) : MemoryRegistry :=
  requests.foldl (fun registry request => (registry.serve request).1) registry

/-- What holds of the catalog and outlives each of the requests holds in the end. -/
theorem serveAll_keeps {holds : Catalog → Prop} {requests : List Request}
    (kept : ∀ request ∈ requests, ∀ catalog, holds catalog → holds (catalog.answer request).1)
    {registry : MemoryRegistry} (start : holds registry.catalog) :
    holds (registry.serveAll requests).catalog := by
  induction requests generalizing registry with
  | nil => exact start
  | cons request rest ih =>
    have next : holds (registry.serve request).1.catalog :=
      kept request List.mem_cons_self registry.catalog start
    exact ih (fun later member => kept later (List.mem_cons_of_mem request member)) next

def writes (requests : List Request) : List Write :=
  requests.filterMap fun
    | .register subject schema normalize => some (subject, (schema.stored normalize).content)
    | .lookup _ _ _ => none
    | .latest _ => none

theorem writes_append (past future : List Request) :
    writes (past ++ future) = writes past ++ writes future :=
  List.filterMap_append

theorem serve_mirrors {firstId : UInt32} {past : List Write} {registry : MemoryRegistry}
    (mirrors : registry.catalog.Mirrors firstId past) (request : Request)
    (apart : Apart (contents (past ++ writes [request]))) :
    (registry.serve request).1.catalog.Mirrors firstId (past ++ writes [request]) := by
  cases request with
  | register subject schema normalize => exact (mirrors.register apart).1
  | lookup subject schema normalize =>
    rw [show past ++ writes [.lookup subject schema normalize] = past from List.append_nil past]
    exact mirrors
  | latest subject =>
    rw [show past ++ writes [.latest subject] = past from List.append_nil past]
    exact mirrors

theorem serveAll_mirrors {firstId : UInt32} (past : List Write) {registry : MemoryRegistry}
    (mirrors : registry.catalog.Mirrors firstId past) (requests : List Request)
    (apart : Apart (contents (past ++ writes requests))) :
    (registry.serveAll requests).catalog.Mirrors firstId (past ++ writes requests) := by
  induction requests generalizing past registry with
  | nil =>
    rw [show past ++ writes [] = past from List.append_nil past]
    exact mirrors
  | cons request rest ih =>
    have split : past ++ writes (request :: rest) = past ++ writes [request] ++ writes rest := by
      rw [List.append_assoc, ← writes_append, List.singleton_append]
    rw [split] at apart ⊢
    exact ih _ (serve_mirrors mirrors request (apart_append apart)) apart

theorem mirrors_of_requests (firstId : UInt32) {requests : List Request}
    (apart : Apart (contents (writes requests))) :
    ((startingAt firstId).serveAll requests).catalog.Mirrors firstId (writes requests) :=
  serveAll_mirrors [] (Catalog.mirrors_start firstId) requests apart

/-- A registry, whatever it is asked, keeps the contents written to it in the order in which they
first came. Each subject has the versions from one up to the number of its contents, the newest of
which it answers when asked for the latest; each content has one id under all subjects, counted from
`firstId` modulo 2 ^ 32, and no two contents share one; and only a new content takes a new id. -/
theorem contents_in_order (firstId : UInt32) (requests : List Request)
    (apart : Apart (contents (writes requests)))
    (few : (contents (writes requests)).length < 2 ^ 32) :
    let registry := (startingAt firstId).serveAll requests
    let all := contents (writes requests)
    let id := idFor firstId (writes requests)
    (∀ subject,
      let own := contentsOf (writes requests) subject
      (registry.catalog.versions subject).map UInt32.toNat = List.range' 1 own.length ∧
      (registry.catalog.versionsOf subject).map (fun entry => entry.schema.content) = own ∧
      (registry.serve (.latest subject)).2 =
        match own.getLast? with
        | some content => .ok (.version ⟨id content, subject, UInt32.ofNat own.length⟩)
        | none => .error (.subjectNotFound subject)) ∧
    (∀ before after subject schema normalize,
      requests = before ++ .register subject schema normalize :: after →
      (((startingAt firstId).serveAll before).serve (.register subject schema normalize)).2 =
        .ok (.id (id (schema.stored normalize).content))) ∧
    (∀ content, (id content).toNat = (firstId.toNat + all.idxOf content) % 2 ^ 32) ∧
    (∀ a ∈ all, ∀ b ∈ all, id a = id b → a = b) ∧
    registry.catalog.nextId = firstId + UInt32.ofNat all.length ∧
    ∀ subject schema normalize,
      (schema.stored normalize).content ∈ contentsOf (writes requests) subject →
      (registry.serve (.register subject schema normalize)).1.catalog = registry.catalog := by
  intro registry all id
  have mirrors : registry.catalog.Mirrors firstId (writes requests) :=
    mirrors_of_requests firstId apart
  refine ⟨?_, ?_, idFor_toNat firstId _, fun a first b second => idFor_injective few first second,
    mirrors.nextId, ?_⟩
  · intro subject own
    refine ⟨mirrors.numbers few subject, mirrors.stock subject, ?_⟩
    change (registry.catalog.latest subject).map Reply.version = _
    rw [mirrors.latest]
    cases own.getLast? with
    | none => rfl
    | some content => rfl
  · rintro before after subject schema normalize rfl
    have through : writes (before ++ .register subject schema normalize :: after) =
        writes before ++ [(subject, (schema.stored normalize).content)] ++ writes after := by
      rw [List.append_assoc]
      exact writes_append before (.register subject schema normalize :: after)
    have member : (schema.stored normalize).content ∈
        contents (writes before ++ [(subject, (schema.stored normalize).content)]) :=
      mem_contents.mpr ⟨subject, List.mem_append_right _ List.mem_cons_self⟩
    rw [through] at apart
    have soFar := apart_append apart
    have answered := ((mirrors_of_requests firstId (apart_append soFar)).register soFar).2
    change Except.ok (Reply.id _) = Except.ok (Reply.id (idFor firstId (writes _) _))
    rw [through, idFor_append firstId _ member]
    exact congrArg (fun id => Except.ok (Reply.id id)) answered
  · intro subject schema normalize member
    exact mirrors.again member

def numeral (definition : String) : Schema := ⟨definition, .json, []⟩

/-- Two contents, of which the second is registered when the ids have run out. -/
def crossing : List Request :=
  [.register "a" (numeral "1") false, .lookup "b" (numeral "2") false,
   .register "b" (numeral "1") false, .register "b" (numeral "2") false,
   .register "b" (numeral "1") false, .latest "b"]

theorem crossing_contents :
    contents (writes crossing) = [[74, 83, 79, 78, 49], [74, 83, 79, 78, 50]] := by
  decide +kernel

theorem crossing_apart : Apart (contents (writes crossing)) := by
  have first : (Sha256.digest [74, 83, 79, 78, 49]).head? = some 217 := by decide +kernel
  have second : (Sha256.digest [74, 83, 79, 78, 50]).head? = some 199 := by decide +kernel
  rw [crossing_contents]
  intro a here b there same
  have heads := congrArg List.head? same
  simp only [List.mem_cons, List.not_mem_nil, or_false] at here there
  rcases here with rfl | rfl <;> rcases there with rfl | rfl
  · rfl
  · rw [first, second] at heads
    exact absurd heads (by decide)
  · rw [first, second] at heads
    exact absurd heads (by decide)
  · rfl

theorem contents_in_order_crossing :
    let registry := (startingAt 0xffffffff).serveAll crossing
    (registry.catalog.versions "b").map UInt32.toNat = [1, 2] ∧
    (registry.serve (.latest "b")).2 = .ok (.version ⟨0, "b", 2⟩) ∧
    (((startingAt 0xffffffff).serveAll (crossing.take 4)).serve
      (.register "b" (numeral "1") false)).2 = .ok (.id 0xffffffff) := by
  obtain ⟨subjects, answers, _⟩ := contents_in_order 0xffffffff crossing crossing_apart
    (by rw [crossing_contents]; decide)
  obtain ⟨versions, _, latest⟩ := subjects "b"
  have own : contentsOf (writes crossing) "b" =
      [[74, 83, 79, 78, 49], [74, 83, 79, 78, 50]] := by decide +kernel
  refine ⟨?_, ?_, ?_⟩
  · rw [versions, own]
    rfl
  · rw [latest, own]
    rfl
  · exact answers (crossing.take 4) [.latest "b"] "b" (numeral "1") false rfl

end MemoryRegistry
end FramedJson
