import FramedJson.Assoc
import FramedJson.Sha256
import Mathlib.Data.List.Nodup

namespace FramedJson

abbrev Content := List UInt8

abbrev Write := String × Content

namespace Write

/-- The different contents, in the order of their first registration. -/
def contents (writes : List Write) : List Content := (writes.map Prod.snd).eraseDups

def contentsOf (writes : List Write) (subject : String) : List Content :=
  contents (writes.filter fun write => write.1 = subject)

/-- The id of a content when the first one of all has the id `firstId`. -/
def idFor (firstId : UInt32) (writes : List Write) (content : Content) : UInt32 :=
  firstId + UInt32.ofNat ((contents writes).idxOf content)

/-- No two of the contents have the same digest. -/
def Apart (contents : List Content) : Prop :=
  ∀ a ∈ contents, ∀ b ∈ contents, Sha256.digest a = Sha256.digest b → a = b

theorem apart_of_distinct {contents : List Content} (known : List Content)
    (listed : ∀ content ∈ contents, content ∈ known)
    (differ : (known.map Sha256.digest).Nodup) : Apart contents :=
  fun _ first _ second same =>
    List.inj_on_of_nodup_map differ (listed _ first) (listed _ second) same

theorem apart_pair {a b : Content} (differ : Sha256.digest a ≠ Sha256.digest b) : Apart [a, b] :=
  apart_of_distinct [a, b] (fun _ here => here) (by simpa using differ)

section Growth

variable {writes : List Write} {write : Write} {subject : String} {content : Content}

theorem mem_contents : content ∈ contents writes ↔ ∃ subject, (subject, content) ∈ writes := by
  simp [contents, List.mem_eraseDups]

theorem mem_contentsOf : content ∈ contentsOf writes subject ↔ (subject, content) ∈ writes := by
  simp [contentsOf, mem_contents]

theorem mem_contents_of_subject (member : content ∈ contentsOf writes subject) :
    content ∈ contents writes :=
  mem_contents.mpr ⟨subject, mem_contentsOf.mp member⟩

theorem contents_snoc_old (subject : String) (member : content ∈ contents writes) :
    contents (writes ++ [(subject, content)]) = contents writes := by
  have here : content ∈ writes.map Prod.snd := List.mem_eraseDups.mp member
  unfold contents
  rw [List.map_append, List.eraseDups_append]
  simp [List.removeAll, here]

theorem contents_snoc_new (subject : String) (absent : content ∉ contents writes) :
    contents (writes ++ [(subject, content)]) = contents writes ++ [content] := by
  have missing : content ∉ writes.map Prod.snd := fun here => absent (List.mem_eraseDups.mpr here)
  unfold contents
  rw [List.map_append, List.eraseDups_append]
  simp [List.removeAll, missing, List.eraseDups_cons]

theorem contentsOf_snoc_other {other : String} (differ : subject ≠ other) :
    contentsOf (writes ++ [(subject, content)]) other = contentsOf writes other := by
  unfold contentsOf
  rw [List.filter_append]
  simp [differ]

theorem contentsOf_snoc_old (member : content ∈ contentsOf writes subject) (other : String) :
    contentsOf (writes ++ [(subject, content)]) other = contentsOf writes other := by
  by_cases self : subject = other
  · subst self
    rw [contentsOf, List.filter_append, List.filter_cons_of_pos (by simp), List.filter_nil]
    exact contents_snoc_old subject member
  · exact contentsOf_snoc_other self

theorem contentsOf_snoc_new (absent : content ∉ contentsOf writes subject) :
    contentsOf (writes ++ [(subject, content)]) subject =
      contentsOf writes subject ++ [content] := by
  rw [contentsOf, List.filter_append, List.filter_cons_of_pos (by simp), List.filter_nil]
  exact contents_snoc_new subject absent

theorem idFor_new (firstId : UInt32) (subject : String) (absent : content ∉ contents writes) :
    idFor firstId (writes ++ [(subject, content)]) content =
      firstId + UInt32.ofNat (contents writes).length := by
  rw [idFor, contents_snoc_new subject absent, List.idxOf_append, if_neg absent,
    List.idxOf_cons_self, Nat.zero_add]

theorem idFor_append (firstId : UInt32) (later : List Write) (member : content ∈ contents writes) :
    idFor firstId (writes ++ later) content = idFor firstId writes content := by
  unfold idFor
  have here : content ∈ (writes.map Prod.snd).eraseDups := member
  unfold contents
  rw [List.map_append, List.eraseDups_append, List.idxOf_append, if_pos here]

/-- The versions that a subject is to have: numbered from one, each with the id of its content. -/
def versionsFor (firstId : UInt32) (writes : List Write) (subject : String) :
    List (UInt32 × UInt32 × Content) :=
  (contentsOf writes subject).mapIdx fun i content =>
    (UInt32.ofNat (i + 1), idFor firstId writes content, content)

theorem versionsFor_of_ids (firstId : UInt32) (later : List Write) (subject : String) :
    ((contentsOf writes subject).mapIdx fun i content =>
        (UInt32.ofNat (i + 1), idFor firstId (writes ++ later) content, content)) =
      versionsFor firstId writes subject := by
  refine List.mapIdx_eq_mapIdx_iff.mpr ?_
  intro i bound
  rw [idFor_append firstId later (mem_contents_of_subject (List.getElem_mem bound))]

theorem versionsFor_snoc_old (firstId : UInt32) (member : content ∈ contentsOf writes subject)
    (other : String) :
    versionsFor firstId (writes ++ [(subject, content)]) other =
      versionsFor firstId writes other := by
  rw [versionsFor, contentsOf_snoc_old member, versionsFor_of_ids]

theorem versionsFor_snoc_other (firstId : UInt32) {other : String} (differ : subject ≠ other) :
    versionsFor firstId (writes ++ [(subject, content)]) other =
      versionsFor firstId writes other := by
  rw [versionsFor, contentsOf_snoc_other differ, versionsFor_of_ids]

theorem versionsFor_snoc_new (firstId : UInt32) (absent : content ∉ contentsOf writes subject) :
    versionsFor firstId (writes ++ [(subject, content)]) subject =
      versionsFor firstId writes subject ++
        [(UInt32.ofNat ((contentsOf writes subject).length + 1),
          idFor firstId (writes ++ [(subject, content)]) content, content)] := by
  rw [versionsFor, contentsOf_snoc_new absent, List.mapIdx_concat, versionsFor_of_ids]

theorem apart_append {later : List Write} (apart : Apart (contents (writes ++ later))) :
    Apart (contents writes) := by
  have wider : ∀ a ∈ contents writes, a ∈ contents (writes ++ later) := by
    intro a member
    obtain ⟨subject, written⟩ := mem_contents.mp member
    exact mem_contents.mpr ⟨subject, List.mem_append_left _ written⟩
  exact fun a first b second => apart a (wider a first) b (wider b second)

theorem contents_nodup_append (past : List Write) (nodup : (contents past).Nodup)
    (writes : List Write) : (contents (past ++ writes)).Nodup := by
  induction writes generalizing past with
  | nil =>
    rw [List.append_nil]
    exact nodup
  | cons write rest ih =>
    rw [List.append_cons]
    refine ih _ ?_
    by_cases member : write.2 ∈ contents past
    · rw [contents_snoc_old write.1 member]
      exact nodup
    · rw [contents_snoc_new write.1 member, List.nodup_append]
      refine ⟨nodup, List.pairwise_singleton _ _, ?_⟩
      intro content here other last
      rw [List.mem_singleton.mp last]
      rintro rfl
      exact member here

theorem contents_nodup (writes : List Write) : (contents writes).Nodup :=
  contents_nodup_append [] List.nodup_nil writes

theorem contentsOf_length (writes : List Write) (subject : String) :
    (contentsOf writes subject).length ≤ (contents writes).length :=
  (contents_nodup _).length_le_of_subset fun _ => mem_contents_of_subject

theorem versionsFor_contents (firstId : UInt32) (writes : List Write) (subject : String) :
    (versionsFor firstId writes subject).map (fun view => view.2.2) =
      contentsOf writes subject := by
  rw [versionsFor]
  exact List.ext_getElem (by simp) (by simp)

end Growth

section Numbers

variable {firstId : UInt32} {writes : List Write}
  (few : (contents writes).length < 2 ^ 32)
include few

theorem versionsFor_numbers (firstId : UInt32) (subject : String) :
    (versionsFor firstId writes subject).map (fun view => view.1.toNat) =
      List.range' 1 (contentsOf writes subject).length := by
  have bound := contentsOf_length writes subject
  refine List.ext_getElem (by simp [versionsFor]) ?_
  intro i first second
  have inside : i < (contentsOf writes subject).length := by simpa using second
  simp only [versionsFor, List.getElem_map, List.getElem_mapIdx, List.getElem_range',
    UInt32.toNat_ofNat']
  omega

omit few in
theorem idFor_toNat (firstId : UInt32) (writes : List Write) (content : Content) :
    (idFor firstId writes content).toNat =
      (firstId.toNat + (contents writes).idxOf content) % 2 ^ 32 := by
  rw [idFor, UInt32.toNat_add, UInt32.toNat_ofNat', Nat.add_mod_mod]

theorem idFor_injective {a b : Content} (first : a ∈ contents writes) (second : b ∈ contents writes)
    (same : idFor firstId writes a = idFor firstId writes b) : a = b := by
  have places := congrArg UInt32.toNat same
  rw [idFor_toNat, idFor_toNat] at places
  have low := List.idxOf_lt_length_of_mem first
  have high := List.idxOf_lt_length_of_mem second
  have equal : (contents writes).idxOf a = (contents writes).idxOf b := by omega
  rw [← List.getElem_idxOf low, ← List.getElem_idxOf high]
  simp only [equal]

end Numbers

theorem find?_places {κ β γ : Type} [DecidableEq κ] [BEq β] [LawfulBEq β] (key : β → κ) (x : β)
    (things : List β) (apart : ∀ y ∈ things, key y = key x → y = x) (f : Nat → γ) :
    Assoc.find? (key x) (things.mapIdx fun i y => (key y, f i)) =
      if x ∈ things then some (f (things.idxOf x)) else none := by
  induction things generalizing f with
  | nil => rfl
  | cons y rest ih =>
    rw [List.mapIdx_cons, Assoc.find?]
    by_cases self : y = x
    · subst self
      rw [if_pos rfl, if_pos List.mem_cons_self, List.idxOf_cons_self]
    · have differ : key y ≠ key x := fun same => self (apart y List.mem_cons_self same)
      rw [if_neg differ, ih (fun z member => apart z (List.mem_cons_of_mem y member))
        fun i => f (i + 1)]
      have other : (y == x) = false := beq_false_of_ne self
      simp [Ne.symm self, List.idxOf_cons, other]

end Write
end FramedJson
