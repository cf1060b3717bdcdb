import FramedJson.Json.Unordered
import FramedJson.Proofs.Json.Canonical
import FramedJson.Proofs.Json.Integers
import Mathlib.Data.List.Nodup
import Mathlib.Data.List.Perm.Subperm

namespace FramedJson

namespace Json

section Members

variable {members others : List (String × Json)}

def NamesOnce (members : List (String × Json)) : Prop := (members.map Prod.fst).Nodup

theorem eq_of_name (once : NamesOnce members) {a b : String × Json} (first : a ∈ members)
    (second : b ∈ members) (same : a.1 = b.1) : a = b := by
  obtain ⟨name, value⟩ := a
  obtain ⟨name', value'⟩ := b
  have here := Assoc.find?_of_mem once first
  have there := Assoc.find?_of_mem once second
  have name : name = name' := same
  subst name
  have value : value = value' := Option.some.inj (here.symm.trans there)
  exact congrArg (Prod.mk name) value

theorem sort_eq_iff_perm (once : NamesOnce members) :
    Sorting.sort byName members = Sorting.sort byName others ↔ members.Perm others := by
  constructor
  · intro same
    exact (Sorting.sort_perm byName members).symm.trans (same ▸ Sorting.sort_perm byName others)
  · intro perm
    refine Sorting.sort_eq_of_perm byName byName_total byName_trans ?_ perm
    intro a here b there before after
    simp only [byName, decide_eq_true_eq] at before after
    exact eq_of_name once here there (String.le_antisymm before after)

def FoundSorted (members others : List (String × Json)) : Prop :=
  ∀ member ∈ members, ∃ other, Assoc.find? member.1 others = some other ∧
    sortKeys member.2 = sortKeys other

theorem foundSorted_cons {name : String} {value : Json} :
    FoundSorted ((name, value) :: members) others ↔
      (∃ other, Assoc.find? name others = some other ∧ sortKeys value = sortKeys other) ∧
        FoundSorted members others := by
  simp [FoundSorted]

theorem foundSorted_iff_subset (once : NamesOnce others) :
    FoundSorted members others ↔ sortMembers members ⊆ sortMembers others := by
  rw [sortMembers_eq_map, sortMembers_eq_map]
  constructor
  · intro found member here
    obtain ⟨written, there, rfl⟩ := List.mem_map.mp here
    obtain ⟨other, first, same⟩ := found written there
    refine List.mem_map.mpr ⟨(written.1, other), Assoc.mem_of_find? first, ?_⟩
    simp only [sortMember, same]
  · intro subset member here
    obtain ⟨⟨name, other⟩, there, same⟩ :=
      List.mem_map.mp (subset (List.mem_map_of_mem here))
    simp only [sortMember, Prod.mk.injEq] at same
    obtain ⟨rfl, same⟩ := same
    exact ⟨other, Assoc.find?_of_mem once there, same.symm⟩

theorem sort_sortMembers_eq_iff (once : NamesOnce members) (once' : NamesOnce others) :
    Sorting.sort byName (sortMembers members) = Sorting.sort byName (sortMembers others) ↔
      members.length = others.length ∧ FoundSorted members others := by
  have length : ∀ members, (sortMembers members).length = members.length := by
    intro members
    simp [sortMembers_eq_map]
  have sortedOnce : NamesOnce (sortMembers members) := by
    unfold NamesOnce
    rw [fst_sortMembers]
    exact once
  rw [sort_eq_iff_perm sortedOnce, foundSorted_iff_subset once']
  constructor
  · intro perm
    have equal := perm.length_eq
    rw [length, length] at equal
    exact ⟨equal, perm.subset⟩
  · rintro ⟨equal, subset⟩
    have sub := List.subperm_of_subset (List.Nodup.of_map Prod.fst sortedOnce) subset
    refine sub.perm_of_length_le ?_
    rw [length, length]
    exact Nat.le_of_eq equal.symm

end Members

mutual

/-- Where no name stands twice, documents are the same up to order when they are sorted to the same. -/
theorem sameUnordered_iff (v w : Json) (differ : v.namesDiffer) (differ' : w.namesDiffer) :
    v.sameUnordered w ↔ v.sortKeys = w.sortKeys := by
  match v with
  | .arr items =>
    cases w with
    | arr others =>
      simp only [namesDiffer, all, Bool.and_eq_true] at differ differ'
      simp only [sameUnordered, sortKeys, Json.arr.injEq]
      exact sameItemsUnordered_iff items others differ.2 differ'.2
    | _ => simp [sameUnordered, sortKeys]
  | .obj members =>
    cases w with
    | obj others =>
      simp only [namesDiffer, all, ownNamesDiffer, Bool.and_eq_true, decide_eq_true_eq]
        at differ differ'
      simp only [sameUnordered, sortKeys_obj, Json.obj.injEq, Bool.and_eq_true, decide_eq_true_eq]
      rw [sort_sortMembers_eq_iff differ.1 differ'.1,
        sameMembersUnordered_iff members others differ.2 differ'.2]
    | _ => simp [sameUnordered, sortKeys]
  | .null | .bool _ | .num _ | .str _ => cases w <;> simp [sameUnordered, sortKeys]

theorem sameItemsUnordered_iff (items others : List Json) (differ : allItems ownNamesDiffer items)
    (differ' : allItems ownNamesDiffer others) :
    sameItemsUnordered items others ↔ sortItems items = sortItems others := by
  match items, others with
  | [], [] => simp [sameItemsUnordered, sortItems]
  | [], _ :: _ | _ :: _, [] => simp [sameItemsUnordered, sortItems]
  | item :: rest, other :: others =>
    simp only [allItems, Bool.and_eq_true] at differ differ'
    simp only [sameItemsUnordered, sortItems, List.cons.injEq, Bool.and_eq_true]
    rw [sameUnordered_iff item other differ.1 differ'.1,
      sameItemsUnordered_iff rest others differ.2 differ'.2]

theorem sameMembersUnordered_iff (members others : List (String × Json))
    (differ : allMembers ownNamesDiffer members) (differ' : allMembers ownNamesDiffer others) :
    sameMembersUnordered members others ↔ FoundSorted members others := by
  match members with
  | [] => simp [sameMembersUnordered, FoundSorted]
  | (name, value) :: rest =>
    simp only [allMembers, Bool.and_eq_true] at differ
    simp only [sameMembersUnordered, Bool.and_eq_true, foundSorted_cons]
    rw [sameMembersUnordered_iff rest others differ.2 differ']
    refine and_congr_left fun _ => ?_
    cases found : Assoc.find? name others with
    | none => simp
    | some other =>
      have inside : other.namesDiffer :=
        allMembers_iff.mp differ' (name, other) (Assoc.mem_of_find? found)
      have here := sameUnordered_iff value other differ.1 inside
      simp [here]
end

end Json

variable {definition other : String}

theorem canonicalize_of_equivalent (same : equivalent definition other) :
    canonicalize definition = canonicalize other := by
  unfold equivalent at same
  cases read : Json.ofText definition with
  | error e =>
    cases read' : Json.ofText other with
    | error e' =>
      simp only [read, read', decide_eq_true_eq] at same
      exact congrArg canonicalize same
    | ok document' => simp [read, read'] at same
  | ok document =>
    cases read' : Json.ofText other with
    | error e' => simp [read, read'] at same
    | ok document' =>
      simp only [read, read'] at same
      have sorted := (Json.sameUnordered_iff document document' (Json.ofBytes_wellFormed read).2
        (Json.ofBytes_wellFormed read').2).mp same
      simp only [canonicalize_of_read read, canonicalize_of_read read', sorted]

/-- The canonical text tells whether there is a document, and which one up to the order of members. -/
theorem equivalent_of_canonicalize (exact : ReadsBack definition) (exact' : ReadsBack other)
    (same : canonicalize definition = canonicalize other) : equivalent definition other := by
  unfold equivalent
  cases read : Json.ofText definition with
  | error e =>
    cases read' : Json.ofText other with
    | error e' =>
      have own := canonicalize_of_error read
      have own' := canonicalize_of_error read'
      exact decide_eq_true (own.symm.trans (same.trans own'))
    | ok document' =>
      have sorted := ofText_canonicalize exact' read'
      rw [← same, canonicalize_of_error read, read] at sorted
      cases sorted
  | ok document =>
    have sorted := ofText_canonicalize exact read
    cases read' : Json.ofText other with
    | error e' =>
      rw [same, canonicalize_of_error read', read'] at sorted
      cases sorted
    | ok document' =>
      have sorted' := ofText_canonicalize exact' read'
      rw [same, sorted'] at sorted
      exact (Json.sameUnordered_iff document document' (Json.ofBytes_wellFormed read).2
        (Json.ofBytes_wellFormed read').2).mpr (Except.ok.inj sorted).symm

end FramedJson
