import Mathlib.Algebra.GroupWithZero.Nat
import FramedJson.Proofs.Json.Canonical

namespace FramedJson.Json

def sortFields (members : List (String × Json)) : List (String × Json) :=
  Sorting.sort byName (sortMembers members)

theorem sortKeys_fields (members : List (String × Json)) :
    sortKeys (.obj members) = .obj (sortFields members) := rfl

theorem sortItems_eq_map (items : List Json) : sortItems items = items.map sortKeys := by
  induction items with
  | nil => rfl
  | cons item rest ih => simp [sortItems, ih]

theorem sortFields_perm (members : List (String × Json)) :
    (sortFields members).Perm (members.map sortMember) := by
  rw [← sortMembers_eq_map]
  exact Sorting.sort_perm byName (sortMembers members)

theorem mem_sortFields {members : List (String × Json)} {member : String × Json} :
    member ∈ sortFields members ↔ ∃ written ∈ members, sortMember written = member :=
  (sortFields_perm members).mem_iff.trans List.mem_map

theorem forall_mem_sortFields {members : List (String × Json)} {holds : String × Json → Prop} :
    (∀ member ∈ sortFields members, holds member) ↔
      ∀ member ∈ members, holds (sortMember member) := by
  simp only [mem_sortFields, forall_exists_index, and_imp, forall_apply_eq_imp_iff₂]

section Lookup

variable (name : String)

theorem find?_insert (member : String × Json) (members : List (String × Json)) :
    Assoc.find? name (Sorting.insert byName member members) =
      Assoc.find? name (member :: members) := by
  induction members with
  | nil => rfl
  | cons first rest ih =>
    obtain ⟨own, value⟩ := member
    obtain ⟨other, later⟩ := first
    by_cases before : byName (own, value) (other, later) = true
    · simp only [Sorting.insert, if_pos before]
    · have differ : own ≠ other := by
        rintro rfl
        exact before (decide_eq_true (String.le_refl own))
      simp only [Sorting.insert, if_neg before]
      by_cases here : other = name
      · have passed : own ≠ name := fun same => differ (same.trans here.symm)
        simp [Assoc.find?, here, passed]
      · simp only [Assoc.find?, if_neg here, ih]

theorem find?_sort (members : List (String × Json)) :
    Assoc.find? name (Sorting.sort byName members) = Assoc.find? name members := by
  induction members with
  | nil => rfl
  | cons member rest ih =>
    obtain ⟨own, value⟩ := member
    rw [Sorting.sort, find?_insert]
    simp only [Assoc.find?, ih]

theorem find?_sortMembers (members : List (String × Json)) :
    Assoc.find? name (sortMembers members) = (Assoc.find? name members).map sortKeys := by
  induction members with
  | nil => rfl
  | cons member rest ih =>
    obtain ⟨own, value⟩ := member
    by_cases same : own = name <;> simp [sortMembers, Assoc.find?, same, ih]

@[simp] theorem find?_sortFields (members : List (String × Json)) :
    Assoc.find? name (sortFields members) = (Assoc.find? name members).map sortKeys :=
  (find?_sort name _).trans (find?_sortMembers name members)

theorem get?_sortKeys (v : Json) : v.sortKeys.get? name = (v.get? name).map sortKeys := by
  cases v with
  | obj members => exact find?_sortFields name members
  | _ => rfl

end Lookup

theorem sizeOfMembers_eq_sum (members : List (String × Json)) :
    sizeOfMembers members = (members.map fun member => member.2.size).sum := by
  induction members with
  | nil => rfl
  | cons member rest ih => simp [sizeOfMembers, ih]

mutual

theorem size_sortKeys (v : Json) : (sortKeys v).size = v.size := by
  match v with
  | .arr items => exact congrArg (· + 1) (sizeOfItems_sortItems items)
  | .obj members =>
    have perm := (Sorting.sort_perm byName (sortMembers members)).map fun member => member.2.size
    have sorted := sizeOfMembers_sortMembers members
    simp only [sizeOfMembers_eq_sum] at sorted
    simp only [sortKeys_obj, size, sizeOfMembers_eq_sum]
    exact congrArg (· + 1) (perm.sum_nat.trans sorted)
  | .null | .bool _ | .num _ | .str _ => rfl

theorem sizeOfItems_sortItems (items : List Json) :
    sizeOfItems (sortItems items) = sizeOfItems items := by
  match items with
  | [] => rfl
  | item :: rest =>
    simp only [sortItems, sizeOfItems, size_sortKeys item, sizeOfItems_sortItems rest]

theorem sizeOfMembers_sortMembers (members : List (String × Json)) :
    sizeOfMembers (sortMembers members) = sizeOfMembers members := by
  match members with
  | [] => rfl
  | (name, value) :: rest =>
    simp only [sortMembers, sizeOfMembers, size_sortKeys value, sizeOfMembers_sortMembers rest]
end

end FramedJson.Json
