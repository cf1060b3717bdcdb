import FramedJson.Proofs.JsonSchema.Constants
import FramedJson.Proofs.JsonSchema.SortedFault
import FramedJson.Proofs.JsonSchema.SortedKeywords

namespace FramedJson.JsonSchema

open Json (sortKeys sortMember)

section Lists

variable {α β : Type}

theorem isEmpty_append (xs ys : List α) : (xs ++ ys).isEmpty = (xs.isEmpty && ys.isEmpty) := by
  cases xs <;> rfl

theorem isEmpty_flatMap (f : α → List β) (xs : List α) :
    (xs.flatMap f).isEmpty = xs.all fun x => (f x).isEmpty := by
  induction xs with
  | nil => rfl
  | cons x rest ih => rw [List.flatMap_cons, isEmpty_append, ih, List.all_cons]

theorem all_of_agree {p q : α → Bool} {xs : List α} (agree : ∀ x ∈ xs, q x = p x) :
    xs.all q = xs.all p := by
  rw [Bool.eq_iff_iff]
  simp only [List.all_eq_true]
  exact forall₂_congr fun x member => by rw [agree x member]

variable {f : α → β} {p : α → Bool} {q : β → Bool} {xs : List α}
  (agree : ∀ x ∈ xs, q (f x) = p x)
include agree

theorem all_map_of_agree : (xs.map f).all q = xs.all p :=
  List.all_map.trans (all_of_agree agree)

theorem any_map_of_agree : (xs.map f).any q = xs.any p := by
  rw [Bool.eq_iff_iff, List.any_map]
  simp only [List.any_eq_true, Function.comp_apply]
  exact exists_congr fun x => and_congr_right fun member => by rw [agree x member]

theorem count_map_of_agree : ((xs.map f).filter q).length = (xs.filter p).length := by
  rw [List.filter_map, List.length_map]
  exact congrArg List.length (List.filter_congr agree)

end Lists

theorem isEmpty_require (condition : Bool) (violation : Violation) :
    (require condition violation).isEmpty = condition := by
  cases condition <;> rfl

section Keywords

/-- The second judge finds nothing by the sorted schema where the first finds nothing by the schema. -/
def Agree (judge judge' : Json → Json → List Violation) (schema value : Json) : Prop :=
  (judge' schema.sortKeys value).isEmpty = (judge schema value).isEmpty

variable {root value : Json} {judge judge' : Json → Json → List Violation} {keyword : Keyword}

theorem definition?_sortKeys (root : Json) (name : String) :
    definition? root.sortKeys name = (definition? root name).map sortKeys := by
  unfold definition?
  rw [Json.get?_sortKeys]
  cases root.get? "$defs" with
  | none => rfl
  | some definitions => exact Json.get?_sortKeys name definitions

theorem generalViolations_sorted
    (agree : ∀ schema ∈ keyword.schemas root, Agree judge judge' schema value)
    (spared : ∀ constant ∈ keyword.constants, same value constant.sortKeys = same value constant) :
    (generalViolations root.sortKeys judge' value keyword.sorted).isEmpty =
      (generalViolations root judge value keyword).isEmpty := by
  cases keyword with
  | among options =>
    simp only [Keyword.sorted, generalViolations, isEmpty_require, Json.sortItems_eq_map]
    exact any_map_of_agree spared
  | constant expected =>
    simp only [Keyword.sorted, generalViolations, isEmpty_require]
    exact spared expected List.mem_cons_self
  | allOf schemas =>
    simp only [Keyword.sorted, generalViolations, isEmpty_flatMap, Json.sortItems_eq_map]
    exact all_map_of_agree agree
  | anyOf schemas =>
    simp only [Keyword.sorted, generalViolations, isEmpty_require, Json.sortItems_eq_map]
    exact any_map_of_agree agree
  | oneOf schemas =>
    have count : ((schemas.map sortKeys).filter fun schema => (judge' schema value).isEmpty).length =
        (schemas.filter fun schema => (judge schema value).isEmpty).length := count_map_of_agree agree
    simp only [Keyword.sorted, generalViolations, Json.sortItems_eq_map, count]
  | not schema =>
    have own := agree schema List.mem_cons_self
    unfold Agree at own
    simp only [Keyword.sorted, generalViolations, isEmpty_require, own]
  | conditional test yes no =>
    have tested := agree test List.mem_cons_self
    unfold Agree at tested
    simp only [Keyword.sorted, generalViolations, tested]
    cases (judge test value).isEmpty with
    | true =>
      cases yes with
      | none => rfl
      | some schema => exact agree schema (by simp [Keyword.schemas])
    | false =>
      cases no with
      | none => rfl
      | some schema => exact agree schema (by simp [Keyword.schemas])
  | reference name =>
    simp only [Keyword.sorted, generalViolations, definition?_sortKeys]
    cases found : definition? root name with
    | none => rfl
    | some schema => exact agree schema (by simp [Keyword.schemas, found])
  | _ => rfl

theorem numberViolations_sorted (n : Number) :
    numberViolations value n keyword.sorted = numberViolations value n keyword := by
  cases keyword <;> rfl

theorem stringViolations_sorted (text : String) :
    stringViolations value text keyword.sorted = stringViolations value text keyword := by
  cases keyword <;> rfl

theorem itemViolations_sorted {items : List Json}
    (agree : ∀ schema ∈ keyword.schemas root, ∀ item ∈ items, Agree judge judge' schema item) :
    (itemViolations judge' items keyword.sorted).isEmpty =
      (itemViolations judge items keyword).isEmpty := by
  cases keyword with
  | items skip schema =>
    have own := agree schema List.mem_cons_self
    simp only [Keyword.sorted, itemViolations, isEmpty_flatMap]
    exact all_of_agree fun item later => own item (List.mem_of_mem_drop later)
  | prefixItems schemas =>
    simp only [Keyword.sorted, itemViolations, isEmpty_flatMap, Json.sortItems_eq_map,
      List.zip_map_left]
    refine all_map_of_agree fun pair member => ?_
    obtain ⟨schema, item⟩ := pair
    obtain ⟨first, second⟩ := List.of_mem_zip member
    exact agree schema first item second
  | contains schema least most =>
    have own := agree schema List.mem_cons_self
    have count : (items.filter fun item => (judge' schema.sortKeys item).isEmpty) =
        items.filter fun item => (judge schema item).isEmpty := List.filter_congr own
    simp only [Keyword.sorted, itemViolations, count]
  | _ => rfl

section Members

variable {members : List (String × Json)} {name : String} {value : Json}

theorem member_mem_inner (member : (name, value) ∈ members) : value ∈ inner (.obj members) :=
  List.mem_cons_of_mem _ (List.mem_append_left _ (List.mem_map.mpr ⟨_, member, rfl⟩))

theorem name_mem_inner (member : (name, value) ∈ members) : .str name ∈ inner (.obj members) :=
  List.mem_cons_of_mem _ (List.mem_append_right _ (List.mem_map.mpr ⟨_, member, rfl⟩))

theorem nameViolations {schema : Json} (open_ : schema ≠ .bool false)
    (judge : Json → Json → List Violation) (members : List (String × Json)) :
    memberViolations judge members (.propertyNames schema) =
      members.flatMap fun member => judge schema (.str member.1) := by
  cases schema with
  | bool allowed =>
    cases allowed with
    | false => exact absurd rfl open_
    | true => rfl
  | _ => rfl

theorem memberViolations_sorted
    (agree : ∀ schema ∈ keyword.schemas root, ∀ value ∈ inner (.obj members),
      Agree judge judge' schema value) :
    (memberViolations judge' members keyword.sorted).isEmpty =
      (memberViolations judge members keyword).isEmpty := by
  cases keyword with
  | properties schemas =>
    simp only [Keyword.sorted, memberViolations, isEmpty_flatMap]
    rw [(Json.sortFields_perm schemas).all_eq]
    refine all_map_of_agree fun entry member => ?_
    simp only [sortMember]
    cases found : Assoc.find? entry.1 members with
    | none => rfl
    | some value =>
      exact agree entry.2 (List.mem_map_of_mem member) value
        (member_mem_inner (Assoc.mem_of_find? found))
  | onlyProperties schemas =>
    simp only [Keyword.sorted, memberViolations, isEmpty_append, isEmpty_flatMap, isEmpty_require,
      Json.find?_sortFields, Option.isNone_map]
    refine congrArg (· && _) (all_of_agree fun member here => ?_)
    cases found : Assoc.find? member.1 schemas with
    | none => rfl
    | some schema =>
      exact agree schema (List.mem_map.mpr ⟨_, Assoc.mem_of_find? found, rfl⟩) member.2
        (member_mem_inner here)
  | otherProperties schemas rest =>
    simp only [Keyword.sorted, memberViolations, isEmpty_flatMap, Json.find?_sortFields]
    refine all_of_agree fun member here => ?_
    cases found : Assoc.find? member.1 schemas with
    | none => exact agree rest List.mem_cons_self member.2 (member_mem_inner here)
    | some schema =>
      exact agree schema
        (List.mem_cons_of_mem _ (List.mem_map.mpr ⟨_, Assoc.mem_of_find? found, rfl⟩)) member.2
        (member_mem_inner here)
  | dependentRequired names =>
    simp only [Keyword.sorted, memberViolations, isEmpty_flatMap]
    exact (Sorting.sort_perm byKey names).all_eq
  | propertyNames schema =>
    by_cases closed : schema = .bool false
    · subst closed
      rfl
    · have closed' : schema.sortKeys ≠ .bool false := by
        cases schema with
        | bool allowed => exact closed
        | _ =>
          intro same
          cases same
      simp only [Keyword.sorted, nameViolations closed, nameViolations closed', isEmpty_flatMap]
      exact all_of_agree fun member here =>
        agree schema List.mem_cons_self (.str member.1) (name_mem_inner here)
  | _ => rfl

end Members

/-- A keyword finds nothing when its sorted form does, if its schemas agree and its constants are not
mistaken for others. -/
theorem keywordViolations_sorted
    (agree : ∀ schema ∈ keyword.schemas root, ∀ part ∈ inner value, Agree judge judge' schema part)
    (spared : ∀ constant ∈ keyword.constants, same value constant.sortKeys = same value constant) :
    (keywordViolations root.sortKeys judge' value keyword.sorted).isEmpty =
      (keywordViolations root judge value keyword).isEmpty := by
  unfold keywordViolations
  rw [isEmpty_append, isEmpty_append]
  rw [generalViolations_sorted (fun schema own => agree schema own value List.mem_cons_self) spared]
  refine congrArg (_ && ·) ?_
  cases value with
  | num n => exact congrArg List.isEmpty (numberViolations_sorted n)
  | str text => exact congrArg List.isEmpty (stringViolations_sorted text)
  | arr items =>
    exact itemViolations_sorted fun schema own item member =>
      agree schema own item (List.mem_cons_of_mem _ member)
  | obj members => exact memberViolations_sorted agree
  | _ => rfl

end Keywords

section Schemas

variable {root value : Json}

theorem violationsWithin_sorted (budget : Nat) {schema value : Json} (within : Within root schema)
    (untouched : Untouched root value) :
    (violationsWithin root.sortKeys budget schema.sortKeys value).isEmpty =
      (violationsWithin root budget schema value).isEmpty := by
  induction budget generalizing schema value with
  | zero => rfl
  | succ budget ih =>
    cases schema with
    | obj members =>
      simp only [Json.sortKeys_fields, violationsWithin, isEmpty_flatMap]
      rw [(keywords_sorted members).all_eq]
      refine all_map_of_agree fun keyword member => keywordViolations_sorted ?_ ?_
      · intro schema own part inside
        exact ih (.keyword within member own) (untouched.inner inside)
      · intro constant own
        exact untouched.spared (isConstant_of_keyword within member own)
    | bool allowed => cases allowed <;> rfl
    | _ => rfl

theorem violations_sorted (untouched : Untouched root value) :
    (violations root.sortKeys value).isEmpty = (violations root value).isEmpty := by
  have budget : budgetFor root.sortKeys value = budgetFor root value := by
    rw [budgetFor, Json.size_sortKeys, budgetFor]
  rw [violations, budget, violations]
  exact violationsWithin_sorted _ .whole untouched

end Schemas

end FramedJson.JsonSchema
