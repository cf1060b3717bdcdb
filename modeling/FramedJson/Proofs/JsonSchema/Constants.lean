import FramedJson.JsonSchema.Validator
import FramedJson.Proofs.Json.Sorted

/-!
Which values a schema compares with, and which values it leaves alone. Objects are compared in the order of
their members, so a constant whose names are out of order is not the same as that constant sorted.
-/
namespace FramedJson.JsonSchema

open Json (sortKeys sortItems sortFields)

def Keyword.schemas (root : Json) : Keyword → List Json
  | .properties schemas => schemas.map Prod.snd
  | .onlyProperties schemas => schemas.map Prod.snd
  | .otherProperties schemas rest => rest :: schemas.map Prod.snd
  | .items _ schema => [schema]
  | .prefixItems schemas => schemas
  | .contains schema _ _ => [schema]
  | .allOf schemas => schemas
  | .anyOf schemas => schemas
  | .oneOf schemas => schemas
  | .not schema => [schema]
  | .conditional test yes no => test :: (yes.toList ++ no.toList)
  | .propertyNames schema => [schema]
  | .reference name => (definition? root name).toList
  | _ => []

def Keyword.constants : Keyword → List Json
  | .among options => options
  | .constant expected => [expected]
  | _ => []

/-- What judging a value may judge next: the value itself, its elements, its members and their
names. -/
def inner (value : Json) : List Json :=
  value :: match value with
    | .arr items => items
    | .obj members => members.map Prod.snd ++ members.map fun member => .str member.1
    | _ => []

/-- The schemas that judging by the whole schema may come to. -/
inductive Within (root : Json) : Json → Prop
  | whole : Within root root
  | keyword {members : List (String × Json)} {keyword : Keyword} {schema : Json} :
    Within root (.obj members) → keyword ∈ keywords members → schema ∈ keyword.schemas root →
    Within root schema

inductive Part : Json → Json → Prop
  | whole {value : Json} : Part value value
  | inner {value part deeper : Json} : part ∈ inner value → Part part deeper → Part value deeper

/-- A value with which judging by the whole schema may compare: that of a `const`, or one of an
`enum`. -/
def IsConstant (root constant : Json) : Prop :=
  ∃ members, Within root (.obj members) ∧
    (("const", constant) ∈ members ∨
      ∃ options, ("enum", .arr options) ∈ members ∧ constant ∈ options)

/-- No part of the value is the same as a constant that sorting changes, or as that constant sorted. -/
def Untouched (root value : Json) : Prop :=
  ∀ constant, IsConstant root constant → constant.sortKeys ≠ constant →
    ∀ part, Part value part → same part constant = false ∧ same part constant.sortKeys = false

section Untouched

variable {root value : Json}

theorem Untouched.inner {part : Json} (untouched : Untouched root value)
    (member : part ∈ inner value) : Untouched root part :=
  fun constant isConstant changed deeper within =>
    untouched constant isConstant changed deeper (.inner member within)

theorem Untouched.spared (untouched : Untouched root value) {constant : Json}
    (isConstant : IsConstant root constant) :
    same value constant.sortKeys = same value constant := by
  by_cases kept : constant.sortKeys = constant
  · rw [kept]
  · obtain ⟨apart, apart'⟩ := untouched constant isConstant kept value .whole
    rw [apart, apart']

end Untouched

section Order

mutual

theorem same_self (v : Json) : same v v = true := by
  match v with
  | .arr items => exact sameItems_self items
  | .obj members => exact sameMembers_self members
  | .null | .bool _ | .num _ | .str _ => simp [same]

theorem sameItems_self (items : List Json) : sameItems items items = true := by
  match items with
  | [] => rfl
  | item :: rest => simp [sameItems, same_self item, sameItems_self rest]

theorem sameMembers_self (members : List (String × Json)) : sameMembers members members = true := by
  match members with
  | [] => rfl
  | (name, value) :: rest => simp [sameMembers, same_self value, sameMembers_self rest]
end

theorem names_of_sameMembers {members others : List (String × Json)}
    (equal : sameMembers members others = true) : members.map Prod.fst = others.map Prod.fst := by
  induction members generalizing others with
  | nil =>
    cases others with
    | nil => rfl
    | cons other others => cases equal
  | cons member rest ih =>
    cases others with
    | nil => cases equal
    | cons other others =>
      simp only [sameMembers, Bool.and_eq_true, decide_eq_true_eq] at equal
      rw [List.map_cons, List.map_cons, ih equal.2, equal.1.1]

theorem sorted_iff_names (members : List (String × Json)) :
    Sorting.Sorted Json.byName members ↔ (members.map Prod.fst).Pairwise (· ≤ ·) := by
  rw [List.pairwise_map, Sorting.Sorted]
  simp only [Json.byName, decide_eq_true_eq]

theorem sortFields_of_names {members : List (String × Json)}
    (names : members.map Prod.fst = (sortFields members).map Prod.fst) :
    sortFields members = Json.sortMembers members := by
  have sorted := Sorting.sort_sorted Json.byName Json.byName_total Json.byName_trans
    (Json.sortMembers members)
  refine Sorting.sort_of_sorted Json.byName ((sorted_iff_names _).mpr ?_)
  rw [Json.fst_sortMembers, names]
  exact (sorted_iff_names _).mp sorted

mutual

theorem sortKeys_of_same (v : Json) (equal : same v v.sortKeys = true) : v.sortKeys = v := by
  match v with
  | .arr items => exact congrArg Json.arr (sortItems_of_same items equal)
  | .obj members =>
    have kept := sortFields_of_names (names_of_sameMembers equal)
    rw [Json.sortKeys_fields, same, kept] at equal
    rw [Json.sortKeys_fields, kept]
    exact congrArg Json.obj (sortMembers_of_same members equal)
  | .null | .bool _ | .num _ | .str _ => rfl

theorem sortItems_of_same (items : List Json) (equal : sameItems items (sortItems items) = true) :
    sortItems items = items := by
  match items with
  | [] => rfl
  | item :: rest =>
    simp only [sortItems, sameItems, Bool.and_eq_true] at equal
    rw [sortItems, sortKeys_of_same item equal.1, sortItems_of_same rest equal.2]

theorem sortMembers_of_same (members : List (String × Json))
    (equal : sameMembers members (Json.sortMembers members) = true) :
    Json.sortMembers members = members := by
  match members with
  | [] => rfl
  | (name, value) :: rest =>
    simp only [Json.sortMembers, sameMembers, Bool.and_eq_true] at equal
    rw [Json.sortMembers, sortKeys_of_same value equal.1.2, sortMembers_of_same rest equal.2]
end

theorem same_sortKeys_iff (v : Json) : same v v.sortKeys = true ↔ v.sortKeys = v := by
  constructor
  · exact sortKeys_of_same v
  · intro sorted
    rw [sorted]
    exact same_self v

end Order

section Members

variable {root value schema constant : Json} {members : List (String × Json)} {name : String}
  {keyword : Keyword}

theorem propertiesKeyword_some (stands : propertiesKeyword members value = some keyword) :
    keyword = .properties (fields value) := by
  unfold propertiesKeyword at stands
  split at stands
  · cases stands
  · cases stands
  · cases stands
    rfl

theorem numberKeyword_some {make : Number → Keyword}
    (stands : numberKeyword make value = some keyword) : ∃ number, keyword = make number := by
  cases value with
  | num number => exact ⟨number, (Option.some.inj stands).symm⟩
  | _ => cases stands

theorem additionalKeyword_some (stands : additionalKeyword members value = some keyword) :
    keyword = .noProperties ∨ ∃ known, (known = [] ∨ ∃ schemas,
      Assoc.find? "properties" members = some schemas ∧ known = fields schemas) ∧
      (keyword = .onlyProperties known ∨ keyword = .otherProperties known value) := by
  unfold additionalKeyword at stands
  cases found : Assoc.find? "properties" members with
  | none =>
    rw [found] at stands
    split at stands
    · cases stands
      exact .inl rfl
    · cases stands
      exact .inr ⟨[], .inl rfl, .inr rfl⟩
    · cases stands
  | some schemas =>
    rw [found] at stands
    split at stands
    · cases stands
      exact .inr ⟨_, .inr ⟨schemas, rfl, rfl⟩, .inl rfl⟩
    · cases stands
      exact .inr ⟨_, .inr ⟨schemas, rfl, rfl⟩, .inr rfl⟩
    · cases stands

theorem name_of_constant (stands : Keyword.ofMember? members name value = some keyword)
    (own : constant ∈ keyword.constants) :
    (name = "const" ∧ constant = value) ∨ (name = "enum" ∧ constant ∈ elements value) := by
  unfold Keyword.ofMember? at stands
  split at stands
  all_goals grind [Keyword.constants, → propertiesKeyword_some, → additionalKeyword_some,
    → numberKeyword_some, containsKeyword, Option.map_eq_some_iff]

theorem isConstant_of_keyword (within : Within root (.obj members)) (stands : keyword ∈ keywords members)
    (own : constant ∈ keyword.constants) : IsConstant root constant := by
  obtain ⟨⟨name, value⟩, here, stands⟩ := List.mem_filterMap.mp stands
  refine ⟨members, within, ?_⟩
  rcases name_of_constant stands own with ⟨rfl, rfl⟩ | ⟨rfl, listed⟩
  · exact .inl here
  · cases value with
    | arr options => exact .inr ⟨options, here, listed⟩
    | _ => cases listed

theorem source_of_keyword (here : (name, value) ∈ members)
    (stands : Keyword.ofMember? members name value = some keyword)
    (own : schema ∈ keyword.schemas root) :
    (∃ name value, (name, value) ∈ members ∧
      (schema = value ∨ schema ∈ elements value ∨ schema ∈ (fields value).map Prod.snd)) ∨
    ∃ name, definition? root name = some schema := by
  unfold Keyword.ofMember? at stands
  split at stands
  all_goals grind [Keyword.schemas, → propertiesKeyword_some, → additionalKeyword_some,
    → numberKeyword_some, containsKeyword, → Assoc.mem_of_find?, Option.map_eq_some_iff]

end Members

def ownConstantsSorted : Json → Bool
  | .obj members => members.all fun member =>
      !(member.1 = "const" || member.1 = "enum") || member.2.sortKeys = member.2
  | _ => true

section Passing

variable {test : Json → Bool} {root value part : Json} {members : List (String × Json)}

theorem all_of_member (passed : (Json.obj members).all test) {name : String}
    (here : (name, value) ∈ members) : value.all test := by
  simp only [Json.all, Bool.and_eq_true] at passed
  exact Json.allMembers_iff.mp passed.2 (name, value) here

theorem all_of_elements (passed : value.all test) (own : part ∈ elements value) : part.all test := by
  cases value with
  | arr items =>
    simp only [Json.all, Bool.and_eq_true] at passed
    exact Json.allItems_iff.mp passed.2 part own
  | _ => cases own

theorem all_of_fields (passed : value.all test) (own : part ∈ (fields value).map Prod.snd) :
    part.all test := by
  cases value with
  | obj members =>
    obtain ⟨member, here, rfl⟩ := List.mem_map.mp own
    exact all_of_member passed here
  | _ => cases own

theorem all_of_get? {name : String} (passed : value.all test) (found : value.get? name = some part) :
    part.all test := by
  cases value with
  | obj members => exact all_of_member passed (Assoc.mem_of_find? found)
  | _ => cases found

theorem all_within (passed : root.all test) {schema : Json} (within : Within root schema) :
    schema.all test := by
  induction within with
  | whole => exact passed
  | keyword _ stands own ih =>
    obtain ⟨⟨name, value⟩, here, stands⟩ := List.mem_filterMap.mp stands
    rcases source_of_keyword here stands own with ⟨name, value, beside, source⟩ | ⟨name, defined⟩
    · have inside := all_of_member ih beside
      rcases source with rfl | listed | named
      · exact inside
      · exact all_of_elements inside listed
      · exact all_of_fields inside named
    · obtain ⟨definitions, found, defined⟩ := Option.bind_eq_some_iff.mp defined
      exact all_of_get? (all_of_get? passed found) defined

theorem sorted_of_isConstant (passed : root.all ownConstantsSorted) {constant : Json}
    (isConstant : IsConstant root constant) : constant.sortKeys = constant := by
  obtain ⟨members, within, stands⟩ := isConstant
  have here : ∀ name value, (name, value) ∈ members → name = "const" ∨ name = "enum" →
      value.sortKeys = value := by
    have passed := all_within passed within
    simp only [Json.all, ownConstantsSorted, Bool.and_eq_true, List.all_eq_true] at passed
    intro name value member named
    have judged := passed.1 (name, value) member
    rcases named with rfl | rfl
    · simpa using judged
    · simpa using judged
  rcases stands with const | ⟨options, enum, listed⟩
  · exact here _ _ const (.inl rfl)
  · have kept : sortItems options = options := Json.arr.inj (here _ _ enum (.inr rfl))
    rw [Json.sortItems_eq_map] at kept
    exact List.map_inj_left.mp (kept.trans (List.map_id' options).symm) constant listed

theorem untouched_of_sorted (passed : root.all ownConstantsSorted) (value : Json) :
    Untouched root value :=
  fun _ isConstant changed => absurd (sorted_of_isConstant passed isConstant) changed

end Passing

end FramedJson.JsonSchema
