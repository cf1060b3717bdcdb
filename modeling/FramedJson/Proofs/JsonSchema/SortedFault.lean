import FramedJson.JsonSchema.Metaschema
import FramedJson.Proofs.Json.Sorted

namespace FramedJson.JsonSchema

open Json

@[simp] theorem hasType_sortKeys (value : Json) (type : String) :
    hasType value.sortKeys type = hasType value type := by
  cases value <;> rfl

theorem mistyped_eq_none {value : Json} {types : List String} :
    mistyped value types = none ↔ types.any (hasType value) = true := by
  simp [mistyped]

theorem mistyped_sortKeys (value : Json) (types : List String) :
    mistyped value.sortKeys types = none ↔ mistyped value types = none := by
  simp only [mistyped_eq_none, hasType_sortKeys, List.any_eq_true]

theorem sortKeys_of_string {value : Json} (string : hasType value "string" = true) :
    value.sortKeys = value := by
  cases value with
  | arr items => simp [hasType] at string
  | obj members => simp [hasType] at string
  | _ => rfl

theorem sortItems_passed_iff {test : Json → Bool} (blind : ∀ v : Json, test v.sortKeys = test v)
    (fixed : ∀ v : Json, test v = true → v.sortKeys = v) (items : List Json)
    (holds : List Json → Prop) :
    ((∀ item ∈ sortItems items, test item = true) ∧ holds (sortItems items)) ↔
      (∀ item ∈ items, test item = true) ∧ holds items := by
  have passed : (∀ item ∈ sortItems items, test item = true) ↔
      ∀ item ∈ items, test item = true := by
    simp [sortItems_eq_map, blind]
  rw [passed]
  refine and_congr_right fun own => ?_
  have same : sortItems items = items := by
    rw [sortItems_eq_map]
    exact (List.map_congr_left fun item member => fixed item (own item member)).trans
      (List.map_id' items)
  rw [same]

theorem namesFault_arr {items : List Json} :
    namesFault (.arr items) = none ↔
      (∀ item ∈ items, hasType item "string" = true) ∧ allDiffer items = true := by
  simp [namesFault, mistyped_eq_none]

theorem namesFault_sortKeys (value : Json) :
    namesFault value.sortKeys = none ↔ namesFault value = none := by
  cases value with
  | arr items =>
    rw [sortKeys, namesFault_arr, namesFault_arr]
    exact sortItems_passed_iff (fun v => hasType_sortKeys v "string")
      (fun _ => sortKeys_of_string) items fun items => allDiffer items = true
  | obj members => exact mistyped_sortKeys (.obj members) ["array"]
  | _ => exact Iff.rfl

@[simp] theorem isTypeName_sortKeys (value : Json) : isTypeName value.sortKeys = isTypeName value := by
  cases value <;> rfl

theorem sortKeys_of_typeName {value : Json} (known : isTypeName value = true) :
    value.sortKeys = value := by
  cases value with
  | str name => rfl
  | _ => cases known

theorem typesFault_arr {items : List Json} :
    typesFault (.arr items) = none ↔
      (∀ item ∈ items, isTypeName item = true) ∧ items ≠ [] ∧ allDiffer items = true := by
  simp [typesFault, and_assoc]

theorem typesFault_sortKeys (value : Json) :
    typesFault value.sortKeys = none ↔ typesFault value = none := by
  cases value with
  | arr items =>
    rw [sortKeys, typesFault_arr, typesFault_arr]
    exact sortItems_passed_iff isTypeName_sortKeys (fun _ => sortKeys_of_typeName) items
      fun items => items ≠ [] ∧ allDiffer items = true
  | obj members => simp [sortKeys_fields, typesFault, isTypeName]
  | _ => exact Iff.rfl

theorem Shape.fault_sortKeys {fault : Json → Option Violation}
    (kept : ∀ schema : Json, fault schema.sortKeys = none ↔ fault schema = none) (value : Json)
    (shape : Shape) : shape.fault fault value.sortKeys = none ↔ shape.fault fault value = none := by
  cases shape with
  | text => exact mistyped_sortKeys value _
  | flag => exact mistyped_sortKeys value _
  | list => exact mistyped_sortKeys value _
  | number => exact mistyped_sortKeys value _
  | positive =>
    cases value with
    | arr items => simp [Shape.fault, positiveFault, mistyped, sortKeys, hasType]
    | obj members => simp [Shape.fault, positiveFault, mistyped, sortKeys, hasType]
    | _ => exact Iff.rfl
  | size =>
    cases value with
    | arr items => simp [Shape.fault, sizeFault, mistyped, sortKeys, hasType]
    | obj members => simp [Shape.fault, sizeFault, mistyped, sortKeys, hasType]
    | _ => exact Iff.rfl
  | types => exact typesFault_sortKeys value
  | names => exact namesFault_sortKeys value
  | schema => exact kept value
  | namesByName =>
    cases value with
    | obj members =>
      simp only [sortKeys_fields, Shape.fault, List.findSome?_eq_none_iff, forall_mem_sortFields,
        sortMember, namesFault_sortKeys]
    | arr items => exact mistyped_sortKeys (.arr items) ["object"]
    | _ => exact Iff.rfl
  | schemas =>
    cases value with
    | arr items =>
      cases items with
      | nil => exact Iff.rfl
      | cons first rest =>
        simp [sortKeys, Shape.fault, sortItems_eq_map, kept]
    | obj members => exact mistyped_sortKeys (.obj members) ["array"]
    | _ => exact Iff.rfl
  | schemasByName =>
    cases value with
    | obj members =>
      simp only [sortKeys_fields, Shape.fault, List.findSome?_eq_none_iff, forall_mem_sortFields,
        sortMember, kept]
    | arr items => exact mistyped_sortKeys (.arr items) ["object"]
    | _ => exact Iff.rfl

theorem faultWithin_sortKeys (room : Nat) (schema : Json) :
    faultWithin room schema.sortKeys = none ↔ faultWithin room schema = none := by
  induction room generalizing schema with
  | zero => exact Iff.rfl
  | succ room ih =>
    cases schema with
    | obj members =>
      simp only [sortKeys_fields, faultWithin, List.findSome?_eq_none_iff, find?_sortFields]
      refine forall_congr' fun entry => imp_congr_right fun _ => ?_
      cases Assoc.find? entry.1 members with
      | none => exact Iff.rfl
      | some value => exact Shape.fault_sortKeys ih value entry.2
    | arr items => simp [sortKeys, faultWithin]
    | _ => exact Iff.rfl

/-- A document is a schema with its names sorted or as it is. -/
theorem fault_sortKeys (schema : Json) : fault schema.sortKeys = none ↔ fault schema = none := by
  rw [fault, depth_sortKeys, fault]
  exact faultWithin_sortKeys _ schema

end FramedJson.JsonSchema
