import FramedJson.JsonSchema.Keyword
import FramedJson.Proofs.Json.Sorted

namespace FramedJson.JsonSchema

open Json (sortKeys sortItems sortFields sortMember)

def byKey {β : Type} (a b : String × β) : Bool := decide (a.1 ≤ b.1)

def Keyword.sorted : Keyword → Keyword
  | .among options => .among (sortItems options)
  | .constant expected => .constant expected.sortKeys
  | .properties schemas => .properties (sortFields schemas)
  | .onlyProperties schemas => .onlyProperties (sortFields schemas)
  | .otherProperties schemas rest => .otherProperties (sortFields schemas) rest.sortKeys
  | .items skip schema => .items skip schema.sortKeys
  | .prefixItems schemas => .prefixItems (sortItems schemas)
  | .contains schema least most => .contains schema.sortKeys least most
  | .allOf schemas => .allOf (sortItems schemas)
  | .anyOf schemas => .anyOf (sortItems schemas)
  | .oneOf schemas => .oneOf (sortItems schemas)
  | .not schema => .not schema.sortKeys
  | .conditional test yes no => .conditional test.sortKeys (yes.map sortKeys) (no.map sortKeys)
  | .dependentRequired names => .dependentRequired (Sorting.sort byKey names)
  | .propertyNames schema => .propertyNames schema.sortKeys
  | other => other

section Values

variable (value : Json)

theorem strings_sortKeys : strings value.sortKeys = strings value := by
  cases value with
  | arr items =>
    simp only [sortKeys, strings, Json.sortItems_eq_map, List.filterMap_map]
    refine congrArg (List.filterMap · items) (funext fun item => ?_)
    cases item <;> rfl
  | _ => rfl

theorem elements_sortKeys : elements value.sortKeys = sortItems (elements value) := by
  cases value <;> rfl

theorem elements_length (found : Option Json) :
    (elements ((found.map sortKeys).getD .null)).length = (elements (found.getD .null)).length := by
  cases found with
  | none => rfl
  | some value => simp [elements_sortKeys, Json.sortItems_eq_map]

theorem fields_sortKeys : fields value.sortKeys = sortFields (fields value) := by
  cases value <;> rfl

theorem size_sortKeys : size value.sortKeys = size value := by
  cases value <;> rfl

theorem typesOf_sortKeys : typesOf value.sortKeys = typesOf value := by
  cases value with
  | arr items =>
    have same := strings_sortKeys (.arr items)
    simp only [sortKeys] at same
    simp only [sortKeys, typesOf, same]
  | _ => rfl

theorem same_true_sortKeys : same value.sortKeys (.bool true) = same value (.bool true) := by
  cases value <;> rfl

theorem numberKeyword_sortKeys {make : Number → Keyword}
    (plain : ∀ number, (make number).sorted = make number) :
    numberKeyword make value.sortKeys = (numberKeyword make value).map Keyword.sorted := by
  cases value <;> simp [sortKeys, numberKeyword, plain]

theorem dependents_sortKeys :
    ((fields value.sortKeys).map fun entry => (entry.1, strings entry.2)) =
      Sorting.sort byKey ((fields value).map fun entry => (entry.1, strings entry.2)) := by
  have keeps : ∀ a b : String × Json,
      byKey (a.1, strings a.2) (b.1, strings b.2) = Json.byName a b := fun _ _ => rfl
  rw [fields_sortKeys, sortFields, ← Sorting.sort_map keeps, Json.sortMembers_eq_map, List.map_map]
  refine congrArg (Sorting.sort byKey) (List.map_congr_left fun entry _ => ?_)
  exact congrArg (Prod.mk entry.1) (strings_sortKeys entry.2)

end Values

section Siblings

variable (siblings : List (String × Json)) (value : Json)

theorem propertiesKeyword_sorted :
    propertiesKeyword (sortFields siblings) value.sortKeys =
      (propertiesKeyword siblings value).map Keyword.sorted := by
  unfold propertiesKeyword
  rw [Json.find?_sortFields, fields_sortKeys]
  cases Assoc.find? "additionalProperties" siblings with
  | none => rfl
  | some additional =>
    cases additional with
    | bool allowed => cases allowed <;> rfl
    | _ => rfl

theorem additionalKeyword_sorted :
    additionalKeyword (sortFields siblings) value.sortKeys =
      (additionalKeyword siblings value).map Keyword.sorted := by
  unfold additionalKeyword
  rw [Json.find?_sortFields]
  cases Assoc.find? "properties" siblings with
  | none =>
    cases value with
    | bool allowed => cases allowed <;> rfl
    | _ => rfl
  | some known =>
    cases value with
    | bool allowed => cases allowed <;> simp [sortKeys, Keyword.sorted, fields_sortKeys]
    | _ => simp [sortKeys, Keyword.sorted, fields_sortKeys]

theorem containsKeyword_sorted :
    containsKeyword (sortFields siblings) value.sortKeys =
      (containsKeyword siblings value).sorted := by
  have counted : ∀ name, (Assoc.find? name (sortFields siblings)).map size =
      (Assoc.find? name siblings).map size := by
    intro name
    rw [Json.find?_sortFields, Option.map_map]
    exact congrArg (Option.map · _) (funext size_sortKeys)
  simp only [containsKeyword, counted, Keyword.sorted]

theorem ofMember?_sorted (name : String) :
    Keyword.ofMember? (sortFields siblings) name value.sortKeys =
      (Keyword.ofMember? siblings name value).map Keyword.sorted := by
  unfold Keyword.ofMember?
  split
  -- A keyword that reads siblings, one that takes a number, one that takes a text; all others take
  -- from their value what sorting keeps or sorts.
  all_goals
    first
    | exact propertiesKeyword_sorted siblings value
    | exact additionalKeyword_sorted siblings value
    | exact numberKeyword_sortKeys value fun _ => rfl
    | simp [Keyword.sorted, typesOf_sortKeys, elements_sortKeys, strings_sortKeys, size_sortKeys,
        same_true_sortKeys, dependents_sortKeys, containsKeyword_sorted, elements_length]
    | cases value <;> simp [sortKeys, Keyword.sorted, Function.comp_def]

end Siblings

theorem keywords_sorted (members : List (String × Json)) :
    (keywords (sortFields members)).Perm ((keywords members).map Keyword.sorted) := by
  unfold keywords
  rw [List.map_filterMap]
  refine ((Json.sortFields_perm members).filterMap _).trans (List.Perm.of_eq ?_)
  rw [List.filterMap_map]
  exact congrArg (List.filterMap · members) (funext fun member =>
    ofMember?_sorted members member.2 member.1)

end FramedJson.JsonSchema
