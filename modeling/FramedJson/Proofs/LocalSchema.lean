import FramedJson.LocalSchema

namespace FramedJson

namespace JsonSchema.Validator

theorem ofJson_schema {schema : Json} {validator : Validator}
    (made : ofJson schema = .ok validator) : validator.schema = schema := by
  unfold ofJson at made
  split at made
  · cases made
    rfl
  · cases made

theorem ofJson_of_fault {schema : Json} (wellFormed : fault schema = none) :
    ofJson schema = .ok ⟨schema, wellFormed⟩ := by
  unfold ofJson
  split
  · rfl
  · rename_i found
    cases wellFormed.symm.trans found

theorem ofJson_ok_iff (schema : Json) :
    (∃ validator, ofJson schema = .ok validator) ↔ fault schema = none := by
  constructor
  · rintro ⟨validator, made⟩
    rw [← ofJson_schema made]
    exact validator.wellFormed
  · intro wellFormed
    exact ⟨_, ofJson_of_fault wellFormed⟩

theorem validate_ok_iff (validator : Validator) (value : Json) :
    validator.validate value = .ok () ↔ (violations validator.schema value).isEmpty = true := by
  unfold validate
  cases violations validator.schema value with
  | nil => simp
  | cons first rest => simp

theorem validate_error_iff (validator : Validator) (value : Json) (found : List Violation) :
    validator.validate value = .error found ↔
      violations validator.schema value = found ∧ found ≠ [] := by
  unfold validate
  cases violations validator.schema value with
  | nil => simp [eq_comm]
  | cons first rest =>
    simp only [Except.error.injEq]
    constructor
    · rintro rfl
      exact ⟨rfl, List.cons_ne_nil first rest⟩
    · exact And.left

end JsonSchema.Validator

open JsonSchema

namespace LocalSchema

theorem read_ok {definition : String} {document : Json} (made : read definition = .ok document) :
    Json.ofText definition = .ok document := by
  unfold read at made
  split at made
  · rename_i found
    cases made
    exact found
  · cases made

theorem compile_ok {document : Json} {validator : Validator}
    (made : compile document = .ok validator) : Validator.ofJson document = .ok validator := by
  unfold compile at made
  split at made
  · rename_i found
    cases made
    exact found
  · cases made

end LocalSchema
end FramedJson
