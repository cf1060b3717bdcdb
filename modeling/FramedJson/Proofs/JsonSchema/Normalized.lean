import FramedJson.Proofs.JsonSchema.SortedJudgement
import FramedJson.Proofs.Registry.Catalog
import FramedJson.Proofs.RoundTrip

/-!
The canonical text of a schema, which a registry stores, is a schema again. It accepts what the schema
accepts, but for values that meet a constant whose names are out of order: that constant is sorted with
the rest of the schema, and the sorted one accepts other values.
-/
namespace FramedJson.JsonSchema

namespace Validator

variable {schema : Json} {validator sorted : Validator}

theorem validate_sorted (made : ofJson schema = .ok validator)
    (made' : ofJson schema.sortKeys = .ok sorted) {value : Json} (untouched : Untouched schema value) :
    sorted.validate value = .ok () ↔ validator.validate value = .ok () := by
  rw [validate_ok_iff, validate_ok_iff, ofJson_schema made, ofJson_schema made',
    violations_sorted untouched]

end Validator

section Constants

def onlyValue (constant : Json) : Json := .obj [("const", constant)]

theorem fault_onlyValue (constant : Json) : fault (onlyValue constant) = none := by
  have unnamed : ∀ entry ∈ keywordShapes, "const" ≠ entry.1 := by decide
  simp only [fault, onlyValue, faultWithin, List.findSome?_eq_none_iff]
  intro entry member
  rw [Assoc.find?, if_neg (unnamed entry member)]
  rfl

theorem keywordViolations_constant (root : Json) (judge : Json → Json → List Violation)
    (constant value : Json) :
    (keywordViolations root judge value (.constant constant)).isEmpty = same value constant := by
  unfold keywordViolations
  rw [isEmpty_append, generalViolations, isEmpty_require]
  cases value <;> exact Bool.and_true _

theorem violations_onlyValue (constant value : Json) :
    (violations (onlyValue constant) value).isEmpty = same value constant := by
  have budget : budgetFor (onlyValue constant) value =
      ((onlyValue constant).size + 1) * (value.depth + 1) + (onlyValue constant).size + 1 := by
    rw [budgetFor, Nat.mul_succ, Nat.add_assoc]
  have found : keywords [("const", constant)] = [.constant constant] := rfl
  rw [violations, budget, onlyValue, violationsWithin, found, isEmpty_flatMap, List.all_cons,
    List.all_nil, Bool.and_true]
  exact keywordViolations_constant _ _ constant value

end Constants

end JsonSchema

open JsonSchema

namespace LocalSchema

theorem canonical_compiles {definition : String} {document : Json} {validator : Validator}
    (exact : ReadsBack definition) (made : read definition = .ok document)
    (compiled : compile document = .ok validator) :
    ∃ sorted, read (canonicalize definition) = .ok document.sortKeys ∧
      compile document.sortKeys = .ok sorted ∧
      Validator.ofJson document.sortKeys = .ok sorted := by
  have again := ofText_canonicalize exact (read_ok made)
  have wellFormed : fault document = none := by
    rw [← Validator.ofJson_ok_iff]
    exact ⟨validator, compile_ok compiled⟩
  have sorted := Validator.ofJson_of_fault ((fault_sortKeys document).mpr wellFormed)
  refine ⟨_, ?_, ?_, sorted⟩
  · rw [read, again]
  · rw [compile, sorted]

end LocalSchema

/-- A schema is one with its names sorted or as it is, and sorted it accepts the same values but for those
that meet a constant out of order. There are none if all constants are sorted; and a constant that is not
is such a value. So the text that a registry is given in canonical form makes a decoder, which accepts what
the encoder accepts, as long as the numbers of the text are read back from print. -/
theorem normalized_accepts_alike :
    (∀ schema : Json,
      ((∃ sorted, Validator.ofJson schema.sortKeys = .ok sorted) ↔
        ∃ validator, Validator.ofJson schema = .ok validator) ∧
      ∀ validator sorted, Validator.ofJson schema = .ok validator →
        Validator.ofJson schema.sortKeys = .ok sorted →
        ∀ value, Untouched schema value →
          (sorted.validate value = .ok () ↔ validator.validate value = .ok ())) ∧
    (∀ schema : Json, schema.all ownConstantsSorted → ∀ value, Untouched schema value) ∧
    (∀ constant : Json, ∃ validator sorted,
      Validator.ofJson (onlyValue constant) = .ok validator ∧
      Validator.ofJson (onlyValue constant).sortKeys = .ok sorted ∧
      validator.validate constant = .ok () ∧
      (sorted.validate constant = .ok () ↔ constant.sortKeys = constant)) ∧
    ∀ {α β : Type} (definition : String) (options : Options) (references : List SchemaReference)
      (toDocument : α → Context → Except CodecError Json) (encoder : Encoder α)
      (ofDocument : Json → Option Context → Except CodecError β),
      Encoder.build definition options references toDocument = .ok encoder →
      ReadsBack definition →
      (∃ decoder, Decoder.build (canonicalize definition) ofDocument = .ok decoder ∧
        ∀ value, Untouched encoder.validator.schema value →
          (decoder.validator.validate value = .ok () ↔
            encoder.validator.validate value = .ok ())) ∧
      ∀ (catalog : Catalog) (subject : String),
        catalog.held? subject (encoder.schema.stored true).fingerprint = none →
        ∃ entry, entry.schema.definition = canonicalize definition ∧
          (catalog.register subject encoder.schema true).1.versionsOf subject =
            catalog.versionsOf subject ++ [entry] := by
  have schemas : ∀ schema : Json, (∃ sorted, Validator.ofJson schema.sortKeys = .ok sorted) ↔
      ∃ validator, Validator.ofJson schema = .ok validator := by
    intro schema
    rw [Validator.ofJson_ok_iff, Validator.ofJson_ok_iff, fault_sortKeys]
  refine ⟨?_, ?_, ?_, ?_⟩
  · intro schema
    exact ⟨schemas schema, fun _ _ made made' _ => Validator.validate_sorted made made'⟩
  · exact fun _ passed => untouched_of_sorted passed
  · intro constant
    refine ⟨_, _, Validator.ofJson_of_fault (fault_onlyValue constant),
      Validator.ofJson_of_fault (fault_onlyValue constant.sortKeys), ?_, ?_⟩
    · rw [Validator.validate_ok_iff, violations_onlyValue]
      exact same_self constant
    · rw [Validator.validate_ok_iff, violations_onlyValue]
      exact same_sortKeys_iff constant
  · intro α β definition options references toDocument encoder ofDocument built readsBack
    obtain ⟨document, validator, recordName, read, compiled, rfl⟩ := Encoder.build_ok built
    obtain ⟨sorted, again, compiled', made'⟩ := LocalSchema.canonical_compiles readsBack read compiled
    have made := LocalSchema.compile_ok compiled
    refine ⟨⟨⟨sorted, ofDocument⟩, Decoder.build_of_read again compiled' ofDocument, ?_⟩, ?_⟩
    · intro value untouched
      have own : validator.schema = document := Validator.ofJson_schema made
      rw [own] at untouched
      exact Validator.validate_sorted made made' untouched
    · intro catalog subject absent
      refine ⟨catalog.newVersion subject ((⟨definition, .json, references⟩ : Schema).stored true), rfl,
        ?_⟩
      rw [Catalog.register_new catalog subject absent, Catalog.versionsOf_put, if_pos rfl]

def documents (definition : String) : Except CodecError (Encoder Json) :=
  Encoder.build definition .default [] fun document _ => .ok document

def listedText : String :=
  "\x7b\"title\":\"T\",\"required\":[\"b\"],\"enum\":[\x7b\"a\":[],\"b\":1\x7d,null]\x7d"

theorem normalized_accepts_alike_listed :
    canonicalize listedText ≠ listedText ∧
    ∃ (encoder : Encoder Json) (decoder : Decoder Json), documents listedText = .ok encoder ∧
      Decoder.build (canonicalize listedText) (fun document _ => .ok document) = .ok decoder ∧
      ∀ value, decoder.validator.validate value = .ok () ↔
        encoder.validator.validate value = .ok () := by
  refine ⟨by decide +kernel, ?_⟩
  have sorted : (documents listedText).toOption.map (fun encoder =>
      encoder.validator.schema.all ownConstantsSorted) = some true := by decide +kernel
  obtain ⟨encoder, made, sorted⟩ := Option.map_eq_some_iff.mp sorted
  have built := Outcome.toOption_some made
  have exact : ReadsBack listedText := by
    refine fun document read => Json.numbersReadBack_of_noReals ?_
    have whole : (Json.ofText listedText).toOption.map Json.noReals = some true := by decide +kernel
    rw [read] at whole
    exact Option.some.inj whole
  obtain ⟨_, untouched, _, stored⟩ := normalized_accepts_alike
  obtain ⟨⟨decoder, made', alike⟩, _⟩ := stored listedText .default [] _ encoder
    (fun document _ => .ok document) built exact
  exact ⟨encoder, decoder, built, made', fun value => alike value (untouched _ sorted value)⟩

def swapped : Json :=
  .obj [("b", .num (.int 1 (by decide))), ("a", .num (.int 2 (by decide)))]

def roundedText : String := "\x7b\"title\":\"T\",\"const\":6e84\x7d"

def acceptsText (definition value : String) : Option Bool := do
  let document ← (LocalSchema.read definition).toOption
  let validator ← (LocalSchema.compile document).toOption
  let value ← (Json.ofText value).toOption
  return (validator.validate value).toOption.isSome

/-- Sorting a schema can change what it accepts, and so can printing it. -/
theorem normalized_constants_differ :
    (¬ ∀ (schema value : Json) (validator sorted : Validator),
      Validator.ofJson schema = .ok validator → Validator.ofJson schema.sortKeys = .ok sorted →
      (sorted.validate value = .ok () ↔ validator.validate value = .ok ())) ∧
    acceptsText roundedText "6e84" = some true ∧
    acceptsText (canonicalize roundedText) "6e84" = some false := by
  refine ⟨?_, by decide +kernel, by decide +kernel⟩
  intro alike
  have agree := alike (onlyValue swapped) swapped _ _
    (Validator.ofJson_of_fault (fault_onlyValue swapped))
    (Validator.ofJson_of_fault (fault_onlyValue swapped.sortKeys))
  rw [Validator.validate_ok_iff, Validator.validate_ok_iff] at agree
  simp only [violations_onlyValue] at agree
  have differ : same swapped swapped.sortKeys = false := by decide +kernel
  rw [agree.mpr (same_self swapped)] at differ
  cases differ

end FramedJson
