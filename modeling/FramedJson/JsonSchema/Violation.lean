import FramedJson.Json.Equality
import FramedJson.Json.Printer

namespace FramedJson.JsonSchema

inductive Violation
  | denied (value : Json)
  /-- The names are in alphabetical order. -/
  | notOfType (value : Json) (types : List String)
  | notAmong (value : Json) (options : List Json)
  | notConstant (expected : Json)
  | missing (name : String)
  | unexpected (names : List String)
  | fewItems (value : Json) (limit : Nat)
  | manyItems (value : Json) (limit : Nat)
  | fewProperties (value : Json) (limit : Nat)
  | manyProperties (value : Json) (limit : Nat)
  | tooShort (value : Json) (limit : Nat)
  | tooLong (value : Json) (limit : Nat)
  | repeated (value : Json)
  | contained (value : Json)
  | belowMinimum (value : Json) (limit : Number)
  | aboveMaximum (value : Json) (limit : Number)
  | notAboveMinimum (value : Json) (limit : Number)
  | notBelowMaximum (value : Json) (limit : Number)
  | notMultiple (value : Json) (divisor : Binary64)
  | noneOfAny (value : Json)
  | noneOfOne (value : Json)
  | manyOfOne (value : Json)
  | forbidden (value schema : Json)
  | unmatched (value : Json) (pattern : String)
  deriving DecidableEq

def commaSeparated (texts : List String) : String := String.intercalate ", " texts

def counted (count : Nat) (one many : String) : String :=
  s!"{count} " ++ if count = 1 then one else many

def typeList (types : List String) : String :=
  (if types.length = 1 then "type " else "types ") ++
    commaSeparated (types.map fun name => "\"" ++ name ++ "\"")

def unexpectedList (names : List String) : String :=
  commaSeparated (names.map fun name => "'" ++ name ++ "'") ++
    if names.length = 1 then " was unexpected" else " were unexpected"

def divisorText (divisor : Binary64) : String :=
  String.ofList (divisor.render Binary64.plainStyle)

def Violation.message : Violation → String
  | .denied value => s!"False schema does not allow {value.compact}"
  | .notOfType value types => s!"{value.compact} is not of {typeList types}"
  | .notAmong value options => s!"{value.compact} is not one of {(Json.arr options).compact}"
  | .notConstant expected => s!"{expected.compact} was expected"
  | .missing name => s!"{(Json.str name).compact} is a required property"
  | .unexpected names => s!"Additional properties are not allowed ({unexpectedList names})"
  | .fewItems value limit => s!"{value.compact} has less than " ++ counted limit "item" "items"
  | .manyItems value limit => s!"{value.compact} has more than " ++ counted limit "item" "items"
  | .fewProperties value limit =>
    s!"{value.compact} has less than " ++ counted limit "property" "properties"
  | .manyProperties value limit =>
    s!"{value.compact} has more than " ++ counted limit "property" "properties"
  | .tooShort value limit =>
    s!"{value.compact} is shorter than " ++ counted limit "character" "characters"
  | .tooLong value limit =>
    s!"{value.compact} is longer than " ++ counted limit "character" "characters"
  | .repeated value => s!"{value.compact} has non-unique elements"
  | .contained value => s!"None of {value.compact} are valid under the given schema"
  | .belowMinimum value limit =>
    s!"{value.compact} is less than the minimum of {(Json.num limit).compact}"
  | .aboveMaximum value limit =>
    s!"{value.compact} is greater than the maximum of {(Json.num limit).compact}"
  | .notAboveMinimum value limit =>
    s!"{value.compact} is less than or equal to the minimum of {(Json.num limit).compact}"
  | .notBelowMaximum value limit =>
    s!"{value.compact} is greater than or equal to the maximum of {(Json.num limit).compact}"
  | .notMultiple value divisor =>
    s!"{value.compact} is not a multiple of {divisorText divisor}"
  | .noneOfAny value =>
    s!"{value.compact} is not valid under any of the schemas listed in the 'anyOf' keyword"
  | .noneOfOne value =>
    s!"{value.compact} is not valid under any of the schemas listed in the 'oneOf' keyword"
  | .manyOfOne value =>
    s!"{value.compact} is valid under more than one of the schemas listed in the 'oneOf' keyword"
  | .forbidden value schema => s!"{schema.compact} is not allowed for {value.compact}"
  | .unmatched value pattern => s!"{value.compact} does not match \"{pattern}\""

def report (violations : List Violation) : String :=
  commaSeparated (violations.map Violation.message)

end FramedJson.JsonSchema
