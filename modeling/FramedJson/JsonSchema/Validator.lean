import FramedJson.JsonSchema.Keyword
import FramedJson.JsonSchema.Metaschema
import FramedJson.JsonSchema.Pattern

/-!
Judging a document by a schema. Keywords are judged in the order of the schema's members and apply
only to values of their own kind; references lead into the definitions of the whole schema. The
budget counts the schemas that are entered one inside the other.
-/
namespace FramedJson.JsonSchema

def require (condition : Bool) (violation : Violation) : List Violation :=
  if condition then [] else [violation]

/-- A whole divisor divides exactly; any other is judged by the fraction of the rounded quotient,
which must be less than 2 ^ (-52). Where that quotient is beyond the doubles, the shortest decimals
of both numbers are divided exactly. -/
def isMultiple (x divisor : Binary64) : Bool :=
  if divisor.isWhole then x.isWhole && x.magnitude % divisor.magnitude = 0
  else
    match x.div? divisor with
    | some quotient =>
      quotient.negative || quotient.magnitude % Binary64.one < 2 ^ 1022
    | none =>
      let a := x.shortest
      let b := divisor.shortest
      let shift := a.exponent - b.exponent
      (a.digits * 10 ^ shift.toNat) % (b.digits * 10 ^ (-shift).toNat) = 0

def definition? (root : Json) (name : String) : Option Json :=
  (root.get? "$defs").bind (Json.get? name)

def numberViolations (value : Json) (n : Number) : Keyword → List Violation
  | .minimum limit => require (limit.units ≤ n.units) (.belowMinimum value limit)
  | .maximum limit => require (n.units ≤ limit.units) (.aboveMaximum value limit)
  | .exclusiveMinimum limit => require (limit.units < n.units) (.notAboveMinimum value limit)
  | .exclusiveMaximum limit => require (n.units < limit.units) (.notBelowMaximum value limit)
  | .multipleOf divisor => require (isMultiple n.toBinary64 divisor) (.notMultiple value divisor)
  | _ => []

def stringViolations (value : Json) (text : String) : Keyword → List Violation
  | .minLength limit => require (limit ≤ text.length) (.tooShort value limit)
  | .maxLength limit => require (text.length ≤ limit) (.tooLong value limit)
  | .pattern pattern =>
    require ((Pattern.ofText pattern).found text.toList) (.unmatched value pattern)
  | _ => []

def missingNames (members : List (String × Json)) (names : List String) : List Violation :=
  (names.filter fun name => (Assoc.find? name members).isNone).map .missing

def itemViolations (judge : Json → Json → List Violation) (items : List Json) :
    Keyword → List Violation
  | .items skip schema => (items.drop skip).flatMap (judge schema)
  | .prefixItems schemas => (schemas.zip items).flatMap fun pair => judge pair.1 pair.2
  | .minItems limit => require (limit ≤ items.length) (.fewItems (.arr items) limit)
  | .maxItems limit => require (items.length ≤ limit) (.manyItems (.arr items) limit)
  | .uniqueItems => require (allDiffer items) (.repeated (.arr items))
  | .contains schema least most =>
    let count := (items.filter fun item => (judge schema item).isEmpty).length
    require (least ≤ count && most.all (count ≤ ·)) (.contained (.arr items))
  | _ => []

def memberViolations (judge : Json → Json → List Violation) (members : List (String × Json)) :
    Keyword → List Violation
  | .required names => missingNames members names
  | .properties schemas =>
    schemas.flatMap fun (name, schema) =>
      match Assoc.find? name members with
      | some value => judge schema value
      | none => []
  | .noProperties => members.head?.toList.map fun member => .denied member.2
  | .onlyProperties schemas =>
    let unknown := members.filter fun member => (Assoc.find? member.1 schemas).isNone
    (members.flatMap fun (name, value) =>
      match Assoc.find? name schemas with
      | some schema => judge schema value
      | none => []) ++
    require unknown.isEmpty (.unexpected (unknown.map Prod.fst))
  | .otherProperties schemas rest =>
    members.flatMap fun (name, value) => judge ((Assoc.find? name schemas).getD rest) value
  | .minProperties limit => require (limit ≤ members.length) (.fewProperties (.obj members) limit)
  | .maxProperties limit => require (members.length ≤ limit) (.manyProperties (.obj members) limit)
  | .dependentRequired dependents =>
    dependents.flatMap fun (name, names) =>
      if (Assoc.find? name members).isSome then missingNames members names else []
  | .propertyNames (.bool false) => require members.isEmpty (.denied (.obj members))
  | .propertyNames schema => members.flatMap fun member => judge schema (.str member.1)
  | _ => []

def generalViolations (root : Json) (judge : Json → Json → List Violation) (value : Json) :
    Keyword → List Violation
  | .type names => require (names.any (hasType value)) (.notOfType value names)
  | .among options => require (options.any (same value)) (.notAmong value options)
  | .constant expected => require (same value expected) (.notConstant expected)
  | .allOf schemas => schemas.flatMap fun schema => judge schema value
  | .anyOf schemas =>
    require (schemas.any fun schema => (judge schema value).isEmpty) (.noneOfAny value)
  | .oneOf schemas =>
    match (schemas.filter fun schema => (judge schema value).isEmpty).length with
    | 0 => [.noneOfOne value]
    | 1 => []
    | _ => [.manyOfOne value]
  | .not schema => require (!(judge schema value).isEmpty) (.forbidden value schema)
  | .conditional test yes no =>
    match if (judge test value).isEmpty then yes else no with
    | some schema => judge schema value
    | none => []
  | .reference name =>
    match definition? root name with
    | some schema => judge schema value
    | none => []
  | _ => []

def keywordViolations (root : Json) (judge : Json → Json → List Violation) (value : Json)
    (keyword : Keyword) : List Violation :=
  generalViolations root judge value keyword ++
    match value with
    | .num n => numberViolations value n keyword
    | .str text => stringViolations value text keyword
    | .arr items => itemViolations judge items keyword
    | .obj members => memberViolations judge members keyword
    | _ => []

/-- All violations of a schema within `root`, in order. -/
def violationsWithin (root : Json) : Nat → Json → Json → List Violation
  | 0, _, _ => []
  | budget + 1, schema, value =>
    match schema with
    | .bool false => [.denied value]
    | .obj members =>
      (keywords members).flatMap (keywordViolations root (violationsWithin root budget) value)
    | _ => []

/-- Enough for every schema whose references do not return to themselves at one value: each value
on the way down is met by every part of the schema at most once. -/
def budgetFor (schema value : Json) : Nat := (schema.size + 1) * (value.depth + 2)

def violations (schema value : Json) : List Violation :=
  violationsWithin schema (budgetFor schema value) schema value

structure Validator where
  schema : Json
  wellFormed : fault schema = none

def Validator.ofJson (schema : Json) : Except Violation Validator :=
  match h : fault schema with
  | none => .ok ⟨schema, h⟩
  | some violation => .error violation

def Validator.validate (validator : Validator) (value : Json) : Except (List Violation) Unit :=
  match violations validator.schema value with
  | [] => .ok ()
  | found => .error found

end FramedJson.JsonSchema
