import FramedJson.JsonSchema.Comparison

/-!
The keywords of a schema object, each together with the siblings that it reads, as far as schemas are
modelled. Annotations have no entry, and neither have the keywords that a sibling reads, such as `then`
and `minContains`. Some keywords that do judge have none either, since schemas with them are outside the
model: `patternProperties`, `unevaluatedProperties`, `unevaluatedItems`, `dependentSchemas` (of which only
the shape is checked), the dynamic references, and a `$ref` that is not `#/$defs/` and a name. Nothing
proved about judgements speaks of a validator that meets one of these.
-/
namespace FramedJson.JsonSchema

inductive Keyword
  | type (names : List String)
  | among (options : List Json)
  | constant (expected : Json)
  | required (names : List String)
  | properties (schemas : List (String × Json))
  | noProperties
  /-- The named members and no others. -/
  | onlyProperties (schemas : List (String × Json))
  /-- The named members, and one schema for all others. -/
  | otherProperties (schemas : List (String × Json)) (rest : Json)
  | items (skip : Nat) (schema : Json)
  | prefixItems (schemas : List Json)
  | minItems (limit : Nat)
  | maxItems (limit : Nat)
  | minProperties (limit : Nat)
  | maxProperties (limit : Nat)
  | minLength (limit : Nat)
  | maxLength (limit : Nat)
  | uniqueItems
  | contains (schema : Json) (least : Nat) (most : Option Nat)
  | minimum (limit : Number)
  | maximum (limit : Number)
  | exclusiveMinimum (limit : Number)
  | exclusiveMaximum (limit : Number)
  | multipleOf (divisor : Binary64)
  | allOf (schemas : List Json)
  | anyOf (schemas : List Json)
  | oneOf (schemas : List Json)
  | not (schema : Json)
  | conditional (test : Json) (yes no : Option Json)
  | dependentRequired (names : List (String × List String))
  | propertyNames (schema : Json)
  | reference (name : String)
  | pattern (text : String)

def strings : Json → List String
  | .arr items => items.filterMap fun
    | .str text => some text
    | _ => none
  | _ => []

def elements : Json → List Json
  | .arr items => items
  | _ => []

def fields : Json → List (String × Json)
  | .obj members => members
  | _ => []

def size : Json → Nat
  | .num n => min (n.units.toNat / Binary64.one) (2 ^ 64 - 1)
  | _ => 0

def typesOf (value : Json) : List String :=
  match value with
  | .str name => [name]
  | other => typeNames.filter fun name => name ∈ strings other

def referenceName? (text : String) : Option String :=
  let mark := "#/$defs/".toList
  let chars := text.toList
  if mark.isPrefixOf chars then some (String.ofList (chars.drop mark.length)) else none

def numberKeyword (make : Number → Keyword) : Json → Option Keyword
  | .num n => some (make n)
  | _ => none

def propertiesKeyword (siblings : List (String × Json)) (value : Json) : Option Keyword :=
  match Assoc.find? "additionalProperties" siblings with
  | some (.bool false) => none
  | some (.obj _) => none
  | _ => some (.properties (fields value))

def additionalKeyword (siblings : List (String × Json)) (value : Json) : Option Keyword :=
  let known := Assoc.find? "properties" siblings
  match value with
  | .bool false =>
    match known with
    | some schemas => some (.onlyProperties (fields schemas))
    | none => some .noProperties
  | .obj _ => some (.otherProperties (fields (known.getD (.obj []))) value)
  | _ => none

def containsKeyword (siblings : List (String × Json)) (value : Json) : Keyword :=
  let least := (Assoc.find? "minContains" siblings).map size
  let most := (Assoc.find? "maxContains" siblings).map size
  .contains value (least.getD 1) most

/-- The keyword that a member of a schema object stands for, among those modelled. -/
def Keyword.ofMember? (siblings : List (String × Json)) (name : String) (value : Json) :
    Option Keyword :=
  match name with
  | "type" => some (.type (typesOf value))
  | "enum" => some (.among (elements value))
  | "const" => some (.constant value)
  | "required" => some (.required (strings value))
  | "properties" => propertiesKeyword siblings value
  | "additionalProperties" => additionalKeyword siblings value
  | "items" => some (.items (elements ((Assoc.find? "prefixItems" siblings).getD .null)).length value)
  | "prefixItems" => some (.prefixItems (elements value))
  | "minItems" => some (.minItems (size value))
  | "maxItems" => some (.maxItems (size value))
  | "minProperties" => some (.minProperties (size value))
  | "maxProperties" => some (.maxProperties (size value))
  | "minLength" => some (.minLength (size value))
  | "maxLength" => some (.maxLength (size value))
  | "uniqueItems" => if same value (.bool true) then some .uniqueItems else none
  | "contains" => some (containsKeyword siblings value)
  | "minimum" => numberKeyword .minimum value
  | "maximum" => numberKeyword .maximum value
  | "exclusiveMinimum" => numberKeyword .exclusiveMinimum value
  | "exclusiveMaximum" => numberKeyword .exclusiveMaximum value
  | "multipleOf" => numberKeyword (fun n => .multipleOf n.toBinary64) value
  | "allOf" => some (.allOf (elements value))
  | "anyOf" => some (.anyOf (elements value))
  | "oneOf" => some (.oneOf (elements value))
  | "not" => some (.not value)
  | "if" => some (.conditional value (Assoc.find? "then" siblings) (Assoc.find? "else" siblings))
  | "dependentRequired" =>
    some (.dependentRequired ((fields value).map fun entry => (entry.1, strings entry.2)))
  | "propertyNames" => some (.propertyNames value)
  | "$ref" =>
    match value with
    | .str text => (referenceName? text).map .reference
    | _ => none
  | "pattern" =>
    match value with
    | .str text => some (.pattern text)
    | _ => none
  | _ => none

def keywords (members : List (String × Json)) : List Keyword :=
  members.filterMap fun member => Keyword.ofMember? members member.1 member.2

end FramedJson.JsonSchema
