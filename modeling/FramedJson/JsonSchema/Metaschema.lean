import FramedJson.JsonSchema.Comparison
import FramedJson.JsonSchema.Violation

/-!
Which documents are schemas. A schema is true, false or an object whose keywords have values of
the right shape. Keywords are judged in a fixed order, the core ones first, then those that hold
schemas, those that judge values, and annotations; the first misshapen part is reported.
-/
namespace FramedJson.JsonSchema

inductive Shape
  | text
  | flag
  | list
  | number
  | positive
  | size
  | types
  | names
  | namesByName
  | schema
  | schemas
  | schemasByName
  deriving DecidableEq

def keywordShapes : List (String × Shape) :=
  [ -- core
    ("$schema", .text), ("$ref", .text), ("$comment", .text), ("$defs", .schemasByName),
    -- schemas within schemas
    ("prefixItems", .schemas), ("items", .schema), ("contains", .schema),
    ("additionalProperties", .schema), ("properties", .schemasByName),
    ("dependentSchemas", .schemasByName), ("propertyNames", .schema), ("if", .schema),
    ("then", .schema), ("else", .schema), ("allOf", .schemas), ("anyOf", .schemas),
    ("oneOf", .schemas), ("not", .schema),
    -- judgements of values
    ("type", .types), ("enum", .list), ("multipleOf", .positive), ("maximum", .number),
    ("exclusiveMaximum", .number), ("minimum", .number), ("exclusiveMinimum", .number),
    ("maxLength", .size), ("minLength", .size), ("pattern", .text), ("maxItems", .size),
    ("minItems", .size), ("uniqueItems", .flag), ("maxContains", .size), ("minContains", .size),
    ("maxProperties", .size), ("minProperties", .size), ("required", .names),
    ("dependentRequired", .namesByName),
    -- annotations
    ("title", .text), ("description", .text), ("deprecated", .flag), ("readOnly", .flag),
    ("writeOnly", .flag), ("examples", .list), ("format", .text), ("contentEncoding", .text),
    ("contentMediaType", .text)]

def zero : Number := .int 0 (by decide)

def mistyped (value : Json) (types : List String) : Option Violation :=
  if types.any (hasType value) then none else some (.notOfType value types)

def namesFault (value : Json) : Option Violation :=
  match value with
  | .arr items =>
    (items.findSome? (mistyped · ["string"])) <|>
      (if allDiffer items then none else some (.repeated value))
  | _ => mistyped value ["array"]

def isTypeName : Json → Bool
  | .str name => name ∈ typeNames
  | _ => false

def typesFault (value : Json) : Option Violation :=
  let fits := match value with
    | .arr items => items.all isTypeName && items ≠ [] && allDiffer items
    | other => isTypeName other
  if fits then none else some (.noneOfAny value)

def sizeFault (value : Json) : Option Violation :=
  mistyped value ["integer"] <|>
    match value with
    | .num n => if n.units < 0 then some (.belowMinimum value zero) else none
    | _ => none

def positiveFault (value : Json) : Option Violation :=
  mistyped value ["number"] <|>
    match value with
    | .num n => if n.units ≤ 0 then some (.notAboveMinimum value zero) else none
    | _ => none

/-- The first fault of a value that must have the given shape, schemas inside it being judged by
`fault`. -/
def Shape.fault (fault : Json → Option Violation) (value : Json) : Shape → Option Violation
  | .text => mistyped value ["string"]
  | .flag => mistyped value ["boolean"]
  | .list => mistyped value ["array"]
  | .number => mistyped value ["number"]
  | .positive => positiveFault value
  | .size => sizeFault value
  | .types => typesFault value
  | .names => namesFault value
  | .namesByName =>
    match value with
    | .obj members => members.findSome? fun member => namesFault member.2
    | _ => mistyped value ["object"]
  | .schema => fault value
  | .schemas =>
    match value with
    | .arr [] => some (.fewItems value 1)
    | .arr items => items.findSome? fault
    | _ => mistyped value ["array"]
  | .schemasByName =>
    match value with
    | .obj members => members.findSome? fun member => fault member.2
    | _ => mistyped value ["object"]

/-- The first fault of a schema; `room` bounds how deep schemas nest. -/
def faultWithin : Nat → Json → Option Violation
  | 0, _ => none
  | room + 1, schema =>
    match schema with
    | .bool _ => none
    | .obj members =>
      keywordShapes.findSome? fun (keyword, shape) =>
        (Assoc.find? keyword members).bind fun value => shape.fault (faultWithin room) value
    | _ => some (.notOfType schema ["boolean", "object"])

def fault (schema : Json) : Option Violation := faultWithin (schema.depth + 1) schema

end FramedJson.JsonSchema
