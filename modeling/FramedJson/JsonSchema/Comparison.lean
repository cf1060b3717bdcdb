import FramedJson.Json.Basic

/-!
Types and equality of documents as schemas see them. Numbers are equal when their values are;
objects are compared member by member in their order, so the order of members matters.
-/
namespace FramedJson.JsonSchema

mutual

def same : Json → Json → Bool
  | .null, .null => true
  | .bool a, .bool b => a = b
  | .num a, .num b => a.units = b.units
  | .str a, .str b => a = b
  | .arr as, .arr bs => sameItems as bs
  | .obj as, .obj bs => sameMembers as bs
  | _, _ => false

def sameItems : List Json → List Json → Bool
  | [], [] => true
  | a :: as, b :: bs => same a b && sameItems as bs
  | _, _ => false

def sameMembers : List (String × Json) → List (String × Json) → Bool
  | [], [] => true
  | (m, a) :: as, (n, b) :: bs => m = n && same a b && sameMembers as bs
  | _, _ => false
end

def allDiffer : List Json → Bool
  | [] => true
  | item :: rest => !rest.any (same item) && allDiffer rest

def typeNames : List String :=
  ["array", "boolean", "integer", "null", "number", "object", "string"]

/-- A number is an integer when it has no fraction, however it is written. -/
def hasType (value : Json) (type : String) : Bool :=
  match value with
  | .null => type = "null"
  | .bool _ => type = "boolean"
  | .num n => type = "number" || (type = "integer" && n.isWhole)
  | .str _ => type = "string"
  | .arr _ => type = "array"
  | .obj _ => type = "object"

end FramedJson.JsonSchema
