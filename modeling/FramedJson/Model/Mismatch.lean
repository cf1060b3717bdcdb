import FramedJson.Json.Printer
import FramedJson.Json.Fault
import FramedJson.Text.Quoted

namespace FramedJson.Model

inductive Found
  | null
  | bool (value : Bool)
  | int (value : Int)
  | real (value : Binary64)
  | text (value : String)
  | list
  | map
  deriving DecidableEq

def Found.ofJson : Json → Found
  | .null => .null
  | .bool value => .bool value
  | .num (.int value _) => .int value
  | .num (.real value) => .real value
  | .str value => .text value
  | .arr _ => .list
  | .obj _ => .map

def Found.message : Found → String
  | .null => "null"
  | .bool value => s!"boolean `{value}`"
  | .int value => s!"integer `{value}`"
  | .real value => s!"floating point `{String.ofList (value.render Binary64.jsonStyle)}`"
  | .text value => s!"string {Quoted.encode value}"
  | .list => "sequence"
  | .map => "map"

inductive Mismatch
  | type (found : Found) (expected : String)
  | range (found : Found) (expected : String)
  | length (found : Nat) (expected : String)
  | missing (field : String)
  | duplicate (field : String)
  | unknownName (name : String) (known : List String)
  deriving DecidableEq

def alternatives (names : List String) : String :=
  match names.map fun name => "`" ++ name ++ "`" with
  | [only] => only
  | [one, other] => s!"{one} or {other}"
  | many => "one of " ++ String.intercalate ", " many

def Mismatch.message : Mismatch → String
  | .type found expected => s!"invalid type: {found.message}, expected {expected}"
  | .range found expected => s!"invalid value: {found.message}, expected {expected}"
  | .length found expected => s!"invalid length {found}, expected {expected}"
  | .missing field => s!"missing field `{field}`"
  | .duplicate field => s!"duplicate field `{field}`"
  | .unknownName name known => s!"unknown variant `{name}`, expected {alternatives known}"

def recordName (name : String) (fields : Nat) : String :=
  let unit := if fields = 1 then "element" else "elements"
  s!"struct {name} with {fields} {unit}"

def need {α : Type u} (field : String) : Option α → Except Mismatch α
  | some value => .ok value
  | none => .error (.missing field)

end FramedJson.Model
