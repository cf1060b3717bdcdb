import FramedJson.Json.Parts
import FramedJson.Json.Printer
import FramedJson.Json.Reader

/-!
What the numbers of a document are read back as. Integers always come back as themselves. A double is
printed by the shortest digits that are nearest to it, but reading rounds twice, so that some doubles come
back as a neighbour.
-/
namespace FramedJson

def Json.readSigned : List UInt8 → Json.Scan (Number × List UInt8)
  | 45 :: digits => readNumber true digits
  | digits => readNumber false digits

def Number.readsBack (number : Number) : Bool :=
  match Json.readSigned (Utf8.encode number.render) with
  | .ok (found, []) => found = number
  | _ => false

/-- The number that the text of a number is read as. -/
def Number.reread (number : Number) : Number :=
  match Json.readSigned (Utf8.encode number.render) with
  | .ok (found, _) => found
  | .error _ => number

namespace Json

def ownNumberReadsBack : Json → Bool
  | .num number => number.readsBack
  | _ => true

def numbersReadBack : Json → Bool := all ownNumberReadsBack

mutual

def reread : Json → Json
  | .num number => .num number.reread
  | .arr items => .arr (rereadItems items)
  | .obj members => .obj (rereadMembers members)
  | other => other

def rereadItems : List Json → List Json
  | [] => []
  | item :: rest => reread item :: rereadItems rest

def rereadMembers : List (String × Json) → List (String × Json)
  | [] => []
  | (name, value) :: rest => (name, reread value) :: rereadMembers rest
end

end Json
end FramedJson
