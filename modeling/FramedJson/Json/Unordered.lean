import FramedJson.Json.Reader

/-!
Documents as maps of members: the same when they differ in no more than the order in which their
objects list their members. A double is the same as no other double and as no integer.
-/
namespace FramedJson

namespace Json

mutual

/-- Whether the documents are the same up to the order of members, at every depth. A name is taken to
stand at most once in an object. -/
def sameUnordered : Json → Json → Bool
  | .null, .null => true
  | .bool a, .bool b => a = b
  | .num a, .num b => a = b
  | .str a, .str b => a = b
  | .arr items, .arr others => sameItemsUnordered items others
  | .obj members, .obj others =>
    members.length = others.length && sameMembersUnordered members others
  | _, _ => false

def sameItemsUnordered : List Json → List Json → Bool
  | [], [] => true
  | item :: rest, other :: others => sameUnordered item other && sameItemsUnordered rest others
  | _, _ => false

def sameMembersUnordered : List (String × Json) → List (String × Json) → Bool
  | [], _ => true
  | (name, value) :: rest, others =>
    (match Assoc.find? name others with
      | some other => sameUnordered value other
      | none => false) && sameMembersUnordered rest others
end

end Json

/-- Two definitions of the same document up to the order of members, or twice one text that holds no
document. -/
def equivalent (definition other : String) : Bool :=
  match Json.ofText definition, Json.ofText other with
  | .ok document, .ok document' => document.sameUnordered document'
  | .error _, .error _ => definition = other
  | _, _ => false

end FramedJson
