import FramedJson.Assoc
import FramedJson.Sorting
import FramedJson.Binary64.Basic

/-!
JSON documents. Objects keep the order of their members. A number is an integer of 64 bits, signed
or unsigned, or a finite double; no integer is also a double, and `-0` is a double.
-/
namespace FramedJson

inductive Number
  | int (value : Int) (inRange : -2 ^ 63 ≤ value ∧ value < 2 ^ 64)
  | real (value : Binary64)
  deriving DecidableEq

inductive Json
  | null
  | bool (value : Bool)
  | num (value : Number)
  | str (value : String)
  | arr (items : List Json)
  | obj (members : List (String × Json))

namespace Number

def ofInt? (value : Int) : Option Number :=
  if h : -2 ^ 63 ≤ value ∧ value < 2 ^ 64 then some (.int value h) else none

/-- The exact value in units of 2 ^ (-1074). -/
def units : Number → Int
  | .int value _ => value * Binary64.one
  | .real value => value.units

def isWhole : Number → Bool
  | .int _ _ => true
  | .real value => value.isWhole

def toBinary64 : Number → Binary64
  | .int value _ => .ofInt value
  | .real value => value

end Number

namespace Json

def uint32 (n : UInt32) : Json :=
  .num (.int n.toNat (by have := n.toNat_lt; omega))

def get? (name : String) : Json → Option Json
  | .obj members => Assoc.find? name members
  | _ => none

/-- An object from its members in order of text; a repeated name keeps its first place and takes
its last value. -/
def object (members : List (String × Json)) : Json := .obj (Assoc.ofWrites members)

mutual

/-- How many lists and objects lie around the innermost value. -/
def depth : Json → Nat
  | .arr items => depthOfItems items + 1
  | .obj members => depthOfMembers members + 1
  | _ => 0

def depthOfItems : List Json → Nat
  | [] => 0
  | item :: rest => max (depth item) (depthOfItems rest)

def depthOfMembers : List (String × Json) → Nat
  | [] => 0
  | (_, value) :: rest => max (depth value) (depthOfMembers rest)
end

mutual

def size : Json → Nat
  | .arr items => sizeOfItems items + 1
  | .obj members => sizeOfMembers members + 1
  | _ => 1

def sizeOfItems : List Json → Nat
  | [] => 0
  | item :: rest => size item + sizeOfItems rest

def sizeOfMembers : List (String × Json) → Nat
  | [] => 0
  | (_, value) :: rest => size value + sizeOfMembers rest
end

mutual

def sortKeys : Json → Json
  | .arr items => .arr (sortItems items)
  | .obj members =>
    .obj (Sorting.sort (fun a b => decide (a.1 ≤ b.1)) (sortMembers members))
  | other => other

def sortItems : List Json → List Json
  | [] => []
  | item :: rest => sortKeys item :: sortItems rest

def sortMembers : List (String × Json) → List (String × Json)
  | [] => []
  | (name, value) :: rest => (name, sortKeys value) :: sortMembers rest
end

end Json
end FramedJson
