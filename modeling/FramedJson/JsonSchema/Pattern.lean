/-!
The regular expressions of schemas, as far as they are modelled: a sequence of single characters and of
classes of ranges, each once or several times, with an optional anchor at either end. A match may lie
anywhere in the text. The other forms (the dot, escapes, groups, alternatives, negated classes and counted
repeats) are not modelled. Here their signs are taken for plain characters, so a schema with one of them is
outside the model.
-/
namespace FramedJson.JsonSchema

abbrev CharSet := List (Char × Char)

def CharSet.holds (set : CharSet) (c : Char) : Bool :=
  set.any fun range => range.1 ≤ c && c ≤ range.2

inductive Repeat
  | once
  | oneOrMore
  | any
  | optional
  deriving DecidableEq

structure Pattern where
  atStart : Bool
  steps : List (CharSet × Repeat)
  atEnd : Bool
  deriving DecidableEq

namespace Pattern

def readSet : List Char → CharSet × List Char
  | [] => ([], [])
  | ']' :: rest => ([], rest)
  | low :: '-' :: ']' :: rest => ([(low, low), ('-', '-')], rest)
  | low :: '-' :: high :: rest =>
    let (ranges, rest) := readSet rest
    ((low, high) :: ranges, rest)
  | c :: rest =>
    let (ranges, rest) := readSet rest
    ((c, c) :: ranges, rest)

def readRepeat : List Char → Repeat × List Char
  | '+' :: rest => (.oneOrMore, rest)
  | '*' :: rest => (.any, rest)
  | '?' :: rest => (.optional, rest)
  | rest => (.once, rest)

def readSteps : Nat → List Char → List (CharSet × Repeat) × Bool
  | 0, _ => ([], false)
  | _ + 1, [] => ([], false)
  | _ + 1, ['$'] => ([], true)
  | budget + 1, c :: rest =>
    let (set, rest) := if c = '[' then readSet rest else ([(c, c)], rest)
    let (times, rest) := readRepeat rest
    let (steps, atEnd) := readSteps budget rest
    ((set, times) :: steps, atEnd)

def ofText (text : String) : Pattern :=
  let chars := text.toList
  let (atStart, chars) := match chars with
    | '^' :: rest => (true, rest)
    | rest => (false, rest)
  let (steps, atEnd) := readSteps (chars.length + 1) chars
  ⟨atStart, steps, atEnd⟩

/-- The texts that remain when one step has taken its characters off the front. -/
def remaindersOf (set : CharSet) (times : Repeat) : List Char → List (List Char)
  | [] => match times with
    | .any | .optional => [[]]
    | .once | .oneOrMore => []
  | c :: rest =>
    let taken := if set.holds c then
        match times with
        | .once | .optional => [rest]
        | .any | .oneOrMore => remaindersOf set .any rest
      else []
    match times with
    | .any | .optional => (c :: rest) :: taken
    | .once | .oneOrMore => taken

def matchesHere (atEnd : Bool) : List (CharSet × Repeat) → List Char → Bool
  | [], chars => !atEnd || chars.isEmpty
  | (set, times) :: steps, chars => (remaindersOf set times chars).any (matchesHere atEnd steps)

def found (pattern : Pattern) : List Char → Bool
  | [] => matchesHere pattern.atEnd pattern.steps []
  | c :: rest =>
    matchesHere pattern.atEnd pattern.steps (c :: rest) ||
      (!pattern.atStart && pattern.found rest)

end Pattern
end FramedJson.JsonSchema
