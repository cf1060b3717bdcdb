import FramedJson.Json.Skipper
import FramedJson.Model.Mismatch

/-!
Reading values of known form straight from JSON text. Whatever comes first in the text is reported
first, be it bad JSON or a value of the wrong form. A record is an object of its fields in any
order, among others that are passed over, or the list of its fields in their order.
-/
namespace FramedJson.Model

inductive Problem
  | malformed (cause : Json.Cause)
  | mismatch (m : Mismatch)
  deriving DecidableEq

def Problem.message : Problem → String
  | .malformed cause => cause.message
  | .mismatch m => m.message

abbrev Reader (α : Type u) := List UInt8 → Except Problem (α × List UInt8)

def ofScan {α : Type u} : Except Json.Fault α → Except Problem α
  | .ok found => .ok found
  | .error fault => .error (.malformed fault.cause)

/-- Refuses the scalar, list or object in front, once it is seen to be well begun. -/
def refuse (expected : String) (bytes : List UInt8) : Except Problem (α × List UInt8) :=
  let wrong (found : Found) : Except Problem (α × List UInt8) :=
    .error (.mismatch (.type found expected))
  match bytes with
  | 110 :: rest => do
    let _ ← ofScan (Json.readWord Json.wordNull rest)
    wrong .null
  | 116 :: rest => do
    let _ ← ofScan (Json.readWord Json.wordTrue rest)
    wrong (.bool true)
  | 102 :: rest => do
    let _ ← ofScan (Json.readWord Json.wordFalse rest)
    wrong (.bool false)
  | 45 :: rest => do
    let (number, _) ← ofScan (Json.readNumber true rest)
    wrong (.ofJson (.num number))
  | 34 :: rest => do
    let (text, _) ← ofScan (Json.readString rest)
    wrong (.text text)
  | 91 :: _ => wrong .list
  | 123 :: _ => wrong .map
  | byte :: rest =>
    if Json.isDigit byte then do
      let (number, _) ← ofScan (Json.readNumber false (byte :: rest))
      wrong (.ofJson (.num number))
    else .error (.malformed .expectedValue)
  | [] => .error (.malformed .endInValue)

def stringAs (expected : String) : Reader String := fun bytes =>
  match Json.skipSpace bytes with
  | 34 :: rest => ofScan (Json.readString rest)
  | other => refuse expected other

def string : Reader String := stringAs "a string"

def checkInteger (expected : String) (low high : Int) : Number → Except Mismatch Int
  | .int value _ =>
    if low ≤ value ∧ value ≤ high then .ok value else .error (.range (.int value) expected)
  | .real value => .error (.type (.real value) expected)

def integer (expected : String) (low high : Int) : Reader Int := fun bytes =>
  let check (found : Json.Scan (Number × List UInt8)) : Except Problem (Int × List UInt8) := do
    let (number, rest) ← ofScan found
    match checkInteger expected low high number with
    | .ok value => return (value, rest)
    | .error mismatch => throw (.mismatch mismatch)
  match Json.skipSpace bytes with
  | 45 :: rest => check (Json.readNumber true rest)
  | byte :: rest =>
    if Json.isDigit byte then check (Json.readNumber false (byte :: rest))
    else refuse expected (byte :: rest)
  | [] => .error (.malformed .endInValue)

def named (names : List (String × α)) (name : String) : Except Problem α :=
  match Assoc.find? name names with
  | some value => .ok value
  | none => .error (.mismatch (.unknownName name (names.map Prod.fst)))

def unit : Reader Unit := fun bytes =>
  match Json.skipSpace bytes with
  | 110 :: rest => do return ((), ← ofScan (Json.readWord Json.wordNull rest))
  | other => refuse "unit" other

/-- A name as a string, or as the only member of an object with the value null. -/
def choice (names : List (String × α)) : Reader α := fun bytes =>
  match Json.skipSpace bytes with
  | 34 :: rest => do
    let (name, rest) ← ofScan (Json.readString rest)
    return (← named names name, rest)
  | 123 :: rest => do
    let (name, rest) ← stringAs "variant identifier" rest
    let value ← named names name
    let rest ← ofScan (Json.readColon rest)
    let (_, rest) ← unit rest
    match Json.skipSpace rest with
    | 125 :: rest => return (value, rest)
    | [] => throw (.malformed .endInObject)
    | _ => throw (.malformed .expectedValue)
  | [] => .error (.malformed .endInValue)
  | _ => .error (.malformed .expectedValue)

def itemsAfter (item : Reader α) : Nat → Bool → Reader (List α)
  | 0, _, _ => .error (.malformed .endInList)
  | budget + 1, first, bytes => do
    let (more, bytes) ← ofScan (Json.nextItem first bytes)
    if more then
      let (value, bytes) ← item bytes
      let (values, bytes) ← itemsAfter item budget false bytes
      return (value :: values, bytes)
    else return ([], bytes)

def list (item : Reader α) : Reader (List α) := fun bytes =>
  match Json.skipSpace bytes with
  | 91 :: rest => itemsAfter item (rest.length + 1) true rest
  | other => refuse "a sequence" other

structure Field (δ : Type) where
  name : String
  optional : Bool
  filled : δ → Bool
  read : δ → Reader δ

def endOfFields (bytes : List UInt8) : Except Problem (List UInt8) :=
  match Json.skipSpace bytes with
  | [] => .error (.malformed .endInList)
  | 93 :: rest => .ok rest
  | 44 :: rest =>
    match Json.skipSpace rest with
    | 93 :: _ => .error (.malformed .trailingComma)
    | _ => .error (.malformed .trailingCharacters)
  | _ => .error (.malformed .trailingCharacters)

/-- No more elements: the fields still due must be optional ones. -/
def endAt (wanted : String) (position : Nat) (due : List (Field δ)) (draft : δ) :
    Except Problem δ :=
  match due with
  | [] => .ok draft
  | field :: rest =>
    if field.optional then endAt wanted (position + 1) rest draft
    else .error (.mismatch (.length position wanted))

def byPosition (wanted : String) (position : Nat) (draft : δ) : List (Field δ) → Reader δ
  | [], bytes => do return (draft, ← endOfFields bytes)
  | field :: rest, bytes => do
    let (more, bytes) ← ofScan (Json.nextItem (position = 0) bytes)
    if more then
      let (draft, bytes) ← field.read draft bytes
      byPosition wanted (position + 1) draft rest bytes
    else return (← endAt wanted position (field :: rest) draft, bytes)

def byName (fields : List (Field δ)) : Nat → Bool → δ → Reader δ
  | 0, _, _, _ => .error (.malformed .endInObject)
  | budget + 1, first, draft, bytes => do
    let (more, bytes) ← ofScan (Json.nextName first bytes)
    if more then
      let (name, bytes) ← ofScan (Json.readString bytes)
      match fields.find? (fun field => field.name = name) with
      | some field =>
        if field.filled draft then throw (.mismatch (.duplicate name))
        let bytes ← ofScan (Json.readColon bytes)
        let (draft, bytes) ← field.read draft bytes
        byName fields budget false draft bytes
      | none =>
        let bytes ← ofScan (Json.readColon bytes)
        let bytes ← ofScan (Json.skip bytes)
        byName fields budget false draft bytes
    else return (draft, bytes)

def record (name : String) (fields : List (Field δ)) (blank : δ)
    (finish : δ → Except Mismatch α) : Reader α := fun bytes => do
  let (draft, rest) ← match Json.skipSpace bytes with
    | 91 :: rest => byPosition (recordName name fields.length) 0 blank fields rest
    | 123 :: rest => byName fields (rest.length + 1) true blank rest
    | other => refuse s!"struct {name}" other
  match finish draft with
  | .ok value => return (value, rest)
  | .error mismatch => throw (.mismatch mismatch)

def whole (reader : Reader α) (bytes : List UInt8) : Except Problem α := do
  let (value, rest) ← reader bytes
  ofScan (Json.readEnd rest)
  return value

end FramedJson.Model
