import FramedJson.Json.Numeral
import FramedJson.Text.Utf8
import FramedJson.Text.Hexadecimal

/-!
Reading JSON text. Every reader takes the bytes in front of it and returns a value and the bytes
behind it. A string is judged as UTF-8 only when its end is found. Lists and objects nest at most
127 deep. The budget counts calls in a chain; each byte takes at most two.
-/
namespace FramedJson.Json

def isSpace (byte : UInt8) : Bool := byte = 32 || byte = 9 || byte = 10 || byte = 13

def skipSpace (bytes : List UInt8) : List UInt8 := bytes.dropWhile isSpace

def readWord : List UInt8 → List UInt8 → Scan (List UInt8)
  | [], bytes => .ok bytes
  | _ :: _, [] => .error ⟨.endInValue, 0⟩
  | expected :: word, byte :: rest =>
    if byte = expected then readWord word rest else .error ⟨.expectedWord, rest.length⟩

def wordNull : List UInt8 := [117, 108, 108]
def wordTrue : List UInt8 := [114, 117, 101]
def wordFalse : List UInt8 := [97, 108, 115, 101]

def readHex : List UInt8 → Scan (Nat × List UInt8)
  | a :: b :: c :: d :: rest =>
    match Hexadecimal.value? a.toNat, Hexadecimal.value? b.toNat, Hexadecimal.value? c.toNat,
      Hexadecimal.value? d.toNat with
    | some a, some b, some c, some d => .ok (((a * 16 + b) * 16 + c) * 16 + d, rest)
    | _, _, _, _ => .error ⟨.invalidEscape, rest.length⟩
  | _ => .error ⟨.endInString, 0⟩

def readTrail (lead : Nat) : List UInt8 → Scan (Char × List UInt8)
  | [] => .error ⟨.endInString, 0⟩
  | 92 :: [] => .error ⟨.endInString, 0⟩
  | 92 :: 117 :: rest => do
    let (trail, rest) ← readHex rest
    if 0xDC00 ≤ trail ∧ trail ≤ 0xDFFF then
      return (Char.ofNat (0x10000 + (lead - 0xD800) * 0x400 + (trail - 0xDC00)), rest)
    else throw ⟨.loneSurrogate, rest.length⟩
  | 92 :: _ :: rest => .error ⟨.unpairedEscape, rest.length⟩
  | _ :: rest => .error ⟨.unpairedEscape, rest.length⟩

def readEscape : List UInt8 → Scan (Char × List UInt8)
  | [] => .error ⟨.endInString, 0⟩
  | 34 :: rest => .ok ('"', rest)
  | 92 :: rest => .ok ('\\', rest)
  | 47 :: rest => .ok ('/', rest)
  | 98 :: rest => .ok (Char.ofNat 8, rest)
  | 102 :: rest => .ok (Char.ofNat 12, rest)
  | 110 :: rest => .ok ('\n', rest)
  | 114 :: rest => .ok ('\r', rest)
  | 116 :: rest => .ok ('\t', rest)
  | 117 :: rest => do
    let (code, rest) ← readHex rest
    if 0xDC00 ≤ code ∧ code ≤ 0xDFFF then throw ⟨.loneSurrogate, rest.length⟩
    else if 0xD800 ≤ code ∧ code ≤ 0xDBFF then readTrail code rest
    else return (Char.ofNat code, rest)
  | _ :: rest => .error ⟨.invalidEscape, rest.length⟩

/-- The characters up to the closing quote. `spoiled` is the first place where the bytes were no
UTF-8, if there was one. -/
def readChars : Nat → Option Nat → List UInt8 → Scan (List Char × List UInt8)
  | 0, _, _ => .error ⟨.endInString, 0⟩
  | _ + 1, _, [] => .error ⟨.endInString, 0⟩
  | budget + 1, spoiled, byte :: rest =>
    if byte = 34 then
      match spoiled with
      | none => .ok ([], rest)
      | some left => .error ⟨.invalidUnicode, left⟩
    else if byte = 92 then do
      let (c, rest) ← readEscape rest
      let (chars, rest) ← readChars budget spoiled rest
      return (c :: chars, rest)
    else if byte < 32 then .error ⟨.controlCharacter, rest.length⟩
    else
      match Utf8.decodeChar? (byte :: rest) with
      | some (c, rest) => do
        let (chars, rest) ← readChars budget spoiled rest
        return (c :: chars, rest)
      | none => readChars budget (some (spoiled.getD rest.length)) rest

def readString (bytes : List UInt8) : Scan (String × List UInt8) := do
  let (chars, rest) ← readChars (bytes.length + 1) none bytes
  return (String.ofList chars, rest)

def readColon (bytes : List UInt8) : Scan (List UInt8) :=
  match skipSpace bytes with
  | [] => .error ⟨.endInObject, 0⟩
  | 58 :: rest => .ok rest
  | other => .error (.at .expectedColon other)

/-- Moves to the next element of a list, if there is one; `first` before the first element. -/
def nextItem (first : Bool) (bytes : List UInt8) : Scan (Bool × List UInt8) :=
  match skipSpace bytes with
  | [] => .error ⟨.endInList, 0⟩
  | 93 :: rest => .ok (false, rest)
  | byte :: rest =>
    if first then .ok (true, byte :: rest)
    else if byte = 44 then
      match skipSpace rest with
      | [] => .error ⟨.endInValue, 0⟩
      | 93 :: after => .error ⟨.trailingComma, after.length⟩
      | other => .ok (true, other)
    else .error ⟨.expectedListEnd, rest.length⟩

def nextName (first : Bool) (bytes : List UInt8) : Scan (Bool × List UInt8) :=
  match skipSpace bytes with
  | [] => .error ⟨.endInObject, 0⟩
  | 125 :: rest => .ok (false, rest)
  | byte :: rest =>
    if first then
      if byte = 34 then .ok (true, rest) else .error ⟨.keyNotString, rest.length⟩
    else if byte = 44 then
      match skipSpace rest with
      | [] => .error ⟨.endInValue, 0⟩
      | 34 :: after => .ok (true, after)
      | 125 :: after => .error ⟨.trailingComma, after.length⟩
      | other => .error (.at .keyNotString other)
    else .error ⟨.expectedObjectEnd, rest.length⟩

mutual

/-- A value; `room` more lists or objects may open inside one another. -/
def readValue : Nat → Nat → List UInt8 → Scan (Json × List UInt8)
  | 0, _, _ => .error ⟨.endInValue, 0⟩
  | budget + 1, room, bytes =>
    match skipSpace bytes with
    | [] => .error ⟨.endInValue, 0⟩
    | 110 :: rest => do return (.null, ← readWord wordNull rest)
    | 116 :: rest => do return (.bool true, ← readWord wordTrue rest)
    | 102 :: rest => do return (.bool false, ← readWord wordFalse rest)
    | 34 :: rest => do
      let (text, rest) ← readString rest
      return (.str text, rest)
    | 45 :: rest => do
      let (number, rest) ← readNumber true rest
      return (.num number, rest)
    | 91 :: rest =>
      match room with
      | 0 => .error ⟨.tooDeep, rest.length⟩
      | room + 1 => do
        let (items, rest) ← readItems budget room true rest
        return (.arr items, rest)
    | 123 :: rest =>
      match room with
      | 0 => .error ⟨.tooDeep, rest.length⟩
      | room + 1 => do
        let (members, rest) ← readMembers budget room true rest
        return (.object members, rest)
    | byte :: rest =>
      if isDigit byte then do
        let (number, rest) ← readNumber false (byte :: rest)
        return (.num number, rest)
      else .error ⟨.expectedValue, rest.length⟩

def readItems : Nat → Nat → Bool → List UInt8 → Scan (List Json × List UInt8)
  | 0, _, _, _ => .error ⟨.endInList, 0⟩
  | budget + 1, room, first, bytes => do
    let (more, bytes) ← nextItem first bytes
    if more then
      let (item, bytes) ← readValue budget room bytes
      let (items, bytes) ← readItems budget room false bytes
      return (item :: items, bytes)
    else return ([], bytes)

def readMembers : Nat → Nat → Bool → List UInt8 → Scan (List (String × Json) × List UInt8)
  | 0, _, _, _ => .error ⟨.endInObject, 0⟩
  | budget + 1, room, first, bytes => do
    let (more, bytes) ← nextName first bytes
    if more then
      let (name, bytes) ← readString bytes
      let bytes ← readColon bytes
      let (value, bytes) ← readValue budget room bytes
      let (members, bytes) ← readMembers budget room false bytes
      return ((name, value) :: members, bytes)
    else return ([], bytes)
end

def maxDepth : Nat := 127

/-- More calls than any chain over a text of this length makes. -/
def budgetFor (bytes : List UInt8) : Nat := 2 * bytes.length + 2

def readEnd (bytes : List UInt8) : Scan Unit :=
  match skipSpace bytes with
  | [] => .ok ()
  | other => .error (.at .trailingCharacters other)

def readDocument (bytes : List UInt8) : Scan Json := do
  let (value, rest) ← readValue (budgetFor bytes) maxDepth bytes
  readEnd rest
  return value

def ofBytes (bytes : List UInt8) : Except SyntaxError Json :=
  match readDocument bytes with
  | .ok value => .ok value
  | .error fault => .error (fault.locate bytes)

def ofText (text : String) : Except SyntaxError Json := ofBytes (Utf8.encodeString text)

end FramedJson.Json
