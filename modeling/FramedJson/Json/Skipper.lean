import FramedJson.Json.Reader

/-!
Passing over a value without keeping it. Only the form is judged: numbers may have any size,
escapes may name lone surrogates, and nothing bounds the nesting.
-/
namespace FramedJson.Json

def skipDigits : List UInt8 → Scan (List UInt8)
  | [] => .error ⟨.invalidNumber, 0⟩
  | byte :: rest =>
    if isDigit byte then .ok (rest.dropWhile isDigit) else .error ⟨.invalidNumber, rest.length⟩

def skipWhole : List UInt8 → Scan (List UInt8)
  | 48 :: rest =>
    match rest with
    | next :: _ => if isDigit next then .error (.at .invalidNumber rest) else .ok rest
    | [] => .ok []
  | bytes => skipDigits bytes

def skipFraction : List UInt8 → Scan (List UInt8)
  | 46 :: rest => skipDigits rest
  | bytes => .ok bytes

def skipExponent : List UInt8 → Scan (List UInt8)
  | mark :: rest =>
    if mark = 101 ∨ mark = 69 then
      match rest with
      | 43 :: digits => skipDigits digits
      | 45 :: digits => skipDigits digits
      | digits => skipDigits digits
    else .ok (mark :: rest)
  | [] => .ok []

def skipNumber (bytes : List UInt8) : Scan (List UInt8) := do
  skipExponent (← skipFraction (← skipWhole bytes))

def skipEscape : List UInt8 → Scan (List UInt8)
  | [] => .error ⟨.endInString, 0⟩
  | 117 :: rest => do return (← readHex rest).2
  | byte :: rest =>
    if byte ∈ ([34, 92, 47, 98, 102, 110, 114, 116] : List UInt8) then .ok rest
    else .error ⟨.invalidEscape, rest.length⟩

def skipString : Nat → List UInt8 → Scan (List UInt8)
  | 0, _ => .error ⟨.endInString, 0⟩
  | _ + 1, [] => .error ⟨.endInString, 0⟩
  | budget + 1, byte :: rest =>
    if byte = 34 then .ok rest
    else if byte = 92 then do skipString budget (← skipEscape rest)
    else if byte < 32 then .error ⟨.controlCharacter, rest.length⟩
    else skipString budget rest

mutual

def skipValue : Nat → List UInt8 → Scan (List UInt8)
  | 0, _ => .error ⟨.endInValue, 0⟩
  | budget + 1, bytes =>
    match skipSpace bytes with
    | [] => .error ⟨.endInValue, 0⟩
    | 110 :: rest => readWord wordNull rest
    | 116 :: rest => readWord wordTrue rest
    | 102 :: rest => readWord wordFalse rest
    | 34 :: rest => skipString (rest.length + 1) rest
    | 45 :: rest => skipNumber rest
    | 91 :: rest => skipItems budget true rest
    | 123 :: rest => skipMembers budget true rest
    | byte :: rest =>
      if isDigit byte then skipNumber (byte :: rest) else .error ⟨.expectedValue, rest.length⟩

def skipItems : Nat → Bool → List UInt8 → Scan (List UInt8)
  | 0, _, _ => .error ⟨.endInList, 0⟩
  | budget + 1, first, bytes =>
    match skipSpace bytes with
    | [] => .error ⟨.endInList, 0⟩
    | 93 :: rest => .ok rest
    | byte :: rest =>
      if first then do skipItems budget false (← skipValue budget (byte :: rest))
      else if byte = 44 then do skipItems budget false (← skipValue budget rest)
      else .error ⟨.expectedListEnd, rest.length⟩

def skipMembers : Nat → Bool → List UInt8 → Scan (List UInt8)
  | 0, _, _ => .error ⟨.endInObject, 0⟩
  | budget + 1, first, bytes =>
    match skipSpace bytes with
    | [] => .error ⟨.endInObject, 0⟩
    | 125 :: rest => .ok rest
    | byte :: rest =>
      if first then skipMember budget (byte :: rest)
      else if byte = 44 then skipMember budget rest
      else .error ⟨.expectedObjectEnd, rest.length⟩

def skipMember : Nat → List UInt8 → Scan (List UInt8)
  | 0, _ => .error ⟨.endInObject, 0⟩
  | budget + 1, bytes =>
    match skipSpace bytes with
    | [] => .error ⟨.endInObject, 0⟩
    | 34 :: rest => do
      let rest ← skipString (rest.length + 1) rest
      let rest ← readColon rest
      skipMembers budget false (← skipValue budget rest)
    | other => .error (.at .keyNotString other)
end

def skipBudget (bytes : List UInt8) : Nat := 2 * bytes.length + 2

def skip (bytes : List UInt8) : Scan (List UInt8) := skipValue (skipBudget bytes) bytes

end FramedJson.Json
