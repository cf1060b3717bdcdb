/-!
The binary envelope around a payload: a zero byte, the schema id in four bytes with the most
significant first, then the payload to the end. A frame carries at least one payload byte; length
is judged before the leading byte.
-/
namespace FramedJson

inductive FramingError
  | tooShort (length : Nat)
  | unexpectedMagic (found : UInt8)
  deriving DecidableEq

def FramingError.origin : String :=
  "This message was not produced with a schema registry serializer"

def FramingError.message : FramingError → String
  | .tooShort length =>
    "Expecting data framing of length 6 bytes or more but total data size is " ++
      s!"{length} bytes. " ++ origin
  | .unexpectedMagic found => s!"Unexpected magic byte {found}. " ++ origin

structure Envelope where
  schemaId : UInt32
  payload : List UInt8
  deriving DecidableEq

namespace Envelope

def magic : UInt8 := 0

def idBytes (id : UInt32) : List UInt8 :=
  [UInt8.ofNat (id.toNat / 0x1000000), UInt8.ofNat (id.toNat / 0x10000 % 0x100),
   UInt8.ofNat (id.toNat / 0x100 % 0x100), UInt8.ofNat (id.toNat % 0x100)]

def idOfBytes (a b c d : UInt8) : UInt32 :=
  UInt32.ofNat (a.toNat * 0x1000000 + b.toNat * 0x10000 + c.toNat * 0x100 + d.toNat)

def headerLength : Nat := 5

def encode (envelope : Envelope) : List UInt8 :=
  magic :: (idBytes envelope.schemaId ++ envelope.payload)

def decode : List UInt8 → Except FramingError Envelope
  | lead :: a :: b :: c :: d :: first :: rest =>
    if lead = magic then .ok ⟨idOfBytes a b c d, first :: rest⟩
    else .error (.unexpectedMagic lead)
  | data => .error (.tooShort data.length)

def behind? (n : Nat) (data : List UInt8) : Option (List UInt8) :=
  if n ≤ data.length then some (data.drop n) else none

/-- Decoding by positions after one test of the length. It comes to nothing where it would read at a
position that the data does not have. -/
def decodeAt? (data : List UInt8) : Option (Except FramingError Envelope) := do
  if data.length ≤ headerLength then return .error (.tooShort data.length)
  let lead ← data[0]?
  if lead ≠ magic then return .error (.unexpectedMagic lead)
  let id := idOfBytes (← data[1]?) (← data[2]?) (← data[3]?) (← data[4]?)
  return .ok ⟨id, ← behind? headerLength data⟩

end Envelope
end FramedJson
