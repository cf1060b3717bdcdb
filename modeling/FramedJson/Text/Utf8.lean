namespace FramedJson.Utf8

def encode (chars : List Char) : List UInt8 := chars.flatMap String.utf8EncodeChar

def encodeString (text : String) : List UInt8 := encode text.toList

def tail? (byte : UInt8) : Option Nat :=
  if 0x80 ≤ byte.toNat ∧ byte.toNat ≤ 0xBF then some (byte.toNat - 0x80) else none

/-- The scalar value `code`, if it takes at least `least` to need this many bytes. -/
def scalar? (least code : Nat) : Option Char :=
  if least ≤ code ∧ code.isValidChar then some (Char.ofNat code) else none

def decodeChar? : List UInt8 → Option (Char × List UInt8)
  | [] => none
  | first :: rest =>
    let lead := first.toNat
    if lead < 0x80 then some (Char.ofNat lead, rest)
    else if lead < 0xC0 then none
    else if lead < 0xE0 then
      match rest with
      | a :: rest => do
        let low ← tail? a
        let c ← scalar? 0x80 ((lead - 0xC0) * 0x40 + low)
        return (c, rest)
      | _ => none
    else if lead < 0xF0 then
      match rest with
      | a :: b :: rest => do
        let high ← tail? a
        let low ← tail? b
        let c ← scalar? 0x800 ((lead - 0xE0) * 0x1000 + high * 0x40 + low)
        return (c, rest)
      | _ => none
    else if lead < 0xF8 then
      match rest with
      | a :: b :: c :: rest => do
        let high ← tail? a
        let middle ← tail? b
        let low ← tail? c
        let c ← scalar? 0x10000 ((lead - 0xF0) * 0x40000 + high * 0x1000 + middle * 0x40 + low)
        return (c, rest)
      | _ => none
    else none

end FramedJson.Utf8
