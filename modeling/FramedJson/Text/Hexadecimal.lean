namespace FramedJson.Hexadecimal

def digit (n : Nat) : Char := Nat.digitChar n

def value? (code : Nat) : Option Nat :=
  if 48 ≤ code ∧ code ≤ 57 then some (code - 48)
  else if 97 ≤ code ∧ code ≤ 102 then some (code - 87)
  else if 65 ≤ code ∧ code ≤ 70 then some (code - 55)
  else none

def encode (bytes : List UInt8) : List Char :=
  bytes.flatMap fun byte => [digit (byte.toNat / 16), digit (byte.toNat % 16)]

def decode? : List Char → Option (List UInt8)
  | [] => some []
  | [_] => none
  | high :: low :: rest => do
    let h ← value? high.toNat
    let l ← value? low.toNat
    let bytes ← decode? rest
    return UInt8.ofNat (h * 16 + l) :: bytes

end FramedJson.Hexadecimal
