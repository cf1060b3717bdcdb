import FramedJson.Binary64.Shortest

namespace FramedJson.Binary64

structure Style where
  /-- The decimal exponents written in plain positions, from the first to before the second;
  none is a form without exponents. -/
  positional : Option (Int × Int)
  wholeFraction : Bool

/-- JSON numbers: plain from 0.00001 to below 10 ^ 16, always with a fraction digit. -/
def jsonStyle : Style := ⟨some (-5, 16), true⟩

def plainStyle : Style := ⟨none, false⟩

def zeros (n : Nat) : List Char := List.replicate n '0'

def positional (style : Style) (digits : List Char) (exponent : Int) : List Char :=
  if 0 ≤ exponent then
    digits ++ zeros exponent.toNat ++ (if style.wholeFraction then ['.', '0'] else [])
  else
    let places := (-exponent).toNat
    if places < digits.length then
      digits.take (digits.length - places) ++ '.' :: digits.drop (digits.length - places)
    else '0' :: '.' :: (zeros (places - digits.length) ++ digits)

def scientific (digits : List Char) (exponent : Int) : List Char :=
  let power := exponent + digits.length - 1
  let sign := if power < 0 then '-' else '+'
  let fraction := if digits.length = 1 then [] else '.' :: digits.drop 1
  digits.take 1 ++ fraction ++ 'e' :: sign :: Nat.toDigits 10 power.natAbs

def render (style : Style) (x : Binary64) : List Char :=
  let decimal := x.shortest
  let digits := Nat.toDigits 10 decimal.digits
  let power := decimal.exponent + digits.length - 1
  let plain := match style.positional with
    | none => true
    | some (first, stop) => first ≤ power && power < stop
  let body := if plain then positional style digits decimal.exponent
    else scientific digits decimal.exponent
  if x.negative then '-' :: body else body

end FramedJson.Binary64
