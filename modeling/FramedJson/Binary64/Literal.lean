import FramedJson.Binary64.Basic

namespace FramedJson.Binary64

def digitsAt (chars : List Char) : List Nat × List Char :=
  ((chars.takeWhile Char.isDigit).map fun c => c.toNat - 48, chars.dropWhile Char.isDigit)

def ofDigits (digits : List Nat) : Nat := digits.foldl (fun n digit => n * 10 + digit) 0

def exponentOf? : List Char → Option Int
  | [] => some 0
  | mark :: rest =>
    if mark = 'e' ∨ mark = 'E' then
      let (negative, rest) := match rest with
        | '-' :: rest => (true, rest)
        | '+' :: rest => (false, rest)
        | rest => (false, rest)
      match digitsAt rest with
      | (digit :: digits, []) =>
        let value : Int := ofDigits (digit :: digits)
        some (if negative then -value else value)
      | _ => none
    else none

/-- The double nearest to `significand * 10 ^ power`. Beyond 400 powers either way of the leading
digit the answer is known. -/
def ofDecimal? (negative : Bool) (significand : Nat) (power : Int) : Option Binary64 :=
  let leading := power + (Nat.toDigits 10 significand).length
  if significand = 0 ∨ leading < -400 then some (zero negative)
  else if 400 < leading then none
  else if 0 ≤ power then ofRatio? negative (significand * 10 ^ power.toNat) 1
  else ofRatio? negative significand (10 ^ (-power).toNat)

def ofUnsigned? (negative : Bool) (chars : List Char) : Option (Option Binary64) :=
  let word := chars.map Char.toLower
  if word = "inf".toList ∨ word = "infinity".toList ∨ word = "nan".toList then some none
  else
    let (whole, rest) := digitsAt chars
    let (fraction, rest) := match rest with
      | '.' :: rest => digitsAt rest
      | rest => ([], rest)
    if whole = [] ∧ fraction = [] then none
    else
      (exponentOf? rest).map fun exponent =>
        ofDecimal? negative (ofDigits (whole ++ fraction)) (exponent - fraction.length)

/-- The finite double that a text names, or that it names none; nothing for any other text. -/
def ofText? (text : String) : Option (Option Binary64) :=
  match text.toList with
  | '-' :: rest => ofUnsigned? true rest
  | '+' :: rest => ofUnsigned? false rest
  | chars => ofUnsigned? false chars

end FramedJson.Binary64
