import FramedJson.Json.Basic
import FramedJson.Json.Fault

/-!
Numbers in JSON text. Reading first takes the numeral apart into its digits, then finds its value.
A numeral with neither fraction nor exponent that fits 64 bits is an integer. Any other becomes a
double from the leading digits that fit an unsigned 64-bit significand, scaled by one power of ten
that is itself a double; this is two roundings, and not always the nearest double.
-/
namespace FramedJson.Json

structure Numeral where
  negative : Bool
  whole : List Nat
  fraction : List Nat
  exponent : Option (Bool × List Nat)
  deriving DecidableEq

def isDigit (byte : UInt8) : Bool := 48 ≤ byte.toNat && byte.toNat ≤ 57

def takeDigits (bytes : List UInt8) : List Nat × List UInt8 :=
  ((bytes.takeWhile isDigit).map fun byte => byte.toNat - 48, bytes.dropWhile isDigit)

def scanWhole : List UInt8 → Scan (List Nat × List UInt8)
  | [] => .error ⟨.endInValue, 0⟩
  | first :: rest =>
    if first = 48 then
      match rest with
      | next :: _ => if isDigit next then .error (.at .invalidNumber rest) else .ok ([0], rest)
      | [] => .ok ([0], [])
    else if isDigit first then .ok (takeDigits (first :: rest))
    else .error ⟨.invalidNumber, rest.length⟩

def scanFraction (bytes : List UInt8) : Scan (List Nat × List UInt8) :=
  match bytes with
  | 46 :: rest =>
    match takeDigits rest with
    | ([], []) => .error ⟨.endInValue, 0⟩
    | ([], after) => .error (.at .invalidNumber after)
    | found => .ok found
  | _ => .ok ([], bytes)

def scanExponentDigits (negative : Bool) : List UInt8 → Scan (Option (Bool × List Nat) × List UInt8)
  | [] => .error ⟨.endInValue, 0⟩
  | first :: rest =>
    if isDigit first then
      let found := takeDigits (first :: rest)
      .ok (some (negative, found.1), found.2)
    else .error ⟨.invalidNumber, rest.length⟩

def scanExponent (bytes : List UInt8) : Scan (Option (Bool × List Nat) × List UInt8) :=
  match bytes with
  | mark :: rest =>
    if mark = 101 ∨ mark = 69 then
      match rest with
      | 43 :: digits => scanExponentDigits false digits
      | 45 :: digits => scanExponentDigits true digits
      | digits => scanExponentDigits false digits
    else .ok (none, bytes)
  | [] => .ok (none, [])

def scanNumeral (negative : Bool) (bytes : List UInt8) : Scan (Numeral × List UInt8) := do
  let (whole, bytes) ← scanWhole bytes
  let (fraction, bytes) ← scanFraction bytes
  let (exponent, bytes) ← scanExponent bytes
  return (⟨negative, whole, fraction, exponent⟩, bytes)

namespace Numeral

/-- Whole digits enter the significand while it fits 64 bits; each later one counts one power. -/
def absorbWhole (significand : Nat) (power : Int) : List Nat → Nat × Int
  | [] => (significand, power)
  | digit :: rest =>
    if power = 0 ∧ significand * 10 + digit < 2 ^ 64 then
      absorbWhole (significand * 10 + digit) 0 rest
    else absorbWhole significand (power + 1) rest

/-- Digits behind the point enter until the first that does not fit. -/
def absorbFraction (significand : Nat) (power : Int) : List Nat → Nat × Int
  | [] => (significand, power)
  | digit :: rest =>
    if significand * 10 + digit < 2 ^ 64 then
      absorbFraction (significand * 10 + digit) (power - 1) rest
    else (significand, power)

/-- The exponent, or how many of its digits are left when it passes 31 bits. -/
def exponentValue (value : Nat) : List Nat → Except Nat Nat
  | [] => .ok value
  | digit :: rest =>
    if value * 10 + digit < 2 ^ 31 then exponentValue (value * 10 + digit) rest
    else .error rest.length

/-- Exponents below -308 are taken in steps; the third step has reached zero. -/
def scaleDown (x : Binary64) (power : Int) : Nat → Binary64
  | 0 => .zero x.negative
  | budget + 1 =>
    if -308 ≤ power then
      .ofRatio x.negative x.magnitude (Binary64.ofInt (10 ^ (-power).toNat)).magnitude
    else
      scaleDown (.ofRatio x.negative x.magnitude (Binary64.ofInt (10 ^ 308)).magnitude)
        (power + 308) budget

def scale? (negative : Bool) (significand : Nat) (power : Int) : Option Binary64 :=
  let x := Binary64.ofRatio negative significand 1
  if significand = 0 then some x
  else if power < 0 then some (scaleDown x power 4)
  else if power ≤ 308 then
    x.mul? (Binary64.ofInt (10 ^ power.toNat))
  else none

/-- The value, or the number of digits not yet read where it was found to be out of range. -/
def value (numeral : Numeral) : Except Nat Number :=
  let (significand, power) := absorbWhole 0 0 numeral.whole
  match numeral.fraction, numeral.exponent with
  | [], none =>
    let int : Int := if numeral.negative then -(significand : Int) else significand
    if power = 0 ∧ ¬ (numeral.negative ∧ significand = 0) then
      match Number.ofInt? int with
      | some n => .ok n
      | none => real numeral.negative significand power
    else real numeral.negative significand power
  | fraction, exponent =>
    let (significand, power) := absorbFraction significand power fraction
    match exponent with
    | none => real numeral.negative significand power
    | some (down, digits) =>
      match exponentValue 0 digits with
      | .ok e => real numeral.negative significand (if down then power - e else power + e)
      | .error unread =>
        if significand = 0 ∨ down then .ok (.real (.zero numeral.negative)) else .error unread
where
  real (negative : Bool) (significand : Nat) (power : Int) : Except Nat Number :=
    match scale? negative significand power with
    | some x => .ok (.real x)
    | none => .error 0

end Numeral

def readNumber (negative : Bool) (bytes : List UInt8) : Scan (Number × List UInt8) := do
  let (numeral, rest) ← scanNumeral negative bytes
  match numeral.value with
  | .ok number => return (number, rest)
  | .error unread => throw ⟨.numberOutOfRange, unread + rest.length⟩

end FramedJson.Json
