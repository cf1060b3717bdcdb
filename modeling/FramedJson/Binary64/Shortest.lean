import FramedJson.Binary64.Basic

/-!
The shortest decimal that reads back as a given double. The reals that round to a double form an
interval, closed exactly when its significand is even; the answer lies on the coarsest grid of
multiples of a power of ten that meets the interval, and on that grid it is the point nearest to
the double, a tie going to the even multiple.
-/
namespace FramedJson.Binary64

structure Decimal where
  digits : Nat
  exponent : Int
  deriving DecidableEq

/-- The reals that round to one double, in quarters of a unit. -/
structure Interval where
  low : Nat
  center : Nat
  high : Nat
  closed : Bool

def interval (x : Binary64) : Interval :=
  let weight := 2 ^ scaleOfRank x.rank
  let significand := significandOfRank x.rank
  let center := 4 * x.magnitude
  -- Below a power of two the neighbour is only half as far away.
  let below := if significand = 2 ^ 52 && 0 < scaleOfRank x.rank then weight else 2 * weight
  { low := center - below, center := center, high := center + 2 * weight
    closed := significand % 2 = 0 }

def Interval.holds (i : Interval) (scale point : Nat) : Bool :=
  if i.closed then i.low * scale ≤ point && point ≤ i.high * scale
  else i.low * scale < point && point < i.high * scale

/-- The multiple of `10 ^ exponent` in the interval that is nearest to its center, if any. -/
def Interval.nearest? (i : Interval) (exponent : Int) : Option Nat :=
  let step := 4 * one * 10 ^ exponent.toNat
  let scale := 10 ^ (-exponent).toNat
  let below := i.center * scale / step
  let pastBelow := i.center * scale - below * step
  let beforeAbove := (below + 1) * step - i.center * scale
  match i.holds scale (below * step), i.holds scale ((below + 1) * step) with
  | true, true =>
    if pastBelow < beforeAbove then some below
    else if beforeAbove < pastBelow then some (below + 1)
    else some (below + below % 2)
  | true, false => some below
  | false, true => some (below + 1)
  | false, false => none

def Interval.coarsest (i : Interval) (exponent : Int) : Nat → Decimal
  | 0 => ⟨0, exponent⟩
  | budget + 1 =>
    match i.nearest? exponent with
    | some digits => ⟨digits, exponent⟩
    | none => i.coarsest (exponent - 1) budget

/-- No double reaches 10 ^ 309, and each is a multiple of 10 ^ (-1074). -/
def shortest (x : Binary64) : Decimal :=
  if x.rank = 0 then ⟨0, 0⟩ else (interval x).coarsest 309 1384

end FramedJson.Binary64
