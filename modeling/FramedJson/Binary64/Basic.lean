import FramedJson.Powers

/-!
Finite doubles in exact arithmetic. Every finite double is a whole number of units of
2 ^ (-1074), and the nonnegative ones are numbered in increasing order without a gap; a double is
its sign and that number. Order, equality of values and remainders are then those of the integers,
and only `rankOfRatio` rounds.
-/
namespace FramedJson

structure Binary64 where
  negative : Bool
  rank : Nat
  rank_lt : rank < 0x7FF0000000000000
  deriving DecidableEq

namespace Binary64

def zero (negative : Bool) : Binary64 := ⟨negative, 0, by decide⟩

/-- How often the unit is doubled to give the weight of the significand's last bit. -/
def scaleOfRank (rank : Nat) : Nat := rank / 2 ^ 52 - 1

def significandOfRank (rank : Nat) : Nat := rank - scaleOfRank rank * 2 ^ 52

/-- The magnitude in units of 2 ^ (-1074). -/
def magnitude (x : Binary64) : Nat := significandOfRank x.rank * 2 ^ scaleOfRank x.rank

def units (x : Binary64) : Int := if x.negative then -(x.magnitude : Int) else x.magnitude

def one : Nat := 2 ^ 1074

def isWhole (x : Binary64) : Bool := x.magnitude % one = 0

/-- `num / den` rounded to the nearest integer, a half to the even neighbour. -/
def roundDiv (num den : Nat) : Nat :=
  let quotient := num / den
  let doubled := 2 * (num % den)
  if doubled < den then quotient
  else if den < doubled then quotient + 1
  else quotient + quotient % 2

/-- The number, among the nonnegative doubles continued beyond the largest, of the one nearest to
`num / den`. -/
def rankOfRatio (num den : Nat) : Nat :=
  let scale := (num * one / den).log2 - 52
  scale * 2 ^ 52 + roundDiv (num * one) (den * 2 ^ scale)

def ofRatio? (negative : Bool) (num den : Nat) : Option Binary64 :=
  if h : rankOfRatio num den < 0x7FF0000000000000 then some ⟨negative, rankOfRatio num den, h⟩
  else none

/-- The double nearest to a ratio, or the largest one when it is beyond the range. -/
def ofRatio (negative : Bool) (num den : Nat) : Binary64 :=
  ⟨negative, min (rankOfRatio num den) 0x7FEFFFFFFFFFFFFF, by omega⟩

def ofInt (i : Int) : Binary64 := ofRatio (decide (i < 0)) i.natAbs 1

def mul? (x y : Binary64) : Option Binary64 :=
  ofRatio? (x.negative != y.negative) (x.magnitude * y.magnitude) (one * one)

def div? (x y : Binary64) : Option Binary64 :=
  ofRatio? (x.negative != y.negative) x.magnitude y.magnitude

end Binary64
end FramedJson
