import FramedJson.Binary64.Basic

namespace FramedJson.Binary64

section Division

variable {num den k : Nat}

theorem roundDiv_near (num : Nat) (positive : 0 < den) :
    2 * (den * roundDiv num den) ≤ 2 * num + den := by
  have whole := Nat.div_add_mod num den
  have less := Nat.mod_lt num positive
  simp only [roundDiv]
  split
  · omega
  · split
    · rw [Nat.mul_add]
      omega
    · have parity : den * (num / den % 2) ≤ den * 1 :=
        Nat.mul_le_mul_left den (Nat.le_of_lt_succ (Nat.mod_lt _ Nat.two_pos))
      rw [Nat.mul_add]
      omega

theorem roundDiv_le (positive : 0 < den) (most : num ≤ den * k) : roundDiv num den ≤ k := by
  have quotient : num / den ≤ k := Nat.div_le_of_le_mul most
  have whole := Nat.div_add_mod num den
  simp only [roundDiv]
  by_cases last : num / den = k
  · have none : num % den = 0 := by
      rw [last] at whole
      omega
    rw [if_pos (by omega)]
    exact quotient
  · split
    · exact quotient
    · split <;> omega

theorem le_roundDiv (positive : 0 < den) (least : den * k ≤ num) : k ≤ roundDiv num den := by
  have quotient : k ≤ num / den := by
    rw [Nat.le_div_iff_mul_le positive, Nat.mul_comm]
    exact least
  simp only [roundDiv]
  split
  · exact quotient
  · split <;> omega

end Division

section Ratio

variable {num den : Nat}

theorem scale_bounds (positive : 0 < den) {scale : Nat}
    (shown : (num * one / den).log2 - 52 = scale) :
    num * one ≤ den * 2 ^ scale * 2 ^ 53 ∧
      (den * 2 ^ 52 ≤ num * one → den * 2 ^ scale * 2 ^ 52 ≤ num * one) := by
  generalize units : num * one / den = ratio at shown
  constructor
  · have above : ratio < 2 ^ (scale + 53) :=
      Nat.lt_of_lt_of_le Nat.lt_log2_self (Nat.pow_le_pow_right Nat.two_pos (by omega))
    have within := (Nat.div_lt_iff_lt_mul positive).mp (units ▸ above)
    rw [Nat.mul_assoc, ← Nat.pow_add, Nat.mul_comm den]
    exact Nat.le_of_lt within
  · intro normal
    have large : 2 ^ 52 ≤ ratio := by
      rw [← units, Nat.le_div_iff_mul_le positive, Nat.mul_comm]
      exact normal
    have nonzero : ratio ≠ 0 := by omega
    have bits : 52 ≤ ratio.log2 := (Nat.le_log2 nonzero).mpr large
    have below : 2 ^ (scale + 52) ≤ ratio := by
      rw [← shown, Nat.sub_add_cancel bits]
      exact Nat.log2_self_le nonzero
    rw [← units, Nat.le_div_iff_mul_le positive] at below
    rw [Nat.mul_assoc, ← Nat.pow_add, Nat.mul_comm den]
    exact below

/-- The weight of the last bit of the largest doubles. -/
def topWeight : Nat := 2 ^ 2045

theorem pow_eq_topWeight {scale : Nat} (last : scale = 2045) : 2 ^ scale = topWeight := by
  subst last
  unfold topWeight
  rfl

theorem pow_le_topWeight {scale : Nat} (less : scale < 2045) : 2 ^ scale * 2 ≤ topWeight := by
  have step (top : Nat) (below : scale < top) : 2 ^ scale * 2 ≤ 2 ^ top :=
    Nat.pow_le_pow_right Nat.two_pos below
  unfold topWeight
  exact step 2045 less

def largest : Nat := topWeight * (2 ^ 53 - 1)

theorem rankOfRatio_lt (positive : 0 < den) (most : num * one ≤ den * largest) :
    rankOfRatio num den < 0x7FF0000000000000 := by
  simp only [rankOfRatio]
  generalize shown : (num * one / den).log2 - 52 = scale
  have weighted : 0 < den * 2 ^ scale := Nat.mul_pos positive (Nat.two_pow_pos scale)
  have above := roundDiv_le weighted (scale_bounds positive shown).1
  have small : scale ≤ 2045 := by
    have ratio : num * one / den < 2 ^ 2098 :=
      Nat.lt_of_le_of_lt (Nat.div_le_of_le_mul most) (by decide +kernel)
    by_cases zero : num * one / den = 0
    · rw [zero] at shown
      rw [← shown]
      decide
    · have bits := (Nat.log2_lt zero).mpr ratio
      omega
  by_cases last : scale = 2045
  · have within : num * one ≤ den * 2 ^ scale * (2 ^ 53 - 1) := by
      rw [Nat.mul_assoc, pow_eq_topWeight last]
      exact most
    have rounded := roundDiv_le weighted within
    omega
  · omega

theorem magnitude_of_rank {x : Binary64} {scale significand : Nat}
    (ranked : x.rank = scale * 2 ^ 52 + significand) (least : 2 ^ 52 ≤ significand)
    (most : significand ≤ 2 ^ 53) : x.magnitude = significand * 2 ^ scale := by
  by_cases carried : significand = 2 ^ 53
  · have exponent : scaleOfRank x.rank = scale + 1 := by
      rw [scaleOfRank]
      omega
    have bits : significandOfRank x.rank = 2 ^ 52 := by
      rw [significandOfRank, exponent]
      omega
    rw [magnitude, exponent, bits, carried, Nat.pow_succ 2 scale]
    omega
  · have exponent : scaleOfRank x.rank = scale := by
      rw [scaleOfRank]
      omega
    have bits : significandOfRank x.rank = significand := by
      rw [significandOfRank, exponent]
      omega
    rw [magnitude, exponent, bits]

/-- Rounding to 53 bits enlarges a ratio by one part in 2 ^ 53 at most. -/
theorem magnitude_ofRatio_le (negative : Bool) (positive : 0 < den) (normal : den * 2 ^ 52 ≤ num * one)
    (most : num * one ≤ den * largest) :
    (ofRatio negative num den).magnitude * (den * 2 ^ 53) ≤ num * one * (2 ^ 53 + 1) := by
  have finite := rankOfRatio_lt positive most
  have ranked : (ofRatio negative num den).rank = rankOfRatio num den := by
    simp only [ofRatio]
    omega
  simp only [rankOfRatio] at ranked
  generalize shown : (num * one / den).log2 - 52 = scale at ranked
  obtain ⟨above, below⟩ := scale_bounds positive shown
  have weighted : 0 < den * 2 ^ scale := Nat.mul_pos positive (Nat.two_pow_pos scale)
  have fine := below normal
  have near := roundDiv_near (num * one) weighted
  rw [magnitude_of_rank ranked (le_roundDiv weighted fine) (roundDiv_le weighted above)]
  generalize roundDiv (num * one) (den * 2 ^ scale) = quotient at near
  have regroup : quotient * 2 ^ scale * (den * 2 ^ 53) = den * 2 ^ scale * quotient * 2 ^ 53 := by
    ac_rfl
  have relative : ∀ rounded exact step : Nat, 2 * rounded ≤ 2 * exact + step →
      step * 2 ^ 52 ≤ exact → rounded * 2 ^ 53 ≤ exact * (2 ^ 53 + 1) := by omega
  rw [regroup]
  exact relative _ _ _ near fine

theorem mul?_isSome {x y : Binary64} (most : x.magnitude * y.magnitude ≤ one * largest) :
    (x.mul? y).isSome := by
  have positive : 0 < one * one := by decide +kernel
  have within : x.magnitude * y.magnitude * one ≤ one * one * largest := by
    rw [Nat.mul_comm (x.magnitude * y.magnitude), Nat.mul_assoc one]
    exact Nat.mul_le_mul_left one most
  have finite := rankOfRatio_lt positive within
  simp only [mul?, ofRatio?, dif_pos finite, Option.isSome_some]

/-- The product of two rounded numbers is still finite where the exact product leaves room for both
roundings. -/
theorem two_roundings {a b m n unit : Nat} (first : m * 2 ^ 53 ≤ a * unit * (2 ^ 53 + 1))
    (second : n * 2 ^ 53 ≤ b * unit * (2 ^ 53 + 1))
    (room : 4 * unit * (a * b) ≤ topWeight * (2 ^ 55 - 14)) : m * n ≤ unit * largest := by
  unfold largest
  generalize topWeight = limit at room ⊢
  have scaled : m * n * (4 * (2 ^ 53 * 2 ^ 53)) ≤ unit * (limit * (2 ^ 53 - 1)) * (4 * (2 ^ 53 * 2 ^ 53)) :=
    calc m * n * (4 * (2 ^ 53 * 2 ^ 53))
        = m * 2 ^ 53 * (n * 2 ^ 53) * 4 := by ac_rfl
      _ ≤ a * unit * (2 ^ 53 + 1) * (b * unit * (2 ^ 53 + 1)) * 4 :=
        Nat.mul_le_mul_right 4 (Nat.mul_le_mul first second)
      _ = 4 * unit * (a * b) * (unit * ((2 ^ 53 + 1) * (2 ^ 53 + 1))) := by ac_rfl
      _ ≤ limit * (2 ^ 55 - 14) * (unit * ((2 ^ 53 + 1) * (2 ^ 53 + 1))) :=
        Nat.mul_le_mul_right _ room
      _ = unit * limit * ((2 ^ 55 - 14) * ((2 ^ 53 + 1) * (2 ^ 53 + 1))) := by ac_rfl
      _ ≤ unit * limit * ((2 ^ 53 - 1) * (4 * (2 ^ 53 * 2 ^ 53))) :=
        Nat.mul_le_mul_left _ (by decide)
      _ = unit * (limit * (2 ^ 53 - 1)) * (4 * (2 ^ 53 * 2 ^ 53)) := by ac_rfl
  exact Nat.le_of_mul_le_mul_right scaled (by decide)

end Ratio

end FramedJson.Binary64
