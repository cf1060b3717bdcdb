import FramedJson.Binary64.Shortest
import FramedJson.Proofs.Binary64.Rounding

namespace FramedJson.Binary64

namespace Interval

variable {i : Interval} {exponent : Int}

theorem holds_of_nearest {digits : Nat} (found : i.nearest? exponent = some digits) :
    i.holds (10 ^ (-exponent).toNat) (digits * (4 * one * 10 ^ exponent.toNat)) := by
  simp only [nearest?] at found
  generalize 4 * one * 10 ^ exponent.toNat = step at found ⊢
  split at found
  · rename_i below above
    split at found
    · cases found
      exact below
    · split at found
      · cases found
        exact above
      · cases found
        rcases Nat.mod_two_eq_zero_or_one (i.center * 10 ^ (-exponent).toNat / step) with even | odd
        · rw [even]
          exact below
        · rw [odd]
          exact above
  · rename_i below _
    cases found
    exact below
  · rename_i _ above
    cases found
    exact above
  · cases found

theorem nearest?_of_center
    (onGrid : 4 * one * 10 ^ exponent.toNat ∣ i.center * 10 ^ (-exponent).toNat)
    (inside : i.holds (10 ^ (-exponent).toNat) (i.center * 10 ^ (-exponent).toNat)) :
    (i.nearest? exponent).isSome := by
  have exact := Nat.div_mul_cancel onGrid
  simp only [nearest?, exact, inside]
  generalize 4 * one * 10 ^ exponent.toNat = step
  generalize i.holds (10 ^ (-exponent).toNat) _ = next
  cases next with
  | false => rfl
  | true =>
    simp only
    split
    · rfl
    · split <;> rfl

theorem nearest?_coarsest {last : Int} (found : (i.nearest? last).isSome) (budget : Nat)
    (tried : last ≤ exponent ∧ exponent < last + budget) :
    i.nearest? (i.coarsest exponent budget).exponent = some (i.coarsest exponent budget).digits := by
  induction budget generalizing exponent with
  | zero => omega
  | succ budget ih =>
    cases here : i.nearest? exponent with
    | some digits => simp only [coarsest, here]
    | none =>
      have differ : exponent ≠ last := by
        rintro rfl
        rw [here] at found
        cases found
      simp only [coarsest, here]
      exact ih (by omega)

end Interval

section Shortest

variable {x : Binary64}

theorem significand_pos (nonzero : x.rank ≠ 0) : 0 < significandOfRank x.rank := by
  rw [significandOfRank, scaleOfRank]
  omega

theorem weight_le_magnitude (nonzero : x.rank ≠ 0) : 2 ^ scaleOfRank x.rank ≤ x.magnitude :=
  Nat.le_mul_of_pos_left _ (significand_pos nonzero)

theorem interval_around (nonzero : x.rank ≠ 0) :
    0 < (interval x).low ∧ (interval x).low < 4 * x.magnitude ∧ 4 * x.magnitude < (interval x).high := by
  have weighted : 0 < 2 ^ scaleOfRank x.rank := Nat.two_pow_pos _
  have large := weight_le_magnitude nonzero
  simp only [interval]
  generalize 2 ^ scaleOfRank x.rank = weight at weighted large
  split <;> omega

theorem holds_center (nonzero : x.rank ≠ 0) {scale : Nat} (positive : 0 < scale) :
    (interval x).holds scale ((interval x).center * scale) := by
  obtain ⟨_, above, below⟩ := interval_around nonzero
  have first := Nat.mul_lt_mul_of_pos_right above positive
  have second := Nat.mul_lt_mul_of_pos_right below positive
  have center : (interval x).center = 4 * x.magnitude := rfl
  simp only [Interval.holds, center]
  split
  · simp [Nat.le_of_lt first, Nat.le_of_lt second]
  · simp [first, second]

theorem nearest?_finest (nonzero : x.rank ≠ 0) : ((interval x).nearest? (-1074)).isSome := by
  apply Interval.nearest?_of_center
  · have tens : 10 ^ 1074 = one * 5 ^ 1074 := by decide +kernel
    have center : (interval x).center = 4 * x.magnitude := rfl
    have up : (-1074 : Int).toNat = 0 := rfl
    have down : (-(-1074) : Int).toNat = 1074 := rfl
    rw [up, down, tens, center, Nat.pow_zero, Nat.mul_one, Nat.mul_mul_mul_comm 4 x.magnitude]
    exact Nat.dvd_mul_right _ _
  · exact holds_center nonzero (Nat.pow_pos (by decide))

theorem shortest_holds (nonzero : x.rank ≠ 0) :
    (interval x).holds (10 ^ (-x.shortest.exponent).toNat)
      (x.shortest.digits * (4 * one * 10 ^ x.shortest.exponent.toNat)) := by
  have searched : x.shortest = (interval x).coarsest 309 1384 := if_neg nonzero
  rw [searched]
  exact Interval.holds_of_nearest
    (Interval.nearest?_coarsest (nearest?_finest nonzero) 1384 (by decide))

theorem shortest_most (nonzero : x.rank ≠ 0) :
    x.shortest.digits * (4 * one * 10 ^ x.shortest.exponent.toNat) ≤
      (interval x).high * 10 ^ (-x.shortest.exponent).toNat := by
  have inside := shortest_holds nonzero
  unfold Interval.holds at inside
  split at inside
  · simp only [Bool.and_eq_true, decide_eq_true_eq] at inside
    exact inside.2
  · simp only [Bool.and_eq_true, decide_eq_true_eq] at inside
    exact Nat.le_of_lt inside.2

theorem shortest_digits_pos (nonzero : x.rank ≠ 0) : 0 < x.shortest.digits := by
  have inside := shortest_holds nonzero
  have positive : 0 < (interval x).low * 10 ^ (-x.shortest.exponent).toNat :=
    Nat.mul_pos (interval_around nonzero).1 (Nat.pow_pos (by decide))
  refine Nat.pos_of_ne_zero fun none => ?_
  rw [none, Nat.zero_mul] at inside
  unfold Interval.holds at inside
  split at inside
  · simp only [Bool.and_eq_true, decide_eq_true_eq] at inside
    omega
  · simp only [Bool.and_eq_true, decide_eq_true_eq] at inside
    omega

/-- The reals that are rounded to a double below the last three leave room for two more roundings. -/
theorem high_le (room : x.rank ≤ 0x7FEFFFFFFFFFFFFC) :
    (interval x).high ≤ topWeight * (2 ^ 55 - 14) := by
  have high : (interval x).high =
      2 ^ scaleOfRank x.rank * (4 * significandOfRank x.rank + 2) := by
    simp only [interval, magnitude]
    rw [Nat.mul_add]
    generalize 2 ^ scaleOfRank x.rank = weight
    ac_rfl
  have scale : scaleOfRank x.rank ≤ 2045 := by
    rw [scaleOfRank]
    omega
  rw [high]
  by_cases last : scaleOfRank x.rank = 2045
  · have bits : significandOfRank x.rank ≤ 2 ^ 53 - 4 := by
      rw [significandOfRank, last]
      omega
    rw [pow_eq_topWeight last]
    exact Nat.mul_le_mul_left topWeight (by omega)
  · have bits : significandOfRank x.rank ≤ 2 ^ 53 - 1 := by
      rw [significandOfRank, scaleOfRank]
      omega
    have half := pow_le_topWeight (Nat.lt_of_le_of_ne scale last)
    calc 2 ^ scaleOfRank x.rank * (4 * significandOfRank x.rank + 2)
        ≤ 2 ^ scaleOfRank x.rank * (2 * (2 ^ 55 - 14)) := Nat.mul_le_mul_left _ (by omega)
      _ = 2 ^ scaleOfRank x.rank * 2 * (2 ^ 55 - 14) := (Nat.mul_assoc _ 2 _).symm
      _ ≤ topWeight * (2 ^ 55 - 14) := Nat.mul_le_mul_right _ half

end Shortest

end FramedJson.Binary64
