import FramedJson.Json.Exact
import FramedJson.Proofs.Binary64.Shortest
import FramedJson.Proofs.Json.Integers

/-!
Every printed double is read as some double, though not always the same one. Its text has the shape of a
numeral, and what the reader computes never leaves the range: the significand that it keeps is cut short,
and the two roundings that follow cannot carry it over the largest double.
-/
namespace FramedJson.Json

open Binary64

section Significand

theorem absorbFraction_digits (chars : List Char) (init : Nat) (power : Int) (fits : init < 2 ^ 64) :
    ∃ dropped, dropped ≤ chars.length ∧
      (Numeral.absorbFraction init power (chars.map digitValue)).1 < 2 ^ 64 ∧
      (Numeral.absorbFraction init power (chars.map digitValue)).1 * 10 ^ dropped ≤
        Nat.ofDigitChars 10 chars init ∧
      (Numeral.absorbFraction init power (chars.map digitValue)).2 + chars.length = power + dropped := by
  induction chars generalizing init power with
  | nil => exact ⟨0, Nat.le_refl 0, fits, by simp [Numeral.absorbFraction], rfl⟩
  | cons c chars ih =>
    simp only [List.map_cons, Numeral.absorbFraction]
    split
    · rename_i more
      obtain ⟨dropped, few, small, least, shift⟩ := ih _ (power - 1) more
      rw [ofDigitChars_digit]
      refine ⟨dropped, Nat.le_succ_of_le few, small, least, ?_⟩
      rw [List.length_cons]
      omega
    · exact ⟨(c :: chars).length, Nat.le_refl _, fits, ofDigitChars_least _ init, rfl⟩

theorem exponentValue_digits (chars : List Char) (init : Nat)
    (fits : Nat.ofDigitChars 10 chars init < 2 ^ 31) :
    Numeral.exponentValue init (chars.map digitValue) = .ok (Nat.ofDigitChars 10 chars init) := by
  induction chars generalizing init with
  | nil => rfl
  | cons c chars ih =>
    rw [ofDigitChars_digit] at fits ⊢
    have small := Nat.lt_of_le_of_lt (le_ofDigitChars chars (init * 10 + digitValue c)) fits
    rw [List.map_cons, Numeral.exponentValue, if_pos small]
    exact ih _ fits

/-- A decimal that leaves room for two roundings below the largest double. -/
def Roomy (significand power : Nat) : Prop :=
  4 * one * (significand * 10 ^ power) ≤ topWeight * (2 ^ 55 - 14)

theorem Roomy.power_le {significand power : Nat} (positive : 0 < significand)
    (roomy : Roomy significand power) : power ≤ 308 := by
  refine Nat.le_of_not_lt fun large => ?_
  have tens (n : Nat) (less : n ≤ power) : 10 ^ n ≤ significand * 10 ^ power :=
    Nat.le_trans (Nat.pow_le_pow_right (by decide) less) (Nat.le_mul_of_pos_left _ positive)
  have above : topWeight * (2 ^ 55 - 14) < 4 * one * 10 ^ 309 := by decide +kernel
  exact Nat.not_le_of_lt above (Nat.le_trans (Nat.mul_le_mul_left _ (tens 309 large)) roomy)

theorem roomy_small {significand : Nat} (fits : significand < 2 ^ 64) : Roomy significand 0 := by
  have bound : 4 * one * 2 ^ 64 ≤ topWeight * (2 ^ 55 - 14) := by decide +kernel
  rw [Roomy, Nat.pow_zero, Nat.mul_one]
  exact Nat.le_trans (Nat.mul_le_mul_left _ (Nat.le_of_lt fits)) bound

theorem magnitude_ofInt_tens {power : Nat} (few : power ≤ 308) :
    (Binary64.ofInt (10 ^ power)).magnitude * 2 ^ 53 ≤ 10 ^ power * one * (2 ^ 53 + 1) := by
  have unit : 2 ^ 52 ≤ one := by decide +kernel
  have largest : 10 ^ 308 * one ≤ 1 * largest := by decide +kernel
  have tens (n : Nat) (most : power ≤ n) : 10 ^ power ≤ 10 ^ n :=
    Nat.pow_le_pow_right (by decide) most
  have normal : 1 * 2 ^ 52 ≤ 10 ^ power * one :=
    Nat.mul_le_mul (Nat.pow_pos (by decide)) unit
  have rounded := magnitude_ofRatio_le (decide ((10 ^ power : Int) < 0)) Nat.one_pos normal
    (Nat.le_trans (Nat.mul_le_mul_right one (tens 308 few)) largest)
  have whole : (10 ^ power : Int).natAbs = 10 ^ power := Int.natAbs_pow 10 power
  rw [Nat.one_mul] at rounded
  rw [Binary64.ofInt, whole]
  exact rounded

theorem scale?_isSome (negative : Bool) {significand : Nat} {power : Int} (fits : significand < 2 ^ 64)
    (roomy : 0 ≤ power → Roomy significand power.toNat) :
    (Numeral.scale? negative significand power).isSome := by
  unfold Numeral.scale?
  by_cases zero : significand = 0
  · rw [if_pos zero]
    rfl
  by_cases down : power < 0
  · rw [if_neg zero, if_pos down]
    rfl
  have room := roomy (Int.not_lt.mp down)
  have few := room.power_le (Nat.pos_of_ne_zero zero)
  rw [if_neg zero, if_neg down, if_pos (by omega)]
  apply mul?_isSome
  have unit : 2 ^ 52 ≤ one := by decide +kernel
  have largest : 2 ^ 64 * one ≤ 1 * largest := by decide +kernel
  have normal : 1 * 2 ^ 52 ≤ significand * one := Nat.mul_le_mul (Nat.pos_of_ne_zero zero) unit
  have rounded := magnitude_ofRatio_le negative Nat.one_pos normal
    (Nat.le_trans (Nat.mul_le_mul_right one (Nat.le_of_lt fits)) largest)
  rw [Nat.one_mul] at rounded
  exact two_roundings rounded (magnitude_ofInt_tens few) room

theorem Roomy.of_taken {significand digits dropped exponent places : Nat}
    (taken : significand * 10 ^ dropped ≤ digits)
    (room : 4 * one * (digits * 10 ^ (exponent - places)) ≤
      topWeight * (2 ^ 55 - 14) * 10 ^ (places - exponent))
    (reaches : places ≤ exponent + dropped) : Roomy significand (exponent + dropped - places) := by
  have powers : 10 ^ (exponent + dropped - places) * 10 ^ (places - exponent) =
      10 ^ dropped * 10 ^ (exponent - places) := by
    rw [← Nat.pow_add, ← Nat.pow_add]
    congr 1
    omega
  have scaled := calc
    4 * one * (significand * 10 ^ (exponent + dropped - places)) * 10 ^ (places - exponent)
      = 4 * one * (significand * 10 ^ dropped * 10 ^ (exponent - places)) := by
        rw [Nat.mul_assoc _ _ (10 ^ (places - exponent)), Nat.mul_assoc significand, powers,
          Nat.mul_assoc significand]
    _ ≤ 4 * one * (digits * 10 ^ (exponent - places)) :=
        Nat.mul_le_mul_left _ (Nat.mul_le_mul_right _ taken)
    _ ≤ topWeight * (2 ^ 55 - 14) * 10 ^ (places - exponent) := room
  exact Nat.le_of_mul_le_mul_right scaled (Nat.pow_pos (by decide))

end Significand

section Values

variable (negative : Bool)

theorem real_isOk {significand : Nat} {power : Int} (fits : significand < 2 ^ 64)
    (roomy : 0 ≤ power → Roomy significand power.toNat) :
    ∃ x, Numeral.value.real negative significand power = .ok (.real x) := by
  obtain ⟨x, scaled⟩ := Option.isSome_iff_exists.mp (scale?_isSome negative fits roomy)
  exact ⟨x, by simp only [Numeral.value.real, scaled]⟩

theorem value_exponent (whole fraction : List Nat) (down : Bool) (digits : List Nat) :
    Numeral.value ⟨negative, whole, fraction, some (down, digits)⟩ =
      let start := Numeral.absorbWhole 0 0 whole
      let kept := Numeral.absorbFraction start.1 start.2 fraction
      match Numeral.exponentValue 0 digits with
      | .ok e => Numeral.value.real negative kept.1 (if down then kept.2 - e else kept.2 + e)
      | .error unread =>
        if kept.1 = 0 ∨ down then .ok (.real (.zero negative)) else .error unread := by
  cases fraction <;> rfl

theorem value_plain {whole fraction : List Char} (some : fraction ≠ [])
    (small : Nat.ofDigitChars 10 whole 0 < 2 ^ 64) :
    ∃ x, Numeral.value ⟨negative, whole.map digitValue, fraction.map digitValue, none⟩ =
      .ok (.real x) := by
  obtain ⟨c, chars, rfl⟩ := List.exists_cons_of_ne_nil some
  obtain ⟨dropped, few, fits, _, shift⟩ := absorbFraction_digits (c :: chars) _ 0 small
  simp only [Numeral.value, absorbWhole_digits whole 0 small, List.map_cons] at fits shift ⊢
  refine real_isOk negative fits fun upward => ?_
  have still : (Numeral.absorbFraction (Nat.ofDigitChars 10 whole 0) 0
      (digitValue c :: chars.map digitValue)).2.toNat = 0 := by omega
  rw [still]
  exact roomy_small fits

theorem value_scientific {c : Char} {chars : List Char} (down : Bool) (exponent : Nat)
    (leads : 10 ^ chars.length ≤ Nat.ofDigitChars 10 (c :: chars) 0)
    (digit : c.isDigit)
    (room : down = false → 4 * one * (Nat.ofDigitChars 10 (c :: chars) 0 * 10 ^ (exponent - chars.length)) ≤
      topWeight * (2 ^ 55 - 14) * 10 ^ (chars.length - exponent)) :
    ∃ x, Numeral.value ⟨negative, [digitValue c], chars.map digitValue,
      some (down, (Nat.toDigits 10 exponent).map digitValue)⟩ = .ok (.real x) := by
  have range := digit_range digit
  have first : Nat.ofDigitChars 10 [c] 0 = digitValue c := by simp [Nat.ofDigitChars, digitValue]
  have small : Nat.ofDigitChars 10 [c] 0 < 2 ^ 64 := by
    rw [first, digitValue]
    omega
  have whole := absorbWhole_digits [c] 0 small
  obtain ⟨dropped, few, fits, taken, shift⟩ := absorbFraction_digits chars (digitValue c) 0 (first ▸ small)
  rw [first, List.map_singleton] at whole
  have digits : Nat.ofDigitChars 10 chars (digitValue c) = Nat.ofDigitChars 10 (c :: chars) 0 := by
    rw [ofDigitChars_digit, Nat.zero_mul, Nat.zero_add]
  rw [digits] at taken
  simp only [value_exponent, whole]
  generalize Numeral.absorbFraction (digitValue c) 0 (chars.map digitValue) = kept at fits taken shift
  obtain ⟨significand, power⟩ := kept
  simp only at fits taken shift ⊢
  cases down with
  | true =>
    cases Numeral.exponentValue 0 ((Nat.toDigits 10 exponent).map digitValue) with
    | ok e =>
      refine real_isOk negative fits fun upward => ?_
      simp only [if_true] at upward ⊢
      have still : (power - e).toNat = 0 := by omega
      rw [still]
      exact roomy_small fits
    | error unread => exact ⟨.zero negative, if_pos (.inr rfl)⟩
  | false =>
    have tens : Roomy 1 (exponent + chars.length - chars.length) :=
      .of_taken (Nat.one_mul _ ▸ leads) (room rfl) (Nat.le_add_left _ exponent)
    have least := tens.power_le Nat.one_pos
    have read := exponentValue_digits (Nat.toDigits 10 exponent) 0
      (by rw [Nat.ofDigitChars_ten_toDigits]; omega)
    rw [Nat.ofDigitChars_ten_toDigits] at read
    rw [read]
    refine real_isOk negative fits fun upward => ?_
    simp only [Bool.false_eq_true, if_false] at upward ⊢
    have kept : (power + exponent).toNat = exponent + dropped - chars.length := by omega
    rw [kept]
    exact .of_taken taken (room rfl) (by omega)

end Values

section Scanning

variable (negative : Bool)

theorem endsDigits_cons (byte : UInt8) (rest : List UInt8) (other : isDigit byte = false) :
    EndsDigits (byte :: rest) := by
  intro first same
  cases same
  exact other

theorem scanFraction_digits {chars : List Char} (digits : ∀ c ∈ chars, c.isDigit)
    (some : chars ≠ []) {rest : List UInt8} (ends : EndsDigits rest) :
    scanFraction (46 :: (Utf8.encode chars ++ rest)) = .ok (chars.map digitValue, rest) := by
  obtain ⟨c, tail, rfl⟩ := List.exists_cons_of_ne_nil some
  simp only [scanFraction, takeDigits_encode digits ends, List.map_cons]

def signByte (down : Bool) : UInt8 := if down then 45 else 43

theorem scanExponent_digits (down : Bool) (n : Nat) :
    scanExponent (101 :: signByte down :: Utf8.encode (Nat.toDigits 10 n)) =
      .ok (some (down, (Nat.toDigits 10 n).map digitValue), []) := by
  have taken := takeDigits_encode (isDigit_toDigits n) endsNumber_nil.digits
  obtain ⟨byte, tail, shape, digit⟩ := toDigits_opens n
  rw [List.append_nil, shape] at taken
  cases down <;> simp [scanExponent, signByte, shape, scanExponentDigits, digit, taken]

theorem scanNumeral_plain {whole fraction : List Char} (digits : ∀ c ∈ whole, c.isDigit)
    (leads : Leads whole) (digits' : ∀ c ∈ fraction, c.isDigit) (some : fraction ≠ []) :
    scanNumeral negative (Utf8.encode (whole ++ '.' :: fraction)) =
      .ok (⟨negative, whole.map digitValue, fraction.map digitValue, none⟩, []) := by
  have shape : Utf8.encode (whole ++ '.' :: fraction) =
      Utf8.encode whole ++ 46 :: (Utf8.encode fraction ++ []) := by
    rw [Utf8.encode_append, Utf8.encode_cons, List.append_nil]
    rfl
  have first := scanWhole_digits digits leads
    (endsDigits_cons 46 (Utf8.encode fraction ++ []) (by decide))
  have second := scanFraction_digits digits' some endsNumber_nil.digits
  simp only [scanNumeral, shape, first, second, scanExponent_ends endsNumber_nil, bind, Except.bind]
  rfl

theorem scanNumeral_scientific {c : Char} {tail : List Char} (digits : ∀ d ∈ c :: tail, d.isDigit)
    (leads : Leads [c]) (down : Bool) (exponent : Nat) :
    scanNumeral negative (Utf8.encode ([c] ++ (if (c :: tail).length = 1 then [] else '.' :: tail) ++
        'e' :: (if down then '-' else '+') :: Nat.toDigits 10 exponent)) =
      .ok (⟨negative, [digitValue c], tail.map digitValue,
        some (down, (Nat.toDigits 10 exponent).map digitValue)⟩, []) := by
  have marked : Utf8.encode ('e' :: (if down then '-' else '+') :: Nat.toDigits 10 exponent) =
      101 :: signByte down :: Utf8.encode (Nat.toDigits 10 exponent) := by
    rw [Utf8.encode_cons, Utf8.encode_cons]
    cases down <;> rfl
  have one : ∀ d ∈ [c], d.isDigit := by
    intro d member
    cases List.mem_singleton.mp member
    exact digits c List.mem_cons_self
  have third := scanExponent_digits down exponent
  rw [Utf8.encode_append, Utf8.encode_append, marked, List.append_assoc]
  cases tail with
  | nil =>
    have first := scanWhole_digits one leads
      (endsDigits_cons 101 (signByte down :: Utf8.encode (Nat.toDigits 10 exponent)) (by decide))
    have second : scanFraction (101 :: signByte down :: Utf8.encode (Nat.toDigits 10 exponent)) =
        .ok ([], 101 :: signByte down :: Utf8.encode (Nat.toDigits 10 exponent)) := rfl
    simp only [List.length_singleton, if_true, Utf8.encode_nil, List.nil_append, scanNumeral, first,
      second, third, bind, Except.bind]
    rfl
  | cons d tail =>
    have pointed : Utf8.encode ('.' :: d :: tail) = 46 :: Utf8.encode (d :: tail) := by
      rw [Utf8.encode_cons]
      rfl
    have more : (c :: d :: tail).length ≠ 1 := by simp
    have first := scanWhole_digits one leads (endsDigits_cons 46
      (Utf8.encode (d :: tail) ++ 101 :: signByte down :: Utf8.encode (Nat.toDigits 10 exponent))
      (by decide))
    have second := scanFraction_digits (fun e member => digits e (List.mem_cons_of_mem c member))
      (List.cons_ne_nil d tail)
      (endsDigits_cons 101 (signByte down :: Utf8.encode (Nat.toDigits 10 exponent)) (by decide))
    simp only [if_neg more, pointed, List.cons_append, scanNumeral, first, second, third, bind,
      Except.bind]
    rfl

theorem readNumber_of_value {bytes rest : List UInt8} {numeral : Numeral} {number : Number}
    (scanned : scanNumeral negative bytes = .ok (numeral, rest)) (valued : numeral.value = .ok number) :
    readNumber negative bytes = .ok (number, rest) := by
  simp only [readNumber, scanned, bind, Except.bind, valued]
  rfl

end Scanning

section Printing

theorem ofDigitChars_lt {chars : List Char} (digits : ∀ c ∈ chars, c.isDigit) (init : Nat) :
    Nat.ofDigitChars 10 chars init < (init + 1) * 10 ^ chars.length := by
  induction chars generalizing init with
  | nil => simp [Nat.ofDigitChars]
  | cons c chars ih =>
    have range := digit_range (digits c List.mem_cons_self)
    have next := ih (fun d member => digits d (List.mem_cons_of_mem c member))
      (init * 10 + digitValue c)
    have step : init * 10 + digitValue c + 1 ≤ (init + 1) * 10 := by
      rw [digitValue]
      omega
    rw [ofDigitChars_digit, List.length_cons, Nat.pow_succ, Nat.mul_comm (10 ^ chars.length),
      ← Nat.mul_assoc]
    exact Nat.lt_of_lt_of_le next (Nat.mul_le_mul_right _ step)

theorem readNumber_plain (negative : Bool) {whole fraction : List Char}
    (digits : ∀ c ∈ whole, c.isDigit) (leads : Leads whole) (few : whole.length ≤ 16)
    (digits' : ∀ c ∈ fraction, c.isDigit) (some : fraction ≠ []) :
    ∃ x, readNumber negative (Utf8.encode (whole ++ '.' :: fraction)) = .ok (.real x, []) := by
  have bound : Nat.ofDigitChars 10 whole 0 < 10 ^ 16 := by
    have below := ofDigitChars_lt digits 0
    rw [Nat.zero_add, Nat.one_mul] at below
    exact Nat.lt_of_lt_of_le below (Nat.pow_le_pow_right (by decide) few)
  obtain ⟨x, valued⟩ := value_plain negative some (Nat.lt_trans bound (by decide))
  exact ⟨x, readNumber_of_value negative (scanNumeral_plain negative digits leads digits' some) valued⟩

theorem isDigit_zeros (n : Nat) : ∀ c ∈ zeros n, c.isDigit := by
  intro c member
  rw [List.eq_of_mem_replicate member]
  rfl

theorem leads_take {c : Char} {tail : List Char} (nonzero : c.toNat ≠ 48) {n : Nat} (some : 0 < n) :
    Leads ((c :: tail).take n) := by
  cases n with
  | zero => cases some
  | succ n => exact .inr ⟨c, tail.take n, rfl, nonzero⟩

theorem positional_shape {digits : List Char} {exponent : Int} (all : ∀ c ∈ digits, c.isDigit)
    (leads : exponent = 0 ∧ Leads digits ∨ ∃ c tail, digits = c :: tail ∧ c.toNat ≠ 48)
    (short : exponent + digits.length ≤ 16) :
    ∃ whole fraction, positional jsonStyle digits exponent = whole ++ '.' :: fraction ∧
      (∀ c ∈ whole, c.isDigit) ∧ Leads whole ∧ whole.length ≤ 16 ∧
      (∀ c ∈ fraction, c.isDigit) ∧ fraction ≠ [] := by
  have zero : ∀ c ∈ ['0'], c.isDigit := isDigit_zeros 1
  unfold positional
  split
  · rename_i up
    refine ⟨digits ++ zeros exponent.toNat, ['0'], rfl, ?_, ?_, ?_, zero, List.cons_ne_nil _ _⟩
    · exact fun c member => (List.mem_append.mp member).elim (all c) (isDigit_zeros _ c)
    · rcases leads with ⟨rfl, alone⟩ | ⟨c, tail, rfl, nonzero⟩
      · simpa [zeros] using alone
      · exact .inr ⟨c, tail ++ zeros exponent.toNat, rfl, nonzero⟩
    · rw [List.length_append, zeros, List.length_replicate]
      omega
  · rename_i down
    obtain ⟨c, tail, rfl, nonzero⟩ := leads.resolve_left fun whole => down (Int.le_of_eq whole.1.symm)
    simp only
    split
    · rename_i inside
      refine ⟨_, _, rfl, ?_, ?_, ?_, ?_, ?_⟩
      · exact fun d member => all d (List.mem_of_mem_take member)
      · exact leads_take nonzero (Nat.sub_pos_of_lt inside)
      · rw [List.length_take]
        omega
      · exact fun d member => all d (List.mem_of_mem_drop member)
      · apply List.ne_nil_of_length_pos
        rw [List.length_drop]
        omega
    · refine ⟨['0'], _, rfl, zero, .inl rfl, by simp, ?_, ?_⟩
      · exact fun d member => (List.mem_append.mp member).elim (isDigit_zeros _ d) (all d)
      · exact List.append_ne_nil_of_right_ne_nil _ (List.cons_ne_nil c tail)

def unsigned (x : Binary64) : List Char := Binary64.render jsonStyle ⟨false, x.rank, x.rank_lt⟩

theorem render_signed (x : Binary64) :
    x.render jsonStyle = if x.negative then '-' :: unsigned x else unsigned x := by
  obtain ⟨negative, rank, small⟩ := x
  cases negative <;> rfl

theorem unsigned_eq (x : Binary64) {digits : List Char} (written : Nat.toDigits 10 x.shortest.digits = digits) :
    unsigned x =
      if -5 ≤ x.shortest.exponent + digits.length - 1 ∧ x.shortest.exponent + digits.length - 1 < 16 then
        positional jsonStyle digits x.shortest.exponent
      else scientific digits x.shortest.exponent := by
  subst written
  simp only [unsigned, Binary64.render, jsonStyle, Bool.and_eq_true, decide_eq_true_eq,
    Bool.false_eq_true, if_false]
  rfl

theorem leads_singleton (c : Char) : Leads [c] := by
  by_cases zero : c.toNat = 48
  · exact .inl (congrArg (fun c => [c]) (Char.toNat_inj.mp zero))
  · exact .inr ⟨c, [], rfl, zero⟩

theorem toDigits_least {n : Nat} (positive : 0 < n) {c : Char} {tail : List Char}
    (written : Nat.toDigits 10 n = c :: tail) : 10 ^ tail.length ≤ n := by
  cases tail with
  | nil => exact positive
  | cons d tail =>
    refine Nat.le_of_not_lt fun less => ?_
    have short := (Nat.length_toDigits_le_iff (by decide) (Nat.succ_pos tail.length)).mpr less
    rw [written, List.length_cons] at short
    exact Nat.not_succ_le_self _ short

theorem scientific_cons (c : Char) (tail : List Char) (exponent : Int) :
    scientific (c :: tail) exponent = [c] ++ (if (c :: tail).length = 1 then [] else '.' :: tail) ++
      'e' :: (if decide (exponent + (c :: tail).length - 1 < 0) then '-' else '+') ::
        Nat.toDigits 10 (exponent + (c :: tail).length - 1).natAbs := by
  simp [scientific]

theorem readNumber_pointed (negative : Bool) {c : Char} {tail : List Char} {exponent : Int}
    (all : ∀ d ∈ c :: tail, d.isDigit) (least : 10 ^ tail.length ≤ Nat.ofDigitChars 10 (c :: tail) 0)
    (room : 4 * one * (Nat.ofDigitChars 10 (c :: tail) 0 * 10 ^ exponent.toNat) ≤
      topWeight * (2 ^ 55 - 14) * 10 ^ (-exponent).toNat) :
    ∃ y, readNumber negative (Utf8.encode (scientific (c :: tail) exponent)) = .ok (.real y, []) := by
  rw [scientific_cons]
  generalize shown : exponent + (c :: tail).length - 1 = power
  rw [List.length_cons] at shown
  have within : decide (power < 0) = false →
      4 * one * (Nat.ofDigitChars 10 (c :: tail) 0 * 10 ^ (power.natAbs - tail.length)) ≤
        topWeight * (2 ^ 55 - 14) * 10 ^ (tail.length - power.natAbs) := by
    intro up
    have up := Int.not_lt.mp (of_decide_eq_false up)
    have above : power.natAbs - tail.length = exponent.toNat := by omega
    have below : tail.length - power.natAbs = (-exponent).toNat := by omega
    rw [above, below]
    exact room
  obtain ⟨y, valued⟩ :=
    value_scientific negative (decide (power < 0)) power.natAbs least (all c List.mem_cons_self) within
  exact ⟨y, readNumber_of_value negative
    (scanNumeral_scientific negative all (leads_singleton c) _ power.natAbs) valued⟩

/-- Printed with an exponent, a double keeps away from the end of the range as far as it does itself. -/
theorem readNumber_scientific (negative : Bool) {x : Binary64} (nonzero : x.rank ≠ 0)
    (room : x.rank ≤ 0x7FEFFFFFFFFFFFFC) :
    ∃ y, readNumber negative (Utf8.encode (scientific (Nat.toDigits 10 x.shortest.digits)
      x.shortest.exponent)) = .ok (.real y, []) := by
  have value : Nat.ofDigitChars 10 (Nat.toDigits 10 x.shortest.digits) 0 = x.shortest.digits :=
    Nat.ofDigitChars_ten_toDigits
  have within := Nat.le_trans (shortest_most nonzero) (Nat.mul_le_mul_right _ (high_le room))
  rw [Nat.mul_left_comm, ← value] at within
  have all := isDigit_toDigits x.shortest.digits
  have some : Nat.toDigits 10 x.shortest.digits ≠ [] :=
    List.ne_nil_of_length_pos Nat.length_toDigits_pos
  obtain ⟨c, tail, written⟩ := List.exists_cons_of_ne_nil some
  have least := toDigits_least (shortest_digits_pos nonzero) written
  rw [← value, written] at least
  rw [written] at all within ⊢
  exact readNumber_pointed negative all least within

def readsReal (negative : Bool) (chars : List Char) : Bool :=
  match readNumber negative (Utf8.encode chars) with
  | .ok (.real _, []) => true
  | _ => false

theorem readsReal_true {negative : Bool} {chars : List Char} (reads : readsReal negative chars) :
    ∃ y, readNumber negative (Utf8.encode chars) = .ok (.real y, []) := by
  unfold readsReal at reads
  split at reads
  · rename_i y read
    exact ⟨y, read⟩
  · cases reads

def top (k : Fin 3) : Binary64 := ⟨false, 0x7FEFFFFFFFFFFFFF - k, by omega⟩

theorem readsReal_top : ∀ negative k, readsReal negative (unsigned (top k)) := by decide +kernel

theorem readNumber_unsigned (negative : Bool) (x : Binary64) :
    ∃ y, readNumber negative (Utf8.encode (unsigned x)) = .ok (.real y, []) := by
  by_cases last : 0x7FEFFFFFFFFFFFFC < x.rank
  · have small := x.rank_lt
    obtain ⟨k, rank⟩ : ∃ k : Fin 3, x.rank = 0x7FEFFFFFFFFFFFFF - k :=
      ⟨⟨0x7FEFFFFFFFFFFFFF - x.rank, by omega⟩, by simp only; omega⟩
    have same : unsigned x = unsigned (top k) := by simp only [unsigned, top, rank]
    rw [same]
    exact readsReal_true (readsReal_top negative k)
  rw [unsigned_eq x rfl]
  split
  · rename_i plain
    have leads : x.shortest.exponent = 0 ∧ Leads (Nat.toDigits 10 x.shortest.digits) ∨
        ∃ c tail, Nat.toDigits 10 x.shortest.digits = c :: tail ∧ c.toNat ≠ 48 := by
      by_cases zero : x.rank = 0
      · have searched : x.shortest = ⟨0, 0⟩ := if_pos zero
        rw [searched]
        exact .inl ⟨rfl, .inl rfl⟩
      · exact .inr (toDigits_head (shortest_digits_pos zero))
    obtain ⟨whole, fraction, shape, digits, first, few, digits', some⟩ :=
      positional_shape (isDigit_toDigits _) leads (by omega)
    rw [shape]
    exact readNumber_plain negative digits first few digits' some
  · rename_i exponential
    refine readNumber_scientific negative (fun zero => exponential ?_) (Nat.le_of_not_lt last)
    have searched : x.shortest = ⟨0, 0⟩ := if_pos zero
    rw [searched]
    decide

end Printing

end FramedJson.Json
