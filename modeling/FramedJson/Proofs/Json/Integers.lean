import FramedJson.Json.Numeral
import FramedJson.Json.Printer
import FramedJson.Proofs.Text.Utf8

namespace FramedJson.Json

/-- Nothing at the front of `rest` could still belong to a number. -/
def EndsNumber (rest : List UInt8) : Prop :=
  ∀ byte ∈ rest.head?, isDigit byte = false ∧ byte ≠ 46 ∧ byte ≠ 101 ∧ byte ≠ 69

theorem endsNumber_nil : EndsNumber [] := by
  intro byte h
  cases h

theorem endsNumber_cons (byte : UInt8) (rest : List UInt8)
    (h : isDigit byte = false ∧ byte ≠ 46 ∧ byte ≠ 101 ∧ byte ≠ 69) : EndsNumber (byte :: rest) := by
  intro other same
  cases same
  exact h

def EndsDigits (rest : List UInt8) : Prop := ∀ byte ∈ rest.head?, isDigit byte = false

theorem EndsNumber.digits {rest : List UInt8} (ends : EndsNumber rest) : EndsDigits rest :=
  fun byte first => (ends byte first).1

def digitValue (c : Char) : Nat := c.toNat - 48

theorem digit_range {c : Char} (digit : c.isDigit) : 48 ≤ c.toNat ∧ c.toNat ≤ 57 :=
  Char.isDigit_iff_toNat.mp digit

section Digits

variable {chars : List Char} (digits : ∀ c ∈ chars, c.isDigit)
include digits

theorem encode_digits : Utf8.encode chars = chars.map fun c => UInt8.ofNat c.toNat := by
  induction chars with
  | nil => rfl
  | cons c chars ih =>
    have range := digit_range (digits c List.mem_cons_self)
    have tail := ih fun d member => digits d (List.mem_cons_of_mem c member)
    rw [Utf8.encode_cons, Utf8.encodeChar_ascii (by omega), tail]
    rfl

theorem digit_byte {byte : UInt8} (member : byte ∈ Utf8.encode chars) :
    isDigit byte ∧ ∃ c ∈ chars, byte.toNat = c.toNat := by
  rw [encode_digits digits] at member
  obtain ⟨c, present, rfl⟩ := List.mem_map.mp member
  have range := digit_range (digits c present)
  have code : (UInt8.ofNat c.toNat).toNat = c.toNat := Utf8.toNat_ofNat (by omega)
  refine ⟨?_, c, present, code⟩
  rw [isDigit, code, Bool.and_eq_true, decide_eq_true_eq, decide_eq_true_eq]
  exact range

theorem takeDigits_encode {rest : List UInt8} (ends : EndsDigits rest) :
    takeDigits (Utf8.encode chars ++ rest) = (chars.map digitValue, rest) := by
  have all : ∀ byte ∈ Utf8.encode chars, isDigit byte := fun byte member =>
    (digit_byte digits member).1
  have stops : rest.takeWhile isDigit = [] ∧ rest.dropWhile isDigit = rest := by
    cases rest with
    | nil => exact ⟨rfl, rfl⟩
    | cons byte rest =>
      have other := ends byte rfl
      simp only [List.takeWhile_cons, List.dropWhile_cons, other]
      exact ⟨rfl, rfl⟩
  have values : (Utf8.encode chars).map (fun byte => byte.toNat - 48) = chars.map digitValue := by
    rw [encode_digits digits, List.map_map]
    apply List.map_congr_left
    intro c member
    have range := digit_range (digits c member)
    simp only [Function.comp, Utf8.toNat_ofNat (n := c.toNat) (by omega), digitValue]
  rw [takeDigits, List.takeWhile_append_of_pos all, List.dropWhile_append_of_pos all, stops.1,
    stops.2, List.append_nil, values]

end Digits

theorem isDigit_toDigits (n : Nat) : ∀ c ∈ Nat.toDigits 10 n, c.isDigit := fun _ member =>
  Nat.isDigit_of_mem_toDigits (by decide) (by decide) member

theorem toDigits_opens (n : Nat) :
    ∃ byte tail, Utf8.encode (Nat.toDigits 10 n) = byte :: tail ∧ isDigit byte := by
  cases shape : Utf8.encode (Nat.toDigits 10 n) with
  | nil =>
    have longer := Utf8.length_le_encode (Nat.toDigits 10 n)
    rw [shape] at longer
    exact absurd longer (Nat.not_le_of_lt Nat.length_toDigits_pos)
  | cons byte tail =>
    have member : byte ∈ Utf8.encode (Nat.toDigits 10 n) := by
      rw [shape]
      exact List.mem_cons_self
    exact ⟨byte, tail, rfl, (digit_byte (isDigit_toDigits n) member).1⟩

theorem toDigits_head {n : Nat} (positive : 0 < n) :
    ∃ c rest, Nat.toDigits 10 n = c :: rest ∧ c.toNat ≠ 48 := by
  induction n using Nat.strongRecOn with
  | _ n ih =>
    by_cases small : n < 10
    · refine ⟨_, [], Nat.toDigits_of_lt_base small, ?_⟩
      rw [Nat.toNat_digitChar_of_lt_ten small]
      omega
    · obtain ⟨c, rest, head, nonzero⟩ := ih (n / 10) (by omega) (by omega)
      refine ⟨c, rest ++ [Nat.digitChar (n % 10)], ?_, nonzero⟩
      rw [Nat.toDigits_of_base_le (by decide) (Nat.le_of_not_lt small), head, List.cons_append]

def Leads (chars : List Char) : Prop :=
  chars = ['0'] ∨ ∃ c tail, chars = c :: tail ∧ c.toNat ≠ 48

theorem leads_toDigits (n : Nat) : Leads (Nat.toDigits 10 n) := by
  cases n with
  | zero => exact .inl rfl
  | succ n => exact .inr (toDigits_head (Nat.succ_pos n))

theorem scanWhole_digits {chars : List Char} (digits : ∀ c ∈ chars, c.isDigit) (leads : Leads chars)
    {rest : List UInt8} (ends : EndsDigits rest) :
    scanWhole (Utf8.encode chars ++ rest) = .ok (chars.map digitValue, rest) := by
  have taken := takeDigits_encode digits ends
  rcases leads with rfl | ⟨c, tail, rfl, nonzero⟩
  · have zero : Utf8.encode ['0'] = [48] := by decide
    rw [zero]
    cases rest with
    | nil => rfl
    | cons byte rest =>
      have other := ends byte rfl
      simp only [List.singleton_append, scanWhole, other]
      rfl
  · have range := digit_range (digits c List.mem_cons_self)
    have code : (UInt8.ofNat c.toNat).toNat = c.toNat := Utf8.toNat_ofNat (by omega)
    have first : Utf8.encode (c :: tail) = UInt8.ofNat c.toNat :: Utf8.encode tail := by
      rw [Utf8.encode_cons, Utf8.encodeChar_ascii (by omega)]
      rfl
    have member : UInt8.ofNat c.toNat ∈ Utf8.encode (c :: tail) := by
      rw [first]
      exact List.mem_cons_self
    have digit := (digit_byte digits member).1
    have notZero : ¬ UInt8.ofNat c.toNat = 48 := by
      intro same
      apply nonzero
      rw [← code, same]
      rfl
    rw [first, List.cons_append] at taken ⊢
    simp only [scanWhole, if_neg notZero, digit, if_true, taken]

theorem scanFraction_ends {rest : List UInt8} (ends : EndsNumber rest) :
    scanFraction rest = .ok ([], rest) := by
  cases rest with
  | nil => rfl
  | cons byte rest =>
    have point := (ends byte rfl).2.1
    unfold scanFraction
    split
    · rename_i same
      exact absurd (List.cons.inj same).1 point
    · rfl

theorem scanExponent_ends {rest : List UInt8} (ends : EndsNumber rest) :
    scanExponent rest = .ok (none, rest) := by
  cases rest with
  | nil => rfl
  | cons byte rest =>
    have mark : ¬ (byte = 101 ∨ byte = 69) := not_or.mpr (ends byte rfl).2.2
    simp only [scanExponent, if_neg mark]

theorem scanNumeral_toDigits (negative : Bool) (n : Nat) {rest : List UInt8}
    (ends : EndsNumber rest) :
    scanNumeral negative (Utf8.encode (Nat.toDigits 10 n) ++ rest) =
      .ok (⟨negative, (Nat.toDigits 10 n).map digitValue, [], none⟩, rest) := by
  have whole := scanWhole_digits (isDigit_toDigits n) (leads_toDigits n) ends.digits
  simp only [scanNumeral, whole, scanFraction_ends ends, scanExponent_ends ends, bind, Except.bind]
  rfl

theorem ofDigitChars_digit (c : Char) (chars : List Char) (init : Nat) :
    Nat.ofDigitChars 10 (c :: chars) init =
      Nat.ofDigitChars 10 chars (init * 10 + digitValue c) := by
  rw [Nat.ofDigitChars_cons, Nat.mul_comm]
  rfl

theorem ofDigitChars_least (chars : List Char) (init : Nat) :
    init * 10 ^ chars.length ≤ Nat.ofDigitChars 10 chars init := by
  rw [Nat.ofDigitChars_eq_ofDigitChars_zero, Nat.mul_comm]
  exact Nat.le_add_right _ _

theorem le_ofDigitChars (chars : List Char) (init : Nat) :
    init ≤ Nat.ofDigitChars 10 chars init :=
  Nat.le_trans (Nat.le_mul_of_pos_right init (Nat.pow_pos (by decide))) (ofDigitChars_least chars init)

theorem absorbWhole_digits (chars : List Char) (init : Nat)
    (fits : Nat.ofDigitChars 10 chars init < 2 ^ 64) :
    Numeral.absorbWhole init 0 (chars.map digitValue) = (Nat.ofDigitChars 10 chars init, 0) := by
  induction chars generalizing init with
  | nil => rfl
  | cons c chars ih =>
    rw [ofDigitChars_digit] at fits ⊢
    have small := Nat.lt_of_le_of_lt (le_ofDigitChars chars (init * 10 + digitValue c)) fits
    rw [List.map_cons, Numeral.absorbWhole, if_pos ⟨rfl, small⟩]
    exact ih _ fits

theorem value_toDigits {negative : Bool} {n : Nat} {v : Int}
    (signed : v = if negative then -(n : Int) else n) (proper : negative → n ≠ 0)
    (inRange : -2 ^ 63 ≤ v ∧ v < 2 ^ 64) :
    Numeral.value ⟨negative, (Nat.toDigits 10 n).map digitValue, [], none⟩ =
      .ok (.int v inRange) := by
  have small : n < 2 ^ 64 := by
    cases negative with
    | true => simp only [if_true] at signed; omega
    | false => simp only [Bool.false_eq_true, if_false] at signed; omega
  have digits : Nat.ofDigitChars 10 (Nat.toDigits 10 n) 0 = n := Nat.ofDigitChars_ten_toDigits
  have absorbed := absorbWhole_digits (Nat.toDigits 10 n) 0 (by rw [digits]; exact small)
  rw [digits] at absorbed
  have whole : ¬ (negative = true ∧ n = 0) := fun zero => proper zero.1 zero.2
  simp only [Numeral.value, absorbed, whole, not_false_eq_true, and_self, if_true, ← signed,
    Number.ofInt?, dif_pos inRange]

theorem readNumber_toDigits (negative : Bool) {n : Nat} {v : Int} {rest : List UInt8}
    (signed : v = if negative then -(n : Int) else n) (proper : negative → n ≠ 0)
    (inRange : -2 ^ 63 ≤ v ∧ v < 2 ^ 64) (ends : EndsNumber rest) :
    readNumber negative (Utf8.encode (Nat.toDigits 10 n) ++ rest) =
      .ok (.int v inRange, rest) := by
  simp only [readNumber, scanNumeral_toDigits negative n ends, bind, Except.bind,
    value_toDigits signed proper inRange]
  rfl

end FramedJson.Json
