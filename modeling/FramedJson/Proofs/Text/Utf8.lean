import FramedJson.Text.Utf8

namespace FramedJson.Utf8

@[simp] theorem encode_nil : encode [] = [] := rfl

@[simp] theorem encode_cons (c : Char) (chars : List Char) :
    encode (c :: chars) = String.utf8EncodeChar c ++ encode chars := rfl

@[simp] theorem encode_append (xs ys : List Char) : encode (xs ++ ys) = encode xs ++ encode ys :=
  List.flatMap_append

theorem length_le_flatMap {α : Type u} {β : Type v} {f : α → List β} (written : ∀ a, f a ≠ [])
    (xs : List α) : xs.length ≤ (xs.flatMap f).length := by
  induction xs with
  | nil => exact Nat.le_refl _
  | cons x rest ih =>
    have head : 0 < (f x).length := List.length_pos_iff.mpr (written x)
    simp only [List.flatMap_cons, List.length_append, List.length_cons]
    omega

theorem length_le_encode (chars : List Char) : chars.length ≤ (encode chars).length :=
  length_le_flatMap (fun _ => String.utf8EncodeChar_ne_nil) chars

theorem toNat_ofNat {n : Nat} (small : n < 256) : (UInt8.ofNat n).toNat = n := by
  rw [UInt8.toNat_ofNat']
  exact Nat.mod_eq_of_lt small

theorem encodeChar_ascii {c : Char} (ascii : c.toNat < 0x80) :
    String.utf8EncodeChar c = [UInt8.ofNat c.toNat] := by
  have low : c.val.toNat ≤ 0x7f := Nat.le_of_lt_succ ascii
  rw [String.utf8EncodeChar, if_pos low]
  rfl

theorem encodeChar_wide {c : Char} (wide : 0x80 ≤ c.toNat) :
    ∃ lead rest, String.utf8EncodeChar c = lead :: rest ∧ 0xC0 ≤ lead.toNat := by
  have high : ¬ c.val.toNat ≤ 0x7f := Nat.not_le_of_lt wide
  simp only [String.utf8EncodeChar, if_neg high]
  split
  · exact ⟨_, _, rfl, by rw [toNat_ofNat (by omega)]; omega⟩
  · split
    · exact ⟨_, _, rfl, by rw [toNat_ofNat (by omega)]; omega⟩
    · exact ⟨_, _, rfl, by rw [toNat_ofNat (by omega)]; omega⟩

theorem toNat_lt (c : Char) : c.toNat < 0x110000 := by
  have valid : c.toNat < 0xD800 ∨ 0xDFFF < c.toNat ∧ c.toNat < 0x110000 := c.valid
  omega

theorem tail?_ofNat (n : Nat) : tail? (UInt8.ofNat (n % 0x40 + 0x80)) = some (n % 0x40) := by
  have code : (UInt8.ofNat (n % 0x40 + 0x80)).toNat = n % 0x40 + 0x80 := toNat_ofNat (by omega)
  rw [tail?, code, if_pos (by omega), Nat.add_sub_cancel]

theorem scalar?_toNat (c : Char) {least : Nat} (enough : least ≤ c.toNat) :
    scalar? least c.toNat = some c := by
  have valid : c.toNat.isValidChar := c.valid
  rw [scalar?, if_pos ⟨enough, valid⟩, Char.ofNat_toNat]

section Lead

variable {lead a b c : UInt8} {x y z : Nat} {char : Char} (rest : List UInt8)

theorem decodeChar?_one (range : lead.toNat < 0x80) :
    decodeChar? (lead :: rest) = some (Char.ofNat lead.toNat, rest) := by
  simp only [decodeChar?, if_pos range]

theorem decodeChar?_two (range : 0xC0 ≤ lead.toNat ∧ lead.toNat < 0xE0) (low : tail? a = some x)
    (found : scalar? 0x80 ((lead.toNat - 0xC0) * 0x40 + x) = some char) :
    decodeChar? (lead :: a :: rest) = some (char, rest) := by
  simp only [decodeChar?]
  rw [if_neg (by omega), if_neg (by omega), if_pos (by omega)]
  simp only [Option.bind_eq_bind, Option.bind_eq_some_iff]
  exact ⟨x, low, char, found, rfl⟩

theorem decodeChar?_three (range : 0xE0 ≤ lead.toNat ∧ lead.toNat < 0xF0) (high : tail? a = some x)
    (low : tail? b = some y)
    (found : scalar? 0x800 ((lead.toNat - 0xE0) * 0x1000 + x * 0x40 + y) = some char) :
    decodeChar? (lead :: a :: b :: rest) = some (char, rest) := by
  simp only [decodeChar?]
  rw [if_neg (by omega), if_neg (by omega), if_neg (by omega), if_pos (by omega)]
  simp only [Option.bind_eq_bind, Option.bind_eq_some_iff]
  exact ⟨x, high, y, low, char, found, rfl⟩

theorem decodeChar?_four (range : 0xF0 ≤ lead.toNat ∧ lead.toNat < 0xF8) (high : tail? a = some x)
    (middle : tail? b = some y) (low : tail? c = some z)
    (found : scalar? 0x10000
      ((lead.toNat - 0xF0) * 0x40000 + x * 0x1000 + y * 0x40 + z) = some char) :
    decodeChar? (lead :: a :: b :: c :: rest) = some (char, rest) := by
  simp only [decodeChar?]
  rw [if_neg (by omega), if_neg (by omega), if_neg (by omega), if_neg (by omega),
    if_pos (by omega)]
  simp only [Option.bind_eq_bind, Option.bind_eq_some_iff]
  exact ⟨x, high, y, middle, z, low, char, found, rfl⟩

end Lead

/-- The four lengths of an encoded character are the four ways to read one. -/
theorem decodeChar?_encodeChar (c : Char) (rest : List UInt8) :
    decodeChar? (String.utf8EncodeChar c ++ rest) = some (c, rest) := by
  have bound : c.toNat < 0x110000 := toNat_lt c
  have value : c.val.toNat = c.toNat := rfl
  simp only [String.utf8EncodeChar, value]
  split
  · have lead : (UInt8.ofNat c.toNat).toNat = c.toNat := toNat_ofNat (by omega)
    rw [List.singleton_append, decodeChar?_one rest (by omega), lead, Char.ofNat_toNat]
  · split
    · have lead : (UInt8.ofNat (c.toNat / 64 % 0x20 + 0xC0)).toNat = c.toNat / 64 + 0xC0 := by
        rw [toNat_ofNat (by omega)]
        omega
      have whole : (c.toNat / 64 + 0xC0 - 0xC0) * 0x40 + c.toNat % 0x40 = c.toNat := by omega
      apply decodeChar?_two rest (by omega) (tail?_ofNat c.toNat)
      rw [lead, whole]
      exact scalar?_toNat c (by omega)
    · split
      · have lead : (UInt8.ofNat (c.toNat / 4096 % 0x10 + 0xE0)).toNat =
            c.toNat / 4096 + 0xE0 := by
          rw [toNat_ofNat (by omega)]
          omega
        have whole : (c.toNat / 4096 + 0xE0 - 0xE0) * 0x1000 + c.toNat / 64 % 0x40 * 0x40 +
            c.toNat % 0x40 = c.toNat := by omega
        apply decodeChar?_three rest (by omega) (tail?_ofNat (c.toNat / 64)) (tail?_ofNat c.toNat)
        rw [lead, whole]
        exact scalar?_toNat c (by omega)
      · have lead : (UInt8.ofNat (c.toNat / 262144 % 0x08 + 0xF0)).toNat =
            c.toNat / 262144 + 0xF0 := by
          rw [toNat_ofNat (by omega)]
          omega
        have whole : (c.toNat / 262144 + 0xF0 - 0xF0) * 0x40000 + c.toNat / 4096 % 0x40 * 0x1000 +
            c.toNat / 64 % 0x40 * 0x40 + c.toNat % 0x40 = c.toNat := by omega
        apply decodeChar?_four rest (by omega) (tail?_ofNat (c.toNat / 4096))
          (tail?_ofNat (c.toNat / 64)) (tail?_ofNat c.toNat)
        rw [lead, whole]
        exact scalar?_toNat c (by omega)

theorem decodeChar?_append {bytes rest : List UInt8} {c : Char}
    (decoded : decodeChar? bytes = some (c, rest)) (more : List UInt8) :
    decodeChar? (bytes ++ more) = some (c, rest ++ more) := by
  cases bytes with
  | nil => cases decoded
  | cons lead bytes =>
    simp only [decodeChar?] at decoded
    split at decoded
    · rename_i one
      cases decoded
      exact decodeChar?_one _ one
    · split at decoded
      · cases decoded
      · split at decoded
        · rename_i notOne low two
          split at decoded
          · obtain ⟨x, tail, decoded⟩ := Option.bind_eq_some_iff.mp decoded
            obtain ⟨c, found, done⟩ := Option.bind_eq_some_iff.mp decoded
            cases done
            exact decodeChar?_two _ ⟨Nat.le_of_not_lt low, two⟩ tail found
          · cases decoded
        · split at decoded
          · rename_i low three
            split at decoded
            · obtain ⟨x, high, decoded⟩ := Option.bind_eq_some_iff.mp decoded
              obtain ⟨y, tail, decoded⟩ := Option.bind_eq_some_iff.mp decoded
              obtain ⟨c, found, done⟩ := Option.bind_eq_some_iff.mp decoded
              cases done
              exact decodeChar?_three _ ⟨Nat.le_of_not_lt low, three⟩ high tail found
            · cases decoded
          · split at decoded
            · rename_i low four
              split at decoded
              · obtain ⟨x, high, decoded⟩ := Option.bind_eq_some_iff.mp decoded
                obtain ⟨y, middle, decoded⟩ := Option.bind_eq_some_iff.mp decoded
                obtain ⟨z, tail, decoded⟩ := Option.bind_eq_some_iff.mp decoded
                obtain ⟨c, found, done⟩ := Option.bind_eq_some_iff.mp decoded
                cases done
                exact decodeChar?_four _ ⟨Nat.le_of_not_lt low, four⟩ high middle tail found
              · cases decoded
            · cases decoded

end FramedJson.Utf8
