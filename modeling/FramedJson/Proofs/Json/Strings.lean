import FramedJson.Json.Printer
import FramedJson.Json.Reader
import FramedJson.Proofs.Text.Utf8

namespace FramedJson.Json

def digitByte (n : Nat) : UInt8 := UInt8.ofNat (Nat.digitChar n).toNat

theorem digitByte_facts : ∀ n, n < 16 →
    String.utf8EncodeChar (Nat.digitChar n) = [digitByte n] ∧
    Hexadecimal.value? (digitByte n).toNat = some n := by decide

theorem readHex_byte {n : Nat} (small : n < 0x100) (rest : List UInt8) :
    readHex (48 :: 48 :: digitByte (n / 16) :: digitByte (n % 16) :: rest) = .ok (n, rest) := by
  have zero : Hexadecimal.value? (48 : UInt8).toNat = some 0 := by decide
  have high := (digitByte_facts (n / 16) (by omega)).2
  have low := (digitByte_facts (n % 16) (by omega)).2
  have whole : ((0 * 16 + 0) * 16 + n / 16) * 16 + n % 16 = n := by omega
  simp only [readHex, zero, high, low, whole]

theorem eq_ofNat_of_toNat {c : Char} {n : Nat} (h : c.toNat = n) : c = Char.ofNat n := by
  rw [← h, Char.ofNat_toNat]

theorem readEscape_escapeChar (c : Char) (special : c = '"' ∨ c = '\\' ∨ c.toNat < 0x20) :
    ∃ body, Utf8.encode (escapeChar c) = 92 :: body ∧
      ∀ rest, readEscape (body ++ rest) = .ok (c, rest) := by
  by_cases quote : c = '"'
  · subst quote
    exact ⟨[34], by decide, fun rest => rfl⟩
  by_cases backslash : c = '\\'
  · subst backslash
    exact ⟨[92], by decide, fun rest => rfl⟩
  have control : c.toNat < 0x20 := by
    rcases special with h | h | h
    · exact absurd h quote
    · exact absurd h backslash
    · exact h
  simp only [escapeChar, if_neg quote, if_neg backslash, if_neg (Nat.not_le_of_lt control)]
  split
  · rename_i h
    exact ⟨[98], by decide, fun rest => by rw [eq_ofNat_of_toNat h]; rfl⟩
  split
  · rename_i h
    exact ⟨[116], by decide, fun rest => by rw [eq_ofNat_of_toNat h]; rfl⟩
  split
  · rename_i h
    exact ⟨[110], by decide, fun rest => by rw [eq_ofNat_of_toNat h]; rfl⟩
  split
  · rename_i h
    exact ⟨[102], by decide, fun rest => by rw [eq_ofNat_of_toNat h]; rfl⟩
  split
  · rename_i h
    exact ⟨[114], by decide, fun rest => by rw [eq_ofNat_of_toNat h]; rfl⟩
  · have high := (digitByte_facts (c.toNat / 16) (by omega)).1
    have low := (digitByte_facts (c.toNat % 16) (by omega)).1
    refine ⟨[117, 48, 48, digitByte (c.toNat / 16), digitByte (c.toNat % 16)], ?_, fun rest => ?_⟩
    · simp only [Utf8.encode_cons, Utf8.encode_nil, high, low]
      rfl
    · have hex := readHex_byte (n := c.toNat) (by omega) rest
      simp only [List.cons_append, List.nil_append, readEscape, hex, bind, Except.bind]
      rw [if_neg (by omega), if_neg (by omega), Char.ofNat_toNat]
      rfl

theorem readChars_escape {budget : Nat} {bytes rest after : List UInt8} {c : Char}
    {chars : List Char} (escape : readEscape bytes = .ok (c, rest))
    (more : readChars budget none rest = .ok (chars, after)) :
    readChars (budget + 1) none (92 :: bytes) = .ok (c :: chars, after) := by
  have quote : ¬ (92 : UInt8) = 34 := by decide
  simp only [readChars, if_neg quote, if_true, escape, bind, Except.bind, more]
  rfl

theorem encodeChar_plain {c : Char} (quote : c ≠ '"') (backslash : c ≠ '\\')
    (printable : 0x20 ≤ c.toNat) :
    ∃ first tail, String.utf8EncodeChar c = first :: tail ∧
      first ≠ 34 ∧ first ≠ 92 ∧ ¬ first < 32 := by
  by_cases ascii : c.toNat < 0x80
  · have code : (UInt8.ofNat c.toNat).toNat = c.toNat := Utf8.toNat_ofNat (by omega)
    refine ⟨UInt8.ofNat c.toNat, [], Utf8.encodeChar_ascii ascii, ?_, ?_, ?_⟩
    · intro same
      apply quote
      have number : c.toNat = 34 := by rw [← code, same]; rfl
      exact eq_ofNat_of_toNat number
    · intro same
      apply backslash
      have number : c.toNat = 92 := by rw [← code, same]; rfl
      exact eq_ofNat_of_toNat number
    · rw [UInt8.lt_iff_toNat_lt, code]
      exact Nat.not_lt_of_le printable
  · obtain ⟨lead, tail, bytes, high⟩ := Utf8.encodeChar_wide (Nat.le_of_not_lt ascii)
    refine ⟨lead, tail, bytes, ?_, ?_, ?_⟩
    · rintro rfl
      exact absurd high (by decide)
    · rintro rfl
      exact absurd high (by decide)
    · rw [UInt8.lt_iff_toNat_lt]
      exact Nat.not_lt_of_le (Nat.le_trans (by decide) high)

theorem readChars_plain {budget : Nat} {rest after : List UInt8} {c : Char} {chars : List Char}
    (quote : c ≠ '"') (backslash : c ≠ '\\') (printable : 0x20 ≤ c.toNat)
    (more : readChars budget none rest = .ok (chars, after)) :
    readChars (budget + 1) none (String.utf8EncodeChar c ++ rest) = .ok (c :: chars, after) := by
  have decoded := Utf8.decodeChar?_encodeChar c rest
  obtain ⟨first, tail, bytes, h34, h92, h32⟩ := encodeChar_plain quote backslash printable
  rw [bytes] at decoded ⊢
  simp only [List.cons_append] at decoded ⊢
  simp only [readChars, if_neg h34, if_neg h92, if_neg h32, decoded, bind, Except.bind, more]
  rfl

theorem readChars_escapeChar {budget : Nat} {rest after : List UInt8} (c : Char)
    {chars : List Char} (more : readChars budget none rest = .ok (chars, after)) :
    readChars (budget + 1) none (Utf8.encode (escapeChar c) ++ rest) =
      .ok (c :: chars, after) := by
  by_cases special : c = '"' ∨ c = '\\' ∨ c.toNat < 0x20
  · obtain ⟨body, bytes, escape⟩ := readEscape_escapeChar c special
    rw [bytes, List.cons_append]
    exact readChars_escape (escape rest) more
  · simp only [not_or, Nat.not_lt] at special
    have plain : escapeChar c = [c] := by
      rw [escapeChar, if_neg special.1, if_neg special.2.1, if_pos special.2.2]
    rw [plain, Utf8.encode_cons, Utf8.encode_nil, List.append_nil]
    exact readChars_plain special.1 special.2.1 special.2.2 more

/-- The budget need only exceed the number of characters. -/
theorem readChars_text (chars : List Char) (rest : List UInt8) {budget : Nat}
    (enough : chars.length < budget) :
    readChars budget none (Utf8.encode (chars.flatMap escapeChar) ++ 34 :: rest) =
      .ok (chars, rest) := by
  induction chars generalizing budget with
  | nil =>
    cases budget with
    | zero => exact absurd enough (Nat.not_lt_zero _)
    | succ budget => rfl
  | cons c chars ih =>
    cases budget with
    | zero => exact absurd enough (Nat.not_lt_zero _)
    | succ budget =>
      have tail := ih (Nat.lt_of_succ_lt_succ enough)
      rw [List.flatMap_cons, Utf8.encode_append, List.append_assoc]
      exact readChars_escapeChar c tail

theorem escapeChar_ne_nil (c : Char) : escapeChar c ≠ [] := by
  unfold escapeChar
  repeat' split
  all_goals exact List.cons_ne_nil _ _

theorem readString_renderString (text : String) (rest : List UInt8) :
    ∃ body, Utf8.encode (renderString text) = 34 :: body ∧
      readString (body ++ rest) = .ok (text, rest) := by
  refine ⟨Utf8.encode (text.toList.flatMap escapeChar) ++ [34], ?_, ?_⟩
  · rw [renderString, Utf8.encode_cons, Utf8.encode_append]
    rfl
  · have longer : text.toList.length ≤ (Utf8.encode (text.toList.flatMap escapeChar)).length :=
      Nat.le_trans (Utf8.length_le_flatMap escapeChar_ne_nil _) (Utf8.length_le_encode _)
    have enough : text.toList.length <
        (Utf8.encode (text.toList.flatMap escapeChar) ++ 34 :: rest).length + 1 := by
      rw [List.length_append]
      omega
    have read := readChars_text text.toList rest enough
    rw [List.append_assoc, List.singleton_append]
    simp only [readString, read, bind, Except.bind, String.ofList_toList]
    rfl

end FramedJson.Json
