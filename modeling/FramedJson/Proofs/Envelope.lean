import FramedJson.Envelope
import FramedJson.Proofs.Text.Utf8

namespace FramedJson.Envelope

theorem idOfBytes_split (id : UInt32) :
    idOfBytes (UInt8.ofNat (id.toNat / 0x1000000)) (UInt8.ofNat (id.toNat / 0x10000 % 0x100))
      (UInt8.ofNat (id.toNat / 0x100 % 0x100)) (UInt8.ofNat (id.toNat % 0x100)) = id := by
  have bound := id.toNat_lt
  have whole : id.toNat / 0x1000000 * 0x1000000 + id.toNat / 0x10000 % 0x100 * 0x10000 +
      id.toNat / 0x100 % 0x100 * 0x100 + id.toNat % 0x100 = id.toNat := by omega
  rw [idOfBytes, Utf8.toNat_ofNat (n := id.toNat / 0x1000000) (by omega),
    Utf8.toNat_ofNat (n := id.toNat / 0x10000 % 0x100) (by omega),
    Utf8.toNat_ofNat (n := id.toNat / 0x100 % 0x100) (by omega),
    Utf8.toNat_ofNat (n := id.toNat % 0x100) (by omega), whole, UInt32.ofNat_toNat]

theorem decode_encode (id : UInt32) {payload : List UInt8} (some : payload ≠ []) :
    decode (encode ⟨id, payload⟩) = .ok ⟨id, payload⟩ := by
  cases payload with
  | nil => exact absurd rfl some
  | cons first rest =>
    simp only [encode, idBytes, List.cons_append, List.nil_append, decode, if_true,
      idOfBytes_split]

theorem toNat_idOfBytes (a b c d : UInt8) :
    (idOfBytes a b c d).toNat =
      a.toNat * 0x1000000 + b.toNat * 0x10000 + c.toNat * 0x100 + d.toNat := by
  have bounds : a.toNat < 256 ∧ b.toNat < 256 ∧ c.toNat < 256 ∧ d.toNat < 256 :=
    ⟨a.toNat_lt, b.toNat_lt, c.toNat_lt, d.toNat_lt⟩
  apply UInt32.toNat_ofNat_of_lt'
  simp only [UInt32.size]
  omega

def bigEndian (bytes : List UInt8) : Nat := bytes.foldl (fun n byte => n * 256 + byte.toNat) 0

theorem idOfBytes_bigEndian (a b c d : UInt8) :
    (idOfBytes a b c d).toNat = bigEndian [a, b, c, d] := by
  rw [toNat_idOfBytes]
  simp only [bigEndian, List.foldl_cons, List.foldl_nil]
  omega

theorem idBytes_join (a b c d : UInt8) : idBytes (idOfBytes a b c d) = [a, b, c, d] := by
  have bounds : a.toNat < 256 ∧ b.toNat < 256 ∧ c.toNat < 256 ∧ d.toNat < 256 :=
    ⟨a.toNat_lt, b.toNat_lt, c.toNat_lt, d.toNat_lt⟩
  have digits : ∀ byte : UInt8, ∀ n, n = byte.toNat → UInt8.ofNat n = byte := by
    rintro byte n rfl
    exact UInt8.ofNat_toNat
  simp only [idBytes, toNat_idOfBytes, List.cons.injEq, and_true]
  refine ⟨digits a _ ?_, digits b _ ?_, digits c _ ?_, digits d _ ?_⟩
  all_goals omega

theorem idBytes_injective {id other : UInt32} (same : idBytes id = idBytes other) : id = other := by
  simp only [idBytes, List.cons.injEq, and_true] at same
  obtain ⟨first, second, third, fourth⟩ := same
  rw [← idOfBytes_split id, first, second, third, fourth, idOfBytes_split]

theorem encode_unique {envelope other : Envelope} (same : encode envelope = encode other) :
    envelope = other := by
  have parts := List.append_inj (List.cons.inj same).2 rfl
  have id := idBytes_injective parts.1
  cases envelope
  cases other
  simp only [mk.injEq]
  exact ⟨id, parts.2⟩

theorem short_or_headed (data : List UInt8) : data.length ≤ headerLength ∨
    ∃ lead a b c d first rest, data = lead :: a :: b :: c :: d :: first :: rest := by
  match data with
  | [] | [_] | [_, _] | [_, _, _] | [_, _, _, _] | [_, _, _, _, _] =>
    left
    simp [headerLength]
  | lead :: a :: b :: c :: d :: first :: rest =>
    exact .inr ⟨lead, a, b, c, d, first, rest, rfl⟩

theorem decode_short {data : List UInt8} (short : data.length ≤ headerLength) :
    decode data = .error (.tooShort data.length) := by
  unfold decode
  split
  · simp only [headerLength, List.length_cons] at short
    omega
  · rfl

theorem decode_headed (lead a b c d first : UInt8) (rest : List UInt8) :
    decode (lead :: a :: b :: c :: d :: first :: rest) =
      if lead = magic then .ok ⟨idOfBytes a b c d, first :: rest⟩
      else .error (.unexpectedMagic lead) := rfl

theorem misframed_or_frame (lead : UInt8) (rest : List UInt8) :
    (∃ fault, ∀ a b c d, decode (lead :: a :: b :: c :: d :: rest) = .error fault) ∨
    lead = magic ∧ rest ≠ [] ∧
      ∀ a b c d, lead :: a :: b :: c :: d :: rest = encode ⟨idOfBytes a b c d, rest⟩ := by
  cases rest with
  | nil => exact .inl ⟨.tooShort headerLength, fun _ _ _ _ => rfl⟩
  | cons first rest =>
    by_cases opens : lead = magic
    · refine .inr ⟨opens, List.cons_ne_nil first rest, fun a b c d => ?_⟩
      rw [opens, encode, idBytes_join]
      rfl
    · refine .inl ⟨.unexpectedMagic lead, fun a b c d => ?_⟩
      rw [decode_headed, if_neg opens]

theorem encode_of_decode {data : List UInt8} {envelope : Envelope}
    (decoded : decode data = .ok envelope) : envelope.payload ≠ [] ∧ data = encode envelope := by
  rcases short_or_headed data with short | ⟨lead, a, b, c, d, first, rest, rfl⟩
  · rw [decode_short short] at decoded
    cases decoded
  · rw [decode_headed] at decoded
    split at decoded
    · rename_i opens
      cases decoded
      constructor
      · exact List.cons_ne_nil first rest
      · simp [encode, idBytes_join, opens]
    · cases decoded

theorem decodeAt?_eq (data : List UInt8) : decodeAt? data = some (decode data) := by
  rcases short_or_headed data with short | ⟨lead, a, b, c, d, first, rest, rfl⟩
  · simp [decodeAt?, short, decode_short short]
  · rw [decode_headed]
    by_cases opens : lead = magic
    · simp [decodeAt?, behind?, headerLength, opens]
    · simp [decodeAt?, headerLength, opens]

theorem decode_ok_iff (data : List UInt8) (envelope : Envelope) :
    decode data = .ok envelope ↔ envelope.payload ≠ [] ∧ data = encode envelope := by
  constructor
  · exact encode_of_decode
  · rintro ⟨some, rfl⟩
    exact decode_encode envelope.schemaId some

theorem decode_tooShort_iff (data : List UInt8) (length : Nat) :
    decode data = .error (.tooShort length) ↔
      data.length ≤ headerLength ∧ length = data.length := by
  rcases short_or_headed data with short | ⟨lead, a, b, c, d, first, rest, rfl⟩
  · simp [decode_short short, short, eq_comm]
  · rw [decode_headed]
    split <;> simp [headerLength]

theorem decode_unexpectedMagic_iff (data : List UInt8) (found : UInt8) :
    decode data = .error (.unexpectedMagic found) ↔
      headerLength < data.length ∧ data.head? = some found ∧ found ≠ magic := by
  rcases short_or_headed data with short | ⟨lead, a, b, c, d, first, rest, rfl⟩
  · simp [decode_short short, Nat.not_lt.mpr short]
  · rw [decode_headed]
    constructor
    · intro refused
      split at refused
      · cases refused
      · rename_i differs
        cases refused
        exact ⟨by simp [headerLength], rfl, differs⟩
    · rintro ⟨_, here, differs⟩
      cases here
      rw [if_neg differs]

/-- Exactly the frames with a payload are read, each as what it was made of, and no two are alike.
Data of up to five bytes is too short whatever it holds; any other that is refused opens with a wrong
byte. No position outside the data is read. -/
theorem frames_exactly (data : List UInt8) (envelope : Envelope) :
    (decode data = .ok envelope ↔ envelope.payload ≠ [] ∧ data = encode envelope) ∧
    (∀ length, decode data = .error (.tooShort length) ↔ data.length ≤ 5 ∧ length = data.length) ∧
    (∀ found, decode data = .error (.unexpectedMagic found) ↔
      5 < data.length ∧ data.head? = some found ∧ found ≠ 0) ∧
    decodeAt? data = some (decode data) ∧
    (∀ other, encode envelope = encode other → envelope = other) ∧
    ∀ id, decode (encode ⟨id, []⟩) = .error (.tooShort 5) :=
  ⟨decode_ok_iff data envelope, decode_tooShort_iff data, decode_unexpectedMagic_iff data,
    decodeAt?_eq data, fun _ => encode_unique, fun _ => rfl⟩

end FramedJson.Envelope
