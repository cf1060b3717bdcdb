import FramedJson.Model.Texts
import FramedJson.Proofs.Json.Strings

namespace FramedJson.Json

open Grammar

def printed (value : Json) : List UInt8 := Utf8.encodeString value.compact

theorem printed_eq (value : Json) : printed value = Utf8.encode (value.render .compact) := by
  rw [printed, compact, Json.text, Utf8.encodeString, String.toList_ofList]

section Strings

theorem spelling_short (letter : UInt8) {c : Char} {rest : List UInt8} {chars : List Char}
    (known : (letter, c) ∈ escapes) (written : Utf8.encode (escapeChar c) = [92, letter])
    (others : Spelling rest chars) : Spelling (Utf8.encode (escapeChar c) ++ rest) (c :: chars) := by
  rw [written]
  exact .escape known others

theorem code_byte {n : Nat} (small : n < 0x100) :
    Code [48, 48, digitByte (n / 16), digitByte (n % 16)] n := by
  have zero : Hexadecimal.value? (48 : UInt8).toNat = some 0 := by decide
  have high := (digitByte_facts (n / 16) (by omega)).2
  have low := (digitByte_facts (n % 16) (by omega)).2
  have code := Code.digits zero zero high low
  have whole : ((0 * 16 + 0) * 16 + n / 16) * 16 + n % 16 = n := by omega
  rwa [whole] at code

theorem encode_control {c : Char} (control : c.toNat < 0x20) :
    Utf8.encode ['\\', 'u', '0', '0', Nat.digitChar (c.toNat / 16), Nat.digitChar (c.toNat % 16)] =
      92 :: 117 :: [48, 48, digitByte (c.toNat / 16), digitByte (c.toNat % 16)] := by
  have high := (digitByte_facts (c.toNat / 16) (by omega)).1
  have low := (digitByte_facts (c.toNat % 16) (by omega)).1
  simp only [Utf8.encode_cons, Utf8.encode_nil, high, low]
  rfl

theorem spelling_escapeChar (c : Char) {rest : List UInt8} {chars : List Char}
    (others : Spelling rest chars) : Spelling (Utf8.encode (escapeChar c) ++ rest) (c :: chars) := by
  by_cases quote : c = '"'
  · subst quote
    exact spelling_short 34 (by decide) (by decide) others
  by_cases backslash : c = '\\'
  · subst backslash
    exact spelling_short 92 (by decide) (by decide) others
  by_cases printable : 0x20 ≤ c.toNat
  · have plain : escapeChar c = [c] := by
      rw [escapeChar, if_neg quote, if_neg backslash, if_pos printable]
    rw [plain, Utf8.encode_cons, Utf8.encode_nil, List.append_nil]
    exact .plain quote backslash printable others
  have control : c.toNat < 0x20 := Nat.lt_of_not_le printable
  by_cases letter : ∃ n ∈ [8, 9, 10, 12, 13], c = Char.ofNat n
  · obtain ⟨n, member, rfl⟩ := letter
    simp only [List.mem_cons, List.not_mem_nil, or_false] at member
    rcases member with rfl | rfl | rfl | rfl | rfl
    · exact spelling_short 98 (by decide) (by decide) others
    · exact spelling_short 116 (by decide) (by decide) others
    · exact spelling_short 110 (by decide) (by decide) others
    · exact spelling_short 102 (by decide) (by decide) others
    · exact spelling_short 114 (by decide) (by decide) others
  · have other (n : Nat) (member : n ∈ [8, 9, 10, 12, 13]) : c.toNat ≠ n := fun same =>
      letter ⟨n, member, eq_ofNat_of_toNat same⟩
    have coded : escapeChar c = ['\\', 'u', '0', '0', Nat.digitChar (c.toNat / 16),
        Nat.digitChar (c.toNat % 16)] := by
      rw [escapeChar, if_neg quote, if_neg backslash, if_neg printable, if_neg (other 8 (by decide)),
        if_neg (other 9 (by decide)), if_neg (other 10 (by decide)), if_neg (other 12 (by decide)),
        if_neg (other 13 (by decide))]
    rw [coded, encode_control control]
    exact .code (code_byte (by omega)) others

theorem spelling_text (chars : List Char) :
    Spelling (Utf8.encode (chars.flatMap escapeChar)) chars := by
  induction chars with
  | nil => exact .done
  | cons c chars ih =>
    rw [List.flatMap_cons, Utf8.encode_append]
    exact spelling_escapeChar c ih

theorem encode_renderString (text : String) : Utf8.encode (renderString text) =
    34 :: (Utf8.encode (text.toList.flatMap escapeChar) ++ [34]) := by
  rw [renderString, Utf8.encode_cons, Utf8.encode_append]
  rfl

theorem printed_str (text : String) : Model.StringText text (printed (.str text)) := by
  refine ⟨_, spelling_text text.toList, ?_⟩
  rw [printed_eq, render, encode_renderString]

end Strings

section Containers

theorem listed_end (close : UInt8) (first : Bool) : Listed close first [] [close] := by
  change Listed close first [] ([] ++ [close])
  exact .done blanks_nil

theorem listed_first {close : UInt8} {item rest : List UInt8} {items : List (List UInt8)}
    (others : Listed close false items rest) : Listed close true (item :: items) (item ++ rest) := by
  change Listed close true (item :: items) ([] ++ (item ++ rest))
  exact .first blanks_nil others

theorem listed_next {close : UInt8} {item rest : List UInt8} {items : List (List UInt8)}
    (others : Listed close false items rest) :
    Listed close false (item :: items) (44 :: (item ++ rest)) := by
  change Listed close false (item :: items) ([] ++ 44 :: ([] ++ (item ++ rest)))
  exact .next blanks_nil blanks_nil others

theorem listed_items (items : List Json) :
    Listed 93 false (items.map printed) (Utf8.encode (renderItems .compact items)) := by
  induction items with
  | nil => exact listed_end 93 false
  | cons item items ih =>
    rw [renderItems, Utf8.encode_append, Utf8.encode_append, List.append_assoc, List.map_cons,
      ← printed_eq]
    exact listed_next ih

theorem printed_arr (items : List Json) :
    ∃ inside, printed (.arr items) = 91 :: inside ∧ Listed 93 true (items.map printed) inside := by
  cases items with
  | nil => exact ⟨[93], by rw [printed_eq]; rfl, listed_end 93 true⟩
  | cons item items =>
    refine ⟨_, ?_, listed_first (listed_items items)⟩
    rw [printed_eq, render, Utf8.encode_cons, Utf8.encode_append, ← printed_eq]
    rfl

def printedMember (name : String) (value : List UInt8) : List UInt8 :=
  Utf8.encode (renderString name) ++ 58 :: value

theorem memberText_printed (name : String) (value : List UInt8) :
    ∃ spelling, Spelling spelling name.toList ∧ MemberText spelling value (printedMember name value) := by
  refine ⟨_, spelling_text name.toList, [], [], blanks_nil, blanks_nil, ?_⟩
  rw [printedMember, encode_renderString]
  simp only [List.cons_append, List.append_assoc, List.nil_append]

theorem listed_members (members : List (String × Json)) :
    Listed 125 false (members.map fun member => printedMember member.1 (printed member.2))
      (Utf8.encode (renderMembers .compact members)) := by
  induction members with
  | nil => exact listed_end 125 false
  | cons member members ih =>
    obtain ⟨name, value⟩ := member
    have shape : renderMembers .compact ((name, value) :: members) =
        ',' :: (renderString name ++ ':' :: value.render .compact ++
          renderMembers .compact members) := by
      rw [renderMembers]
      simp only [Layout.compact, List.append_assoc, List.cons_append, List.nil_append]
    rw [shape, Utf8.encode_cons, Utf8.encode_append, Utf8.encode_append, Utf8.encode_cons,
      ← printed_eq]
    exact listed_next ih

theorem printed_obj (members : List (String × Json)) :
    ∃ inside, printed (.obj members) = 123 :: inside ∧
      Listed 125 true (members.map fun member => printedMember member.1 (printed member.2)) inside := by
  cases members with
  | nil => exact ⟨[125], by rw [printed_eq]; rfl, listed_end 125 true⟩
  | cons member members =>
    obtain ⟨name, value⟩ := member
    refine ⟨_, ?_, listed_first (listed_members members)⟩
    rw [printed_eq, render, Utf8.encode_cons, Utf8.encode_append, Utf8.encode_append,
      Utf8.encode_append, ← printed_eq]
    simp only [printedMember, List.append_assoc]
    rfl

theorem written_members (members : List (String × List UInt8)) :
    List.Forall₂ (fun member text =>
        ∃ name, Spelling name member.1.toList ∧ MemberText name member.2 text)
      members (members.map fun member => printedMember member.1 member.2) := by
  rw [List.forall₂_map_right_iff]
  exact List.forall₂_same.mpr fun member _ => memberText_printed member.1 member.2

end Containers

section Records

variable {α : Type}

theorem printed_int {n : Int} (fits : -2 ^ 63 ≤ n ∧ n < 2 ^ 64) :
    Model.IntegerText n (printed (.num (.int n fits))) := by
  rw [printed_eq]
  rfl

theorem printed_list {holds : α → List UInt8 → Prop} {toJson : α → Json}
    (each : ∀ value, holds value (printed (toJson value))) (values : List α) :
    Model.ListText holds values (printed (.arr (values.map toJson))) := by
  obtain ⟨inside, opens, listed⟩ := printed_arr (values.map toJson)
  refine ⟨_, inside, ?_, listed, opens⟩
  rw [List.map_map, List.forall₂_map_right_iff]
  exact List.forall₂_same.mpr fun value _ => each value

/-- An object with the declared fields in their order is a text of the record. -/
theorem printed_record {declared : List String} {holds : String → List UInt8 → Prop}
    {members : List (String × Json)} (named : members.map Prod.fst = declared)
    (each : ∀ member ∈ members, holds member.1 (printed member.2)) :
    Model.RecordText declared declared holds (printed (.obj members)) := by
  obtain ⟨inside, opens, listed⟩ := printed_obj members
  have names : (members.map fun member => (member.1, printed member.2)).map Prod.fst = declared := by
    rw [List.map_map, ← named]
    rfl
  rw [opens]
  have written := written_members (members.map fun member => (member.1, printed member.2))
  rw [List.map_map] at written
  refine .object ?_ ?_ ?_ written listed
  · rw [names, List.filter_eq_self.mpr fun name member => decide_eq_true member]
  · intro member among _
    obtain ⟨source, here, rfl⟩ := List.mem_map.mp among
    exact each source here
  · intro member among unknown
    exact absurd (names ▸ List.mem_map_of_mem among) unknown

end Records

end FramedJson.Json
