import FramedJson.Json.Reader
import FramedJson.Proofs.Outcome

/-!
The course of a reading that succeeds, as a derivation: which values were taken off which bytes, by
how many calls and with how much room for lists and objects. What holds of documents that are read is
then proved by induction on derivations.
-/
namespace FramedJson.Json

def readScalar : List UInt8 → Scan (Json × List UInt8)
  | [] => .error ⟨.endInValue, 0⟩
  | 110 :: rest => do return (.null, ← readWord wordNull rest)
  | 116 :: rest => do return (.bool true, ← readWord wordTrue rest)
  | 102 :: rest => do return (.bool false, ← readWord wordFalse rest)
  | 34 :: rest => do
    let (text, rest) ← readString rest
    return (.str text, rest)
  | 45 :: rest => do
    let (number, rest) ← readNumber true rest
    return (.num number, rest)
  | byte :: rest =>
    if isDigit byte then do
      let (number, rest) ← readNumber false (byte :: rest)
      return (.num number, rest)
    else .error ⟨.expectedValue, rest.length⟩

namespace Reading

mutual

/-- The arguments are the budget, the room and the bytes, and then the value and the bytes behind
it. -/
inductive Value : Nat → Nat → List UInt8 → Json → List UInt8 → Prop
  | scalar {budget room : Nat} {bytes rest : List UInt8} {v : Json}
      (read : readScalar (skipSpace bytes) = .ok (v, rest)) :
      Value (budget + 1) room bytes v rest
  | list {budget room : Nat} {bytes inside rest : List UInt8} {items : List Json}
      (opens : skipSpace bytes = 91 :: inside) (read : Items budget room true inside items rest) :
      Value (budget + 1) (room + 1) bytes (.arr items) rest
  | object {budget room : Nat} {bytes inside rest : List UInt8} {members : List (String × Json)}
      (opens : skipSpace bytes = 123 :: inside)
      (read : Members budget room true inside members rest) :
      Value (budget + 1) (room + 1) bytes (.object members) rest

inductive Items : Nat → Nat → Bool → List UInt8 → List Json → List UInt8 → Prop
  | done {budget room : Nat} {first : Bool} {bytes rest : List UInt8}
      (next : nextItem first bytes = .ok (false, rest)) : Items (budget + 1) room first bytes [] rest
  | more {budget room : Nat} {first : Bool} {bytes opened behind rest : List UInt8} {item : Json}
      {items : List Json} (next : nextItem first bytes = .ok (true, opened))
      (one : Value budget room opened item behind)
      (others : Items budget room false behind items rest) :
      Items (budget + 1) room first bytes (item :: items) rest

inductive Members : Nat → Nat → Bool → List UInt8 → List (String × Json) → List UInt8 → Prop
  | done {budget room : Nat} {first : Bool} {bytes rest : List UInt8}
      (next : nextName first bytes = .ok (false, rest)) :
      Members (budget + 1) room first bytes [] rest
  | more {budget room : Nat} {first : Bool} {bytes opened named valued behind rest : List UInt8}
      {name : String} {value : Json} {members : List (String × Json)}
      (next : nextName first bytes = .ok (true, opened))
      (key : readString opened = .ok (name, named)) (colon : readColon named = .ok valued)
      (one : Value budget room valued value behind)
      (others : Members budget room false behind members rest) :
      Members (budget + 1) room first bytes ((name, value) :: members) rest
end

end Reading

open Reading

theorem readValue_cases {budget room : Nat} {bytes rest : List UInt8} {v : Json}
    (read : readValue (budget + 1) room bytes = .ok (v, rest)) :
    readScalar (skipSpace bytes) = .ok (v, rest) ∨
    (∃ inside inner items, skipSpace bytes = 91 :: inside ∧ room = inner + 1 ∧ v = .arr items ∧
      readItems budget inner true inside = .ok (items, rest)) ∨
    (∃ inside inner members, skipSpace bytes = 123 :: inside ∧ room = inner + 1 ∧
      v = .object members ∧ readMembers budget inner true inside = .ok (members, rest)) := by
  rw [readValue] at read
  split at read
  case h_7 inside opens =>
    cases room with
    | zero => cases read
    | succ inner =>
      obtain ⟨⟨items, behind⟩, listed, done⟩ := Outcome.bind_ok read
      cases done
      exact .inr (.inl ⟨inside, inner, items, opens, rfl, rfl, listed⟩)
  case h_8 inside opens =>
    cases room with
    | zero => cases read
    | succ inner =>
      obtain ⟨⟨members, behind⟩, listed, done⟩ := Outcome.bind_ok read
      cases done
      exact .inr (.inr ⟨inside, inner, members, opens, rfl, rfl, listed⟩)
  case h_1 => cases read
  case h_9 byte tail null isTrue isFalse quote minus bracket brace opens =>
    left
    rw [opens]
    unfold readScalar
    split
    case h_7 =>
      rename_i same
      cases same
      exact read
    all_goals simp_all
  all_goals
    rename_i opens
    left
    rw [opens]
    exact read

theorem readValue_scalar {budget : Nat} (room : Nat) {bytes rest : List UInt8} {v : Json}
    (read : readScalar (skipSpace bytes) = .ok (v, rest)) :
    readValue (budget + 1) room bytes = .ok (v, rest) := by
  rw [readValue]
  unfold readScalar at read
  split at read
  case h_1 => cases read
  case h_7 byte tail null isTrue isFalse quote minus opens =>
    rw [opens]
    split
    case h_9 =>
      rename_i same
      cases same
      exact read
    all_goals simp_all [isDigit]
  all_goals
    rename_i opens
    rw [opens]
    exact read

mutual

theorem value_of_read (budget : Nat) {room : Nat} {bytes rest : List UInt8} {v : Json}
    (read : readValue budget room bytes = .ok (v, rest)) : Value budget room bytes v rest := by
  cases budget with
  | zero => cases read
  | succ budget =>
    rcases readValue_cases read with
      scalar | ⟨inside, inner, items, opens, rfl, rfl, listed⟩ |
      ⟨inside, inner, members, opens, rfl, rfl, listed⟩
    · exact .scalar scalar
    · exact .list opens (items_of_read budget listed)
    · exact .object opens (members_of_read budget listed)

theorem items_of_read (budget : Nat) {room : Nat} {first : Bool} {bytes rest : List UInt8}
    {items : List Json} (read : readItems budget room first bytes = .ok (items, rest)) :
    Items budget room first bytes items rest := by
  cases budget with
  | zero => cases read
  | succ budget =>
    rw [readItems] at read
    obtain ⟨⟨more, opened⟩, next, read⟩ := Outcome.bind_ok read
    cases more with
    | false =>
      cases read
      exact .done next
    | true =>
      obtain ⟨⟨item, behind⟩, one, read⟩ := Outcome.bind_ok read
      obtain ⟨⟨items, after⟩, others, read⟩ := Outcome.bind_ok read
      cases read
      exact .more next (value_of_read budget one) (items_of_read budget others)

theorem members_of_read (budget : Nat) {room : Nat} {first : Bool} {bytes rest : List UInt8}
    {members : List (String × Json)}
    (read : readMembers budget room first bytes = .ok (members, rest)) :
    Members budget room first bytes members rest := by
  cases budget with
  | zero => cases read
  | succ budget =>
    rw [readMembers] at read
    obtain ⟨⟨more, opened⟩, next, read⟩ := Outcome.bind_ok read
    cases more with
    | false =>
      cases read
      exact .done next
    | true =>
      obtain ⟨⟨name, named⟩, key, read⟩ := Outcome.bind_ok read
      obtain ⟨valued, colon, read⟩ := Outcome.bind_ok read
      obtain ⟨⟨value, behind⟩, one, read⟩ := Outcome.bind_ok read
      obtain ⟨⟨members, after⟩, others, read⟩ := Outcome.bind_ok read
      cases read
      exact .more next key colon (value_of_read budget one) (members_of_read budget others)
end

mutual

theorem read_of_value {budget room : Nat} {bytes rest : List UInt8} {v : Json}
    (reading : Value budget room bytes v rest) : readValue budget room bytes = .ok (v, rest) := by
  cases reading with
  | scalar read => exact readValue_scalar room read
  | list opens listed =>
    rw [readValue, opens]
    simp only [read_of_items listed, bind, Except.bind]
    rfl
  | object opens listed =>
    rw [readValue, opens]
    simp only [read_of_members listed, bind, Except.bind]
    rfl

theorem read_of_items {budget room : Nat} {first : Bool} {bytes rest : List UInt8}
    {items : List Json} (reading : Items budget room first bytes items rest) :
    readItems budget room first bytes = .ok (items, rest) := by
  cases reading with
  | done next =>
    simp only [readItems, next, bind, Except.bind]
    rfl
  | more next one others =>
    simp only [readItems, next, bind, Except.bind, if_true, read_of_value one,
      read_of_items others]
    rfl

theorem read_of_members {budget room : Nat} {first : Bool} {bytes rest : List UInt8}
    {members : List (String × Json)} (reading : Members budget room first bytes members rest) :
    readMembers budget room first bytes = .ok (members, rest) := by
  cases reading with
  | done next =>
    simp only [readMembers, next, bind, Except.bind]
    rfl
  | more next key colon one others =>
    simp only [readMembers, next, bind, Except.bind, if_true, key, colon, read_of_value one,
      read_of_members others]
    rfl
end

theorem readDocument_ok {bytes : List UInt8} {v : Json} (read : readDocument bytes = .ok v) :
    ∃ rest, readValue (budgetFor bytes) maxDepth bytes = .ok (v, rest) ∧ skipSpace rest = [] := by
  obtain ⟨⟨value, rest⟩, found, read⟩ := Outcome.bind_ok read
  obtain ⟨_, ended, read⟩ := Outcome.bind_ok read
  cases read
  refine ⟨rest, found, ?_⟩
  unfold readEnd at ended
  split at ended
  · assumption
  · cases ended

theorem ofBytes_ok {bytes : List UInt8} {v : Json} (read : ofBytes bytes = .ok v) :
    readDocument bytes = .ok v := by
  unfold ofBytes at read
  split at read
  · rename_i found
    cases read
    exact found
  · cases read

/-- The whole of the bytes is one JSON text, and `v` is what it says. -/
def Spells (bytes : List UInt8) (v : Json) : Prop :=
  ∃ rest, Value (budgetFor bytes) maxDepth bytes v rest ∧ skipSpace rest = []

theorem ofBytes_ok_iff {bytes : List UInt8} {v : Json} :
    ofBytes bytes = .ok v ↔ Spells bytes v := by
  constructor
  · intro read
    obtain ⟨rest, found, ended⟩ := readDocument_ok (ofBytes_ok read)
    exact ⟨rest, value_of_read _ found, ended⟩
  · rintro ⟨rest, reading, ended⟩
    simp only [ofBytes, readDocument, read_of_value reading, readEnd, ended, bind, Except.bind]
    rfl

end FramedJson.Json
