import FramedJson.Json.Parts
import FramedJson.Proofs.Json.Reading

namespace FramedJson.Json

open Reading

theorem depthOfMembers_le_iff {members : List (String × Json)} {n : Nat} :
    depthOfMembers members ≤ n ↔ ∀ member ∈ members, depth member.2 ≤ n := by
  induction members with
  | nil => simp [depthOfMembers]
  | cons member rest ih => rw [depthOfMembers, Nat.max_le, ih, List.forall_mem_cons]

theorem readScalar_flat {bytes rest : List UInt8} {v : Json}
    (read : readScalar bytes = .ok (v, rest)) : v.depth = 0 ∧ v.namesDiffer := by
  unfold readScalar at read
  split at read
  case h_1 => cases read
  case h_7 =>
    split at read
    · obtain ⟨⟨number, behind⟩, _, done⟩ := Outcome.bind_ok read
      cases done
      exact ⟨rfl, rfl⟩
    · cases read
  all_goals
    obtain ⟨found, _, done⟩ := Outcome.bind_ok read
    cases done
    exact ⟨rfl, rfl⟩

theorem object_wellFormed {members : List (String × Json)} {room : Nat}
    (shallow : depthOfMembers members ≤ room) (differ : allMembers ownNamesDiffer members) :
    (object members).depth ≤ room + 1 ∧ (object members).namesDiffer := by
  constructor
  · have kept : depthOfMembers (Assoc.ofWrites members) ≤ room :=
      depthOfMembers_le_iff.mpr fun member last =>
        depthOfMembers_le_iff.mp shallow member (Assoc.mem_ofWrites last)
    exact Nat.succ_le_succ kept
  · have own : ownNamesDiffer (object members) :=
      decide_eq_true (Assoc.nodup_ofWrites members)
    have inner : allMembers ownNamesDiffer (Assoc.ofWrites members) :=
      allMembers_iff.mpr fun member last =>
        allMembers_iff.mp differ member (Assoc.mem_ofWrites last)
    exact Bool.and_eq_true_iff.mpr ⟨own, inner⟩

mutual

theorem value_wellFormed {budget room : Nat} {bytes rest : List UInt8} {v : Json}
    (reading : Value budget room bytes v rest) : v.depth ≤ room ∧ v.namesDiffer := by
  cases reading with
  | scalar read =>
    obtain ⟨flat, differ⟩ := readScalar_flat read
    exact ⟨flat ▸ Nat.zero_le room, differ⟩
  | list opens listed =>
    obtain ⟨shallow, differ⟩ := items_wellFormed listed
    exact ⟨Nat.succ_le_succ shallow, differ⟩
  | object opens listed =>
    obtain ⟨shallow, differ⟩ := members_wellFormed listed
    exact object_wellFormed shallow differ

theorem items_wellFormed {budget room : Nat} {first : Bool} {bytes rest : List UInt8}
    {items : List Json} (reading : Items budget room first bytes items rest) :
    depthOfItems items ≤ room ∧ allItems ownNamesDiffer items := by
  cases reading with
  | done next => exact ⟨Nat.zero_le room, rfl⟩
  | more next one others =>
    obtain ⟨shallow, differ⟩ := value_wellFormed one
    obtain ⟨shallow', differ'⟩ := items_wellFormed others
    exact ⟨Nat.max_le.mpr ⟨shallow, shallow'⟩, Bool.and_eq_true_iff.mpr ⟨differ, differ'⟩⟩

theorem members_wellFormed {budget room : Nat} {first : Bool} {bytes rest : List UInt8}
    {members : List (String × Json)} (reading : Members budget room first bytes members rest) :
    depthOfMembers members ≤ room ∧ allMembers ownNamesDiffer members := by
  cases reading with
  | done next => exact ⟨Nat.zero_le room, rfl⟩
  | more next key colon one others =>
    obtain ⟨shallow, differ⟩ := value_wellFormed one
    obtain ⟨shallow', differ'⟩ := members_wellFormed others
    exact ⟨Nat.max_le.mpr ⟨shallow, shallow'⟩, Bool.and_eq_true_iff.mpr ⟨differ, differ'⟩⟩
end

def OrTooDeep {α : Type} (read : Scan α) (expected : α) : Prop :=
  read = .ok expected ∨ ∃ left, read = .error ⟨.tooDeep, left⟩

section Bind

variable {α β : Type} {read : Scan α} {expected : α} {next : α → Scan β} {result : β}

theorem OrTooDeep.bind (here : OrTooDeep read expected) (later : OrTooDeep (next expected) result) :
    OrTooDeep (read >>= next) result := by
  rcases here with found | ⟨left, stopped⟩
  · rw [found]
    exact later
  · rw [stopped]
    exact .inr ⟨left, rfl⟩

end Bind

mutual

theorem value_less_room {budget room : Nat} {bytes rest : List UInt8} {v : Json}
    (reading : Value budget room bytes v rest) (less : Nat) :
    OrTooDeep (readValue budget less bytes) (v, rest) := by
  cases reading with
  | scalar read => exact .inl (readValue_scalar less read)
  | list opens listed =>
    rw [readValue, opens]
    cases less with
    | zero => exact .inr ⟨_, rfl⟩
    | succ less => exact (items_less_room listed less).bind (.inl rfl)
  | object opens listed =>
    rw [readValue, opens]
    cases less with
    | zero => exact .inr ⟨_, rfl⟩
    | succ less => exact (members_less_room listed less).bind (.inl rfl)

theorem items_less_room {budget room : Nat} {first : Bool} {bytes rest : List UInt8}
    {items : List Json} (reading : Items budget room first bytes items rest) (less : Nat) :
    OrTooDeep (readItems budget less first bytes) (items, rest) := by
  cases reading with
  | done next => exact .inl (read_of_items (.done next))
  | more next one others =>
    rw [readItems, next]
    exact (value_less_room one less).bind ((items_less_room others less).bind (.inl rfl))

theorem members_less_room {budget room : Nat} {first : Bool} {bytes rest : List UInt8}
    {members : List (String × Json)} (reading : Members budget room first bytes members rest)
    (less : Nat) : OrTooDeep (readMembers budget less first bytes) (members, rest) := by
  cases reading with
  | done next => exact .inl (read_of_members (.done next))
  | more next key colon one others =>
    rw [readMembers, next]
    simp only [bind, Except.bind, if_true, key, colon]
    exact (value_less_room one less).bind ((members_less_room others less).bind (.inl rfl))
end

/-- A document that is read with enough room is, with less, refused exactly when it is too deep. -/
theorem readValue_too_deep {budget room less : Nat} {bytes rest : List UInt8} {v : Json}
    (read : readValue budget room bytes = .ok (v, rest)) (deep : less < v.depth) :
    ∃ left, readValue budget less bytes = .error ⟨.tooDeep, left⟩ := by
  rcases value_less_room (value_of_read budget read) less with found | stopped
  · have shallow := (value_wellFormed (value_of_read budget found)).1
    exact absurd shallow (Nat.not_le_of_lt deep)
  · exact stopped

theorem ofBytes_wellFormed {bytes : List UInt8} {v : Json} (read : ofBytes bytes = .ok v) :
    v.depth ≤ maxDepth ∧ v.namesDiffer := by
  obtain ⟨rest, found, _⟩ := readDocument_ok (ofBytes_ok read)
  exact value_wellFormed (value_of_read _ found)

end FramedJson.Json
