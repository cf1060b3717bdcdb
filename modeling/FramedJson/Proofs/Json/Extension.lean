import FramedJson.Proofs.Json.Depth
import FramedJson.Proofs.Json.Numerals
import FramedJson.Proofs.Text.Utf8

namespace FramedJson.Json

variable {bytes rest more : List UInt8}

theorem skipSpace_append {byte : UInt8} (skipped : skipSpace bytes = byte :: rest)
    (more : List UInt8) : skipSpace (bytes ++ more) = byte :: (rest ++ more) := by
  have stops : (bytes.dropWhile isSpace).isEmpty = false := by
    rw [show bytes.dropWhile isSpace = byte :: rest from skipped]
    rfl
  rw [skipSpace, List.dropWhile_append, stops]
  exact congrArg (· ++ more) skipped

theorem skipSpace_append_nil (skipped : skipSpace bytes = []) (more : List UInt8) :
    skipSpace (bytes ++ more) = skipSpace more := by
  rw [skipSpace, List.dropWhile_append, show bytes.dropWhile isSpace = [] from skipped]
  rfl

theorem readWord_append {word : List UInt8} (read : readWord word bytes = .ok rest)
    (more : List UInt8) : readWord word (bytes ++ more) = .ok (rest ++ more) := by
  induction word generalizing bytes with
  | nil =>
    cases read
    rfl
  | cons expected word ih =>
    cases bytes with
    | nil => cases read
    | cons byte bytes =>
      rw [readWord] at read
      rw [List.cons_append, readWord]
      split at read
      · rw [if_pos (by assumption)]
        exact ih read
      · cases read

theorem readHex_append {code : Nat} (read : readHex bytes = .ok (code, rest)) (more : List UInt8) :
    readHex (bytes ++ more) = .ok (code, rest ++ more) := by
  unfold readHex at read
  split at read
  · split at read
    · cases read
      simp only [List.cons_append, readHex, *]
    · cases read
  · cases read

theorem readTrail_append {lead : Nat} {c : Char} (read : readTrail lead bytes = .ok (c, rest))
    (more : List UInt8) : readTrail lead (bytes ++ more) = .ok (c, rest ++ more) := by
  unfold readTrail at read
  split at read
  · cases read
  · cases read
  · obtain ⟨⟨trail, behind⟩, hex, read⟩ := Outcome.bind_ok read
    dsimp only at read
    split at read
    · rename_i range
      obtain ⟨rfl, rfl⟩ := Prod.mk.inj (Except.ok.inj read)
      simp only [List.cons_append, readTrail, readHex_append hex more, bind, Except.bind]
      rw [if_pos range]
      rfl
    · cases read
  · cases read
  · cases read

theorem readEscape_append {c : Char} (read : readEscape bytes = .ok (c, rest))
    (more : List UInt8) : readEscape (bytes ++ more) = .ok (c, rest ++ more) := by
  unfold readEscape at read
  split at read
  case h_1 => cases read
  case h_10 =>
    obtain ⟨⟨code, behind⟩, hex, read⟩ := Outcome.bind_ok read
    simp only [List.cons_append, readEscape, readHex_append hex more, bind, Except.bind]
    dsimp only at read
    split at read
    · cases read
    · rename_i notTrail
      rw [if_neg notTrail]
      split at read
      · rename_i lead
        rw [if_pos lead]
        exact readTrail_append read more
      · rename_i notLead
        rw [if_neg notLead]
        cases read
        rfl
  case h_11 => cases read
  all_goals
    cases read
    rfl

theorem readChars_spoiled (budget left : Nat) (bytes : List UInt8) {chars : List Char} :
    readChars budget (some left) bytes ≠ .ok (chars, rest) := by
  induction budget generalizing left bytes chars rest with
  | zero => exact nofun
  | succ budget ih =>
    cases bytes with
    | nil => exact nofun
    | cons byte bytes =>
      intro read
      rw [readChars] at read
      split at read
      · cases read
      · split at read
        · obtain ⟨⟨c, behind⟩, _, read⟩ := Outcome.bind_ok read
          obtain ⟨⟨chars, after⟩, others, read⟩ := Outcome.bind_ok read
          exact ih _ _ others
        · split at read
          · cases read
          · split at read
            · obtain ⟨⟨chars, after⟩, others, read⟩ := Outcome.bind_ok read
              exact ih _ _ others
            · exact ih _ _ read

theorem readChars_append {budget larger : Nat} {chars : List Char}
    (read : readChars budget none bytes = .ok (chars, rest)) (enough : budget ≤ larger)
    (more : List UInt8) : readChars larger none (bytes ++ more) = .ok (chars, rest ++ more) := by
  induction budget generalizing larger bytes chars with
  | zero => cases read
  | succ budget ih =>
    obtain ⟨extra, rfl⟩ := Nat.exists_eq_add_of_le' enough
    cases bytes with
    | nil => cases read
    | cons byte bytes =>
      rw [readChars] at read
      rw [List.cons_append, ← Nat.add_assoc, readChars]
      split at read
      · rename_i quote
        cases read
        rw [if_pos quote]
      · rename_i notQuote
        rw [if_neg notQuote]
        split at read
        · rename_i escape
          rw [if_pos escape]
          obtain ⟨⟨c, behind⟩, escaped, read⟩ := Outcome.bind_ok read
          obtain ⟨⟨chars, after⟩, others, read⟩ := Outcome.bind_ok read
          cases read
          have later := ih others (Nat.le_add_left budget extra)
          simp only [readEscape_append escaped more, later, bind, Except.bind]
          rfl
        · rename_i notEscape
          rw [if_neg notEscape]
          split at read
          · cases read
          · rename_i visible
            rw [if_neg visible]
            split at read
            · rename_i decoded
              obtain ⟨⟨chars, after⟩, others, read⟩ := Outcome.bind_ok read
              cases read
              have decoded' := Utf8.decodeChar?_append decoded more
              rw [List.cons_append] at decoded'
              have later := ih others (Nat.le_add_left budget extra)
              simp only [decoded', later, bind, Except.bind]
              rfl
            · exact absurd read (readChars_spoiled _ _ _)

theorem readString_append {text : String} (read : readString bytes = .ok (text, rest))
    (more : List UInt8) : readString (bytes ++ more) = .ok (text, rest ++ more) := by
  obtain ⟨⟨chars, behind⟩, found, read⟩ := Outcome.bind_ok read
  cases read
  have enough : bytes.length + 1 ≤ (bytes ++ more).length + 1 := by simp
  simp only [readString, readChars_append found enough more, bind, Except.bind]
  rfl

theorem readColon_append (read : readColon bytes = .ok rest) (more : List UInt8) :
    readColon (bytes ++ more) = .ok (rest ++ more) := by
  unfold readColon at read ⊢
  split at read
  · cases read
  · rename_i skipped
    cases read
    rw [skipSpace_append skipped]
    rfl
  · cases read

theorem nextItem_open {first : Bool} {byte : UInt8} (skipped : skipSpace bytes = byte :: rest)
    (opens : byte ≠ 93) : nextItem first bytes =
      if first then .ok (true, byte :: rest)
      else if byte = 44 then
        match skipSpace rest with
        | [] => .error ⟨.endInValue, 0⟩
        | 93 :: after => .error ⟨.trailingComma, after.length⟩
        | other => .ok (true, other)
      else .error ⟨.expectedListEnd, rest.length⟩ := by
  rw [nextItem, skipped]
  split
  · rename_i none
    cases none
  · rename_i same
    exact absurd (List.cons.inj same).1 opens
  · rename_i same
    cases same
    rfl

theorem nextItem_append {first found : Bool} (next : nextItem first bytes = .ok (found, rest))
    (more : List UInt8) : nextItem first (bytes ++ more) = .ok (found, rest ++ more) := by
  cases skipped : skipSpace bytes with
  | nil =>
    rw [nextItem, skipped] at next
    cases next
  | cons byte tail =>
    have skipped' := skipSpace_append skipped more
    by_cases closes : byte = 93
    · subst closes
      rw [nextItem, skipped] at next
      rw [nextItem, skipped']
      cases next
      rfl
    · rw [nextItem_open skipped closes] at next
      rw [nextItem_open skipped' closes]
      cases first with
      | true =>
        cases next
        rfl
      | false =>
        simp only [Bool.false_eq_true, if_false] at next ⊢
        split at next
        · rename_i comma
          rw [if_pos comma]
          cases opened : skipSpace tail with
          | nil =>
            rw [opened] at next
            cases next
          | cons second behind =>
            rw [opened] at next
            rw [skipSpace_append opened more]
            split at next
            · cases next
            · cases next
            · rename_i last
              cases next
              split
              · rename_i same
                cases same
              · rename_i same
                exact absurd (congrArg (· :: behind) (List.cons.inj same).1) (last behind)
              · rfl
        · cases next

theorem nextName_open {first : Bool} {byte : UInt8} (skipped : skipSpace bytes = byte :: rest)
    (opens : byte ≠ 125) : nextName first bytes =
      if first then
        if byte = 34 then .ok (true, rest) else .error ⟨.keyNotString, rest.length⟩
      else if byte = 44 then
        match skipSpace rest with
        | [] => .error ⟨.endInValue, 0⟩
        | 34 :: after => .ok (true, after)
        | 125 :: after => .error ⟨.trailingComma, after.length⟩
        | other => .error (.at .keyNotString other)
      else .error ⟨.expectedObjectEnd, rest.length⟩ := by
  rw [nextName, skipped]
  split
  · rename_i none
    cases none
  · rename_i same
    exact absurd (List.cons.inj same).1 opens
  · rename_i same
    cases same
    rfl

theorem nextName_append {first found : Bool} (next : nextName first bytes = .ok (found, rest))
    (more : List UInt8) : nextName first (bytes ++ more) = .ok (found, rest ++ more) := by
  cases skipped : skipSpace bytes with
  | nil =>
    rw [nextName, skipped] at next
    cases next
  | cons byte tail =>
    have skipped' := skipSpace_append skipped more
    by_cases closes : byte = 125
    · subst closes
      rw [nextName, skipped] at next
      rw [nextName, skipped']
      cases next
      rfl
    · rw [nextName_open skipped closes] at next
      rw [nextName_open skipped' closes]
      cases first with
      | true =>
        simp only [if_true] at next ⊢
        split at next
        · rename_i quote
          cases next
          rw [if_pos quote]
        · cases next
      | false =>
        simp only [Bool.false_eq_true, if_false] at next ⊢
        split at next
        · rename_i comma
          rw [if_pos comma]
          split at next
          · cases next
          · rename_i opened
            cases next
            rw [skipSpace_append opened more]
            rfl
          · cases next
          · cases next
        · cases next

theorem readScalar_digit {byte : UInt8} (digit : isDigit byte) (bytes : List UInt8) :
    readScalar (byte :: bytes) =
      (readNumber false (byte :: bytes)).map fun found => (.num found.1, found.2) := by
  unfold readScalar
  split
  case h_7 first tail _ _ _ _ _ same =>
    cases same
    rw [if_pos digit]
    rfl
  all_goals
    rename_i same
    cases same <;> exact absurd digit (by decide)

theorem readScalar_append {v : Json} (read : readScalar bytes = .ok (v, rest))
    (ends : EndsNumber more) : readScalar (bytes ++ more) = .ok (v, rest ++ more) := by
  unfold readScalar at read
  split at read
  case h_1 => cases read
  case h_5 =>
    obtain ⟨⟨text, behind⟩, found, read⟩ := Outcome.bind_ok read
    cases read
    simp only [List.cons_append, readScalar, readString_append found more, bind, Except.bind]
    rfl
  case h_6 =>
    obtain ⟨⟨number, behind⟩, found, read⟩ := Outcome.bind_ok read
    cases read
    simp only [List.cons_append, readScalar, readNumber_append found fun _ => ends, bind,
      Except.bind]
    rfl
  case h_7 =>
    split at read
    · rename_i digit
      obtain ⟨⟨number, behind⟩, found, read⟩ := Outcome.bind_ok read
      cases read
      have longer := readNumber_append found fun _ => ends
      rw [List.cons_append] at longer
      rw [List.cons_append, readScalar_digit digit, longer]
      rfl
    · cases read
  all_goals
    obtain ⟨behind, found, read⟩ := Outcome.bind_ok read
    cases read
    simp only [List.cons_append, readScalar, readWord_append found more, bind, Except.bind]
    rfl

open Reading

mutual

theorem value_append {budget larger room : Nat} {bytes rest more : List UInt8} {v : Json}
    (reading : Value budget room bytes v rest) (enough : budget ≤ larger)
    (ends : EndsNumber more) : Value larger room (bytes ++ more) v (rest ++ more) := by
  cases reading with
  | scalar read =>
    obtain ⟨extra, rfl⟩ := Nat.exists_eq_add_of_le' enough
    cases opened : skipSpace bytes with
    | nil =>
      rw [opened] at read
      cases read
    | cons byte tail =>
      rw [opened] at read
      refine .scalar ?_
      rw [skipSpace_append opened]
      exact readScalar_append read ends
  | list opens listed =>
    obtain ⟨extra, rfl⟩ := Nat.exists_eq_add_of_le' enough
    exact .list (skipSpace_append opens more)
      (items_append listed (Nat.le_add_left _ extra) ends)
  | object opens listed =>
    obtain ⟨extra, rfl⟩ := Nat.exists_eq_add_of_le' enough
    exact .object (skipSpace_append opens more)
      (members_append listed (Nat.le_add_left _ extra) ends)

theorem items_append {budget larger room : Nat} {first : Bool} {bytes rest more : List UInt8}
    {items : List Json} (reading : Items budget room first bytes items rest)
    (enough : budget ≤ larger) (ends : EndsNumber more) :
    Items larger room first (bytes ++ more) items (rest ++ more) := by
  cases reading with
  | done next =>
    obtain ⟨extra, rfl⟩ := Nat.exists_eq_add_of_le' enough
    exact .done (nextItem_append next more)
  | more next one others =>
    obtain ⟨extra, rfl⟩ := Nat.exists_eq_add_of_le' enough
    exact .more (nextItem_append next _) (value_append one (Nat.le_add_left _ extra) ends)
      (items_append others (Nat.le_add_left _ extra) ends)

theorem members_append {budget larger room : Nat} {first : Bool} {bytes rest more : List UInt8}
    {members : List (String × Json)} (reading : Members budget room first bytes members rest)
    (enough : budget ≤ larger) (ends : EndsNumber more) :
    Members larger room first (bytes ++ more) members (rest ++ more) := by
  cases reading with
  | done next =>
    obtain ⟨extra, rfl⟩ := Nat.exists_eq_add_of_le' enough
    exact .done (nextName_append next more)
  | more next key colon one others =>
    obtain ⟨extra, rfl⟩ := Nat.exists_eq_add_of_le' enough
    exact .more (nextName_append next _) (readString_append key _) (readColon_append colon _)
      (value_append one (Nat.le_add_left _ extra) ends)
      (members_append others (Nat.le_add_left _ extra) ends)
end

/-- A whole text that is a document is none with more behind it that is neither blank nor part of a
number. -/
theorem ofBytes_append {v : Json} (read : ofBytes bytes = .ok v) (ends : EndsNumber more)
    (visible : skipSpace more ≠ []) (w : Json) : ofBytes (bytes ++ more) ≠ .ok w := by
  intro other
  obtain ⟨rest, found, ended⟩ := readDocument_ok (ofBytes_ok read)
  obtain ⟨rest', found', ended'⟩ := readDocument_ok (ofBytes_ok other)
  have enough : budgetFor bytes ≤ budgetFor (bytes ++ more) := by
    simp only [budgetFor, List.length_append]
    omega
  have longer := read_of_value (value_append (value_of_read _ found) enough ends)
  obtain ⟨_, same⟩ := Prod.mk.inj (Except.ok.inj (longer.symm.trans found'))
  rw [← same, skipSpace_append_nil ended] at ended'
  exact visible ended'

end FramedJson.Json
