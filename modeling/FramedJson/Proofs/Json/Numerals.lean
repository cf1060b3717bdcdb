import FramedJson.Proofs.Json.Integers
import FramedJson.Proofs.Outcome

namespace FramedJson.Json

variable {bytes left more : List UInt8}

theorem takeDigits_append {digits : List Nat} (taken : takeDigits bytes = (digits, left))
    (ends : left = [] → EndsNumber more) : takeDigits (bytes ++ more) = (digits, left ++ more) := by
  obtain ⟨rfl, rfl⟩ := Prod.mk.inj taken
  clear taken
  induction bytes with
  | nil =>
    cases more with
    | nil => rfl
    | cons next _ =>
      have stop := (ends rfl next rfl).1
      simp [takeDigits, stop]
  | cons byte bytes ih =>
    by_cases digit : isDigit byte
    · have later := ih (by simpa [digit] using ends)
      simp only [takeDigits, Prod.mk.injEq] at later
      simp [takeDigits, digit, later]
    · simp [takeDigits, digit]

theorem scanWhole_append {whole : List Nat} (scanned : scanWhole bytes = .ok (whole, left))
    (ends : left = [] → EndsNumber more) : scanWhole (bytes ++ more) = .ok (whole, left ++ more) := by
  cases bytes with
  | nil => cases scanned
  | cons first rest =>
    by_cases zero : first = 48
    · simp only [scanWhole, if_pos zero] at scanned
      simp only [List.cons_append, scanWhole, if_pos zero]
      cases rest with
      | nil =>
        cases scanned
        cases more with
        | nil => rfl
        | cons next _ =>
          have stop := (ends rfl next rfl).1
          simp [stop]
      | cons next _ =>
        by_cases digit : isDigit next
        · simp [digit] at scanned
        · simp only [digit] at scanned
          cases scanned
          simp [digit]
    · simp only [scanWhole, if_neg zero] at scanned
      simp only [List.cons_append, scanWhole, if_neg zero]
      by_cases digit : isDigit first
      · rw [if_pos digit] at scanned ⊢
        rw [← List.cons_append, takeDigits_append (Except.ok.inj scanned) ends]
      · rw [if_neg digit] at scanned
        cases scanned

theorem scanFraction_append {fraction : List Nat} (scanned : scanFraction bytes = .ok (fraction, left))
    (ends : left = [] → EndsNumber more) :
    scanFraction (bytes ++ more) = .ok (fraction, left ++ more) := by
  unfold scanFraction at scanned
  split at scanned
  · rename_i rest
    split at scanned
    · cases scanned
    · cases scanned
    · rename_i none
      have taken := Except.ok.inj scanned
      cases fraction with
      | nil => exact absurd taken (none left)
      | cons digit digits =>
        simp only [List.cons_append, scanFraction, takeDigits_append taken ends]
  · rename_i pointless
    cases scanned
    cases bytes with
    | nil => exact scanFraction_ends (ends rfl)
    | cons byte rest =>
      unfold scanFraction
      split
      · rename_i same
        exact absurd (congrArg (· :: rest) (List.cons.inj same).1) (pointless rest)
      · rfl

theorem scanExponentDigits_append {down : Bool} {exponent : Option (Bool × List Nat)}
    (scanned : scanExponentDigits down bytes = .ok (exponent, left))
    (ends : left = [] → EndsNumber more) :
    scanExponentDigits down (bytes ++ more) = .ok (exponent, left ++ more) := by
  cases bytes with
  | nil => cases scanned
  | cons first rest =>
    simp only [scanExponentDigits] at scanned
    split at scanned
    · rename_i digit
      obtain ⟨rfl, rfl⟩ := Prod.mk.inj (Except.ok.inj scanned)
      have taken : takeDigits (first :: (rest ++ more)) =
          ((takeDigits (first :: rest)).1, (takeDigits (first :: rest)).2 ++ more) :=
        takeDigits_append rfl ends
      simp only [List.cons_append, scanExponentDigits, if_pos digit, taken]
    · cases scanned

theorem scanExponent_append {exponent : Option (Bool × List Nat)}
    (scanned : scanExponent bytes = .ok (exponent, left)) (ends : left = [] → EndsNumber more) :
    scanExponent (bytes ++ more) = .ok (exponent, left ++ more) := by
  cases bytes with
  | nil =>
    cases scanned
    exact scanExponent_ends (ends rfl)
  | cons mark rest =>
    by_cases exponential : mark = 101 ∨ mark = 69
    · simp only [scanExponent, if_pos exponential] at scanned
      simp only [List.cons_append, scanExponent, if_pos exponential]
      split at scanned
      · exact scanExponentDigits_append scanned ends
      · exact scanExponentDigits_append scanned ends
      · rename_i plus minus
        have digits := scanExponentDigits_append scanned ends
        split
        · rename_i same
          cases rest with
          | nil => cases scanned
          | cons sign rest =>
            cases same
            exact absurd rfl (plus rest)
        · rename_i same
          cases rest with
          | nil => cases scanned
          | cons sign rest =>
            cases same
            exact absurd rfl (minus rest)
        · exact digits
    · simp only [scanExponent, if_neg exponential] at scanned
      cases scanned
      simp only [List.cons_append, scanExponent, if_neg exponential]

theorem scanFraction_nil {fraction : List Nat} (scanned : scanFraction [] = .ok (fraction, left)) :
    left = [] := by
  cases scanned
  rfl

theorem scanExponent_nil {exponent : Option (Bool × List Nat)}
    (scanned : scanExponent [] = .ok (exponent, left)) : left = [] := by
  cases scanned
  rfl

theorem scanNumeral_append {negative : Bool} {numeral : Numeral}
    (scanned : scanNumeral negative bytes = .ok (numeral, left))
    (ends : left = [] → EndsNumber more) :
    scanNumeral negative (bytes ++ more) = .ok (numeral, left ++ more) := by
  obtain ⟨⟨whole, behindWhole⟩, first, scanned⟩ := Outcome.bind_ok scanned
  obtain ⟨⟨fraction, behindFraction⟩, second, scanned⟩ := Outcome.bind_ok scanned
  obtain ⟨⟨exponent, behindExponent⟩, third, scanned⟩ := Outcome.bind_ok scanned
  cases scanned
  have endsFraction : behindFraction = [] → EndsNumber more := by
    rintro rfl
    exact ends (scanExponent_nil third)
  have endsWhole : behindWhole = [] → EndsNumber more := by
    rintro rfl
    exact endsFraction (scanFraction_nil second)
  simp only [scanNumeral, scanWhole_append first endsWhole, scanFraction_append second endsFraction,
    scanExponent_append third ends, bind, Except.bind]
  rfl

theorem readNumber_append {negative : Bool} {number : Number}
    (read : readNumber negative bytes = .ok (number, left)) (ends : left = [] → EndsNumber more) :
    readNumber negative (bytes ++ more) = .ok (number, left ++ more) := by
  obtain ⟨⟨numeral, behind⟩, scanned, read⟩ := Outcome.bind_ok read
  cases valued : numeral.value with
  | error unread =>
    simp only [valued] at read
    cases read
  | ok value =>
    simp only [valued] at read
    cases read
    simp only [readNumber, scanNumeral_append scanned ends, bind, Except.bind, valued]
    rfl

end FramedJson.Json
