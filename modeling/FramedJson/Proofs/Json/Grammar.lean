import FramedJson.Json.Grammar
import FramedJson.Json.Skipper
import FramedJson.Proofs.Json.Extension
import FramedJson.Proofs.Json.ReadBack
import Mathlib.Data.List.DropRight

namespace FramedJson.Grammar

open Json

variable {rest : List UInt8}

section Blanks

variable {blank : List UInt8}

theorem isSpace_of_blanks (blanks : Blanks blank) : ∀ byte ∈ blank, isSpace byte := by
  intro byte member
  have known := blanks byte member
  simp only [List.mem_cons, List.not_mem_nil, or_false] at known
  rcases known with rfl | rfl | rfl | rfl <;> rfl

theorem skipSpace_padding (blanks : Blanks blank) (bytes : List UInt8) :
    skipSpace (blank ++ bytes) = skipSpace bytes :=
  List.dropWhile_append_of_pos (isSpace_of_blanks blanks)

theorem endsNumber_blanks (blanks : Blanks blank) (ends : EndsNumber rest) :
    EndsNumber (blank ++ rest) := by
  cases blank with
  | nil => exact ends
  | cons byte blank =>
    have known := blanks byte List.mem_cons_self
    simp only [List.mem_cons, List.not_mem_nil, or_false] at known
    apply endsNumber_cons
    rcases known with rfl | rfl | rfl | rfl <;> decide

end Blanks

theorem alone_self {test : List UInt8 → Prop} {text : List UInt8} (passes : test text) :
    Alone test text :=
  ⟨[], text, [], blanks_nil, passes, blanks_nil, (List.append_nil text).symm⟩

def Opens (text : List UInt8) : Prop :=
  ∃ first tail, text = first :: tail ∧ isSpace first = false ∧ first ≠ 93

section Listed

variable {close : UInt8} {first : Bool} {bytes item : List UInt8} {items : List (List UInt8)}

theorem Listed.ends (listed : Listed close false items bytes) (closes : close = 93 ∨ close = 125)
    (more : List UInt8) : EndsNumber (bytes ++ more) := by
  cases listed with
  | done blanks =>
    rw [List.append_assoc]
    apply endsNumber_blanks blanks
    rcases closes with rfl | rfl <;> exact endsNumber_cons _ _ (by decide)
  | next blanks blanks' others =>
    rw [List.append_assoc]
    exact endsNumber_blanks blanks (endsNumber_cons _ _ (by decide))

theorem Listed.length_le (listed : Listed close first items bytes) :
    items.length ≤ bytes.length ∧ (first = false → items.length < bytes.length) := by
  induction listed with
  | done blanks => simp
  | first blanks others ih =>
    have inner := ih.2 rfl
    simp only [List.length_cons, List.length_append]
    exact ⟨by omega, fun impossible => nomatch impossible⟩
  | next blanks blanks' others ih =>
    have inner := ih.2 rfl
    simp only [List.length_cons, List.length_append]
    omega

theorem Listed.written (listed : Listed close first items bytes) : 0 < bytes.length := by
  induction listed with
  | done blanks =>
    rw [List.length_append, List.length_singleton]
    omega
  | first blanks others ih =>
    simp only [List.length_append]
    omega
  | next blanks blanks' others ih =>
    simp only [List.length_append, List.length_cons]
    omega

theorem Listed.closed (listed : Listed close first [] bytes) (visible : isSpace close = false)
    (more : List UInt8) : skipSpace (bytes ++ more) = close :: more := by
  cases listed with
  | done blanks =>
    rw [List.append_assoc, skipSpace_padding blanks]
    exact skipSpace_cons visible more

theorem Listed.opened (listed : Listed close first (item :: items) bytes) (opens : Opens item)
    (more : List UInt8) : ∃ others, Listed close false items others ∧
      item.length + others.length ≤ bytes.length ∧
      if first then skipSpace (bytes ++ more) = item ++ (others ++ more)
      else ∃ behind, skipSpace (bytes ++ more) = 44 :: behind ∧
        skipSpace behind = item ++ (others ++ more) := by
  obtain ⟨byte, tail, rfl, visible, _⟩ := opens
  cases listed with
  | @first blank _ others _ blanks listed =>
    refine ⟨others, listed, by simp only [List.length_append]; omega, ?_⟩
    rw [if_pos rfl, List.append_assoc, skipSpace_padding blanks, List.append_assoc]
    exact skipSpace_cons visible _
  | @next blank blank' _ others _ blanks blanks' listed =>
    refine ⟨others, listed, by simp only [List.length_append, List.length_cons]; omega, ?_⟩
    rw [if_neg Bool.false_ne_true]
    refine ⟨blank' ++ ((byte :: tail) ++ (others ++ more)), ?_, ?_⟩
    · rw [List.append_assoc, skipSpace_padding blanks]
      simp only [List.cons_append, List.append_assoc]
      exact skipSpace_cons (by decide) _
    · rw [skipSpace_padding blanks']
      exact skipSpace_cons visible _

theorem Listed.nextItem_done (listed : Listed 93 first [] bytes) (more : List UInt8) :
    nextItem first (bytes ++ more) = .ok (false, more) := by
  rw [nextItem, listed.closed (by decide) more]
  rfl

theorem Listed.nextItem_more (listed : Listed 93 first (item :: items) bytes) (opens : Opens item)
    (more : List UInt8) : ∃ others, Listed 93 false items others ∧
      nextItem first (bytes ++ more) = .ok (true, item ++ (others ++ more)) := by
  obtain ⟨others, listed, _, next⟩ := listed.opened opens more
  refine ⟨others, listed, ?_⟩
  obtain ⟨byte, tail, rfl, _, unclosed⟩ := opens
  cases first with
  | true =>
    rw [if_pos rfl] at next
    rw [nextItem_open next unclosed]
    rfl
  | false =>
    rw [if_neg Bool.false_ne_true] at next
    obtain ⟨behind, comma, next⟩ := next
    rw [nextItem_open comma (by decide), if_neg Bool.false_ne_true, if_pos rfl, next]
    simp only [List.cons_append]
    split
    · rename_i same
      cases same
    · rename_i same
      exact absurd (List.cons.inj same).1 unclosed
    · rfl

theorem Listed.nextName_done (listed : Listed 125 first [] bytes) (more : List UInt8) :
    nextName first (bytes ++ more) = .ok (false, more) := by
  rw [nextName, listed.closed (by decide) more]
  rfl

theorem opens_quote (tail : List UInt8) : Opens (34 :: tail) := ⟨34, tail, rfl, by decide, by decide⟩

theorem Listed.nextName_more {tail : List UInt8} (listed : Listed 125 first ((34 :: tail) :: items) bytes)
    (more : List UInt8) : ∃ others, Listed 125 false items others ∧
      nextName first (bytes ++ more) = .ok (true, tail ++ (others ++ more)) := by
  obtain ⟨others, listed, _, next⟩ := listed.opened (opens_quote tail) more
  refine ⟨others, listed, ?_⟩
  cases first with
  | true =>
    rw [if_pos rfl] at next
    rw [nextName_open next (by decide)]
    rfl
  | false =>
    rw [if_neg Bool.false_ne_true] at next
    obtain ⟨behind, comma, next⟩ := next
    rw [nextName_open comma (by decide), if_neg Bool.false_ne_true, if_pos rfl, next]
    rfl

end Listed

section Strings

variable {inside bytes : List UInt8} {chars : List Char}

theorem readHex_code {digits : List UInt8} {value : Nat} (code : Code digits value)
    (rest : List UInt8) : readHex (digits ++ rest) = .ok (value, rest) := by
  cases code with
  | digits first second third fourth =>
    simp only [List.cons_append, List.nil_append, readHex, first, second, third, fourth]

theorem readEscape_known {letter : UInt8} {c : Char} (known : (letter, c) ∈ escapes)
    (rest : List UInt8) : readEscape (letter :: rest) = .ok (c, rest) := by
  simp only [escapes, List.mem_cons, Prod.mk.injEq, List.not_mem_nil, or_false] at known
  rcases known with ⟨rfl, rfl⟩ | ⟨rfl, rfl⟩ | ⟨rfl, rfl⟩ | ⟨rfl, rfl⟩ | ⟨rfl, rfl⟩ | ⟨rfl, rfl⟩ |
    ⟨rfl, rfl⟩ | ⟨rfl, rfl⟩ <;> rfl

theorem not_surrogate (c : Char) : ¬ (0xD800 ≤ c.toNat ∧ c.toNat ≤ 0xDFFF) := by
  have valid := c.valid
  change c.toNat.isValidChar at valid
  unfold Nat.isValidChar at valid
  omega

theorem readEscape_code {c : Char} {digits : List UInt8} (code : Code digits c.toNat)
    (rest : List UInt8) : readEscape (117 :: (digits ++ rest)) = .ok (c, rest) := by
  have plain := not_surrogate c
  simp only [readEscape, readHex_code code, bind, Except.bind]
  rw [if_neg (by omega), if_neg (by omega), Char.ofNat_toNat]
  rfl

theorem readEscape_pair {c : Char} {high low : List UInt8} (wide : 0x10000 ≤ c.toNat)
    (lead : Code high (0xD800 + (c.toNat - 0x10000) / 0x400))
    (trail : Code low (0xDC00 + (c.toNat - 0x10000) % 0x400)) (rest : List UInt8) :
    readEscape (117 :: (high ++ 92 :: 117 :: (low ++ rest))) = .ok (c, rest) := by
  have below := Utf8.toNat_lt c
  simp only [readEscape, readHex_code lead, bind, Except.bind]
  rw [if_neg (by omega), if_pos (by omega)]
  simp only [readTrail, readHex_code trail, bind, Except.bind]
  rw [if_pos (by omega)]
  have whole : 0x10000 + (0xD800 + (c.toNat - 0x10000) / 0x400 - 0xD800) * 0x400 +
      (0xDC00 + (c.toNat - 0x10000) % 0x400 - 0xDC00) = c.toNat := by omega
  rw [whole, Char.ofNat_toNat]
  rfl

theorem Spelling.length_le (spells : Spelling inside chars) : chars.length ≤ inside.length := by
  induction spells with
  | done => exact Nat.le_refl 0
  | @plain c rest chars quote backslash printable others ih =>
    obtain ⟨first, tail, bytes, _⟩ := encodeChar_plain quote backslash printable
    simp only [bytes, List.cons_append, List.length_cons, List.length_append]
    omega
  | escape known others ih =>
    simp only [List.length_cons]
    omega
  | code value others ih =>
    simp only [List.length_cons, List.length_append]
    omega
  | pair wide lead trail others ih =>
    simp only [List.length_cons, List.length_append]
    omega

theorem readChars_spelling (spells : Spelling inside chars) (rest : List UInt8) {budget : Nat}
    (enough : chars.length < budget) :
    readChars budget none (inside ++ 34 :: rest) = .ok (chars, rest) := by
  induction spells generalizing budget with
  | done =>
    cases budget with
    | zero => exact absurd enough (Nat.not_lt_zero _)
    | succ budget => rfl
  | @plain c inside chars quote backslash printable others ih =>
    cases budget with
    | zero => exact absurd enough (Nat.not_lt_zero _)
    | succ budget =>
      rw [List.append_assoc]
      exact readChars_plain quote backslash printable (ih (Nat.lt_of_succ_lt_succ enough))
  | escape known others ih =>
    cases budget with
    | zero => exact absurd enough (Nat.not_lt_zero _)
    | succ budget =>
      exact readChars_escape (readEscape_known known _) (ih (Nat.lt_of_succ_lt_succ enough))
  | code value others ih =>
    cases budget with
    | zero => exact absurd enough (Nat.not_lt_zero _)
    | succ budget =>
      rw [List.cons_append, List.cons_append, List.append_assoc]
      exact readChars_escape (readEscape_code value _) (ih (Nat.lt_of_succ_lt_succ enough))
  | pair wide lead trail others ih =>
    cases budget with
    | zero => exact absurd enough (Nat.not_lt_zero _)
    | succ budget =>
      simp only [List.cons_append, List.append_assoc]
      exact readChars_escape (readEscape_pair wide lead trail _)
        (ih (Nat.lt_of_succ_lt_succ enough))

theorem readString_spelling {text : String} (spells : Spelling inside text.toList)
    (rest : List UInt8) : readString (inside ++ 34 :: rest) = .ok (text, rest) := by
  have longer := spells.length_le
  have enough : text.toList.length < (inside ++ 34 :: rest).length + 1 := by
    rw [List.length_append]
    omega
  simp only [readString, readChars_spelling spells rest enough, bind, Except.bind,
    String.ofList_toList]
  rfl

end Strings

theorem readColon_padded {before : List UInt8} (blanks : Blanks before) (behind : List UInt8) :
    readColon (before ++ 58 :: behind) = .ok behind := by
  rw [readColon, skipSpace_padding blanks]
  rfl

section SkipNumbers

variable {digits whole fraction exponent : List UInt8}

def NoDigit (rest : List UInt8) : Prop := ∀ byte ∈ rest.head?, isDigit byte = false

theorem dropWhile_digits (all : ∀ byte ∈ digits, isDigit byte) (stops : NoDigit rest) :
    (digits ++ rest).dropWhile isDigit = rest := by
  rw [List.dropWhile_append_of_pos all]
  cases rest with
  | nil => rfl
  | cons byte rest => rw [List.dropWhile_cons, stops byte rfl, if_neg Bool.false_ne_true]

theorem skipDigits_digits (some : Digits digits) (stops : NoDigit rest) :
    skipDigits (digits ++ rest) = .ok rest := by
  obtain ⟨nonempty, all⟩ := some
  cases digits with
  | nil => exact absurd rfl nonempty
  | cons first digits =>
    have behind := dropWhile_digits (fun byte member => all byte (List.mem_cons_of_mem _ member)) stops
    rw [List.cons_append, skipDigits, if_pos (all first List.mem_cons_self), behind]

theorem skipWhole_whole (leads : Whole whole) (stops : NoDigit rest) :
    skipWhole (whole ++ rest) = .ok rest := by
  rcases leads with rfl | ⟨some, nonzero⟩
  · cases rest with
    | nil => rfl
    | cons next rest => simp [skipWhole, stops next rfl]
  · unfold skipWhole
    split
    · rename_i zero
      cases whole with
      | nil => exact absurd rfl some.1
      | cons first digits =>
        cases zero
        exact absurd rfl nonzero
    · exact skipDigits_digits some stops

theorem skipFraction_fraction (follows : Fraction fraction) (stops : NoDigit rest)
    (point : ∀ byte ∈ rest.head?, byte ≠ 46) : skipFraction (fraction ++ rest) = .ok rest := by
  rcases follows with rfl | ⟨digits, some, rfl⟩
  · rw [List.nil_append]
    unfold skipFraction
    split
    · exact absurd rfl (point 46 rfl)
    · rfl
  · exact skipDigits_digits some stops

theorem skipExponent_exponent (follows : Exponent exponent) (ends : EndsNumber rest) :
    skipExponent (exponent ++ rest) = .ok rest := by
  have stops : NoDigit rest := fun byte first => (ends byte first).1
  rcases follows with rfl | ⟨mark, sign, digits, marks, signs, some, rfl⟩
  · cases rest with
    | nil => rfl
    | cons byte rest =>
      have unmarked : ¬ (byte = 101 ∨ byte = 69) := not_or.mpr (ends byte rfl).2.2
      simp only [List.nil_append, skipExponent, if_neg unmarked]
  · have behind := skipDigits_digits some stops
    simp only [List.cons_append, List.append_assoc, skipExponent, if_pos marks]
    rcases signs with rfl | rfl | rfl
    · cases digits with
      | nil => exact absurd rfl some.1
      | cons first digits =>
        -- A digit is neither sign, so the digits are read from here on.
        have digit := some.2 first List.mem_cons_self
        split
        · rename_i same
          cases same
          exact absurd digit (by decide)
        · rename_i same
          cases same
          exact absurd digit (by decide)
        · exact behind
    · exact behind
    · exact behind

theorem exponent_stops (follows : Exponent exponent) (ends : EndsNumber rest) :
    NoDigit (exponent ++ rest) ∧ ∀ byte ∈ (exponent ++ rest).head?, byte ≠ 46 := by
  rcases follows with rfl | ⟨mark, sign, digits, marks, _, _, rfl⟩
  · exact ⟨fun byte first => (ends byte first).1, fun byte first => (ends byte first).2.1⟩
  · constructor
    · rintro byte ⟨⟩
      rcases marks with rfl | rfl <;> rfl
    · rintro byte ⟨⟩
      rcases marks with rfl | rfl <;> decide

theorem fraction_stops (follows : Fraction fraction) (stops : NoDigit rest) :
    NoDigit (fraction ++ rest) := by
  rcases follows with rfl | ⟨digits, _, rfl⟩
  · exact stops
  · rintro byte ⟨⟩
    rfl

theorem skipNumber_unsigned {bytes : List UInt8} (unsigned : Unsigned bytes)
    (ends : EndsNumber rest) : skipNumber (bytes ++ rest) = .ok rest := by
  obtain ⟨whole, fraction, exponent, leads, follows, last, rfl⟩ := unsigned
  obtain ⟨stops, point⟩ := exponent_stops last ends
  simp only [List.append_assoc, skipNumber, bind, Except.bind,
    skipWhole_whole leads (fraction_stops follows stops), skipFraction_fraction follows stops point,
    skipExponent_exponent last ends]

theorem Unsigned.opens {bytes : List UInt8} (unsigned : Unsigned bytes) :
    ∃ first tail, bytes = first :: tail ∧ isDigit first := by
  obtain ⟨whole, fraction, exponent, leads, _, _, rfl⟩ := unsigned
  rcases leads with rfl | ⟨⟨nonempty, all⟩, _⟩
  · exact ⟨48, fraction ++ exponent, rfl, rfl⟩
  · cases whole with
    | nil => exact absurd rfl nonempty
    | cons first digits => exact ⟨first, _, rfl, all first List.mem_cons_self⟩

end SkipNumbers

section SkipStrings

theorem skipEscape_known {letter : UInt8} {c : Char} (known : (letter, c) ∈ escapes)
    (rest : List UInt8) : skipEscape (letter :: rest) = .ok rest := by
  simp only [escapes, List.mem_cons, Prod.mk.injEq, List.not_mem_nil, or_false] at known
  rcases known with ⟨rfl, rfl⟩ | ⟨rfl, rfl⟩ | ⟨rfl, rfl⟩ | ⟨rfl, rfl⟩ | ⟨rfl, rfl⟩ | ⟨rfl, rfl⟩ |
    ⟨rfl, rfl⟩ | ⟨rfl, rfl⟩ <;> rfl

theorem skipEscape_code {digits : List UInt8} {value : Nat} (code : Code digits value)
    (rest : List UInt8) : skipEscape (117 :: (digits ++ rest)) = .ok rest := by
  simp only [skipEscape, readHex_code code, bind, Except.bind]
  rfl

theorem skipString_escape {budget : Nat} {bytes after : List UInt8}
    (escape : skipEscape bytes = .ok rest) (others : skipString budget rest = .ok after) :
    skipString (budget + 1) (92 :: bytes) = .ok after := by
  have quote : ¬ (92 : UInt8) = 34 := by decide
  simp only [skipString, if_neg quote, if_true, escape, bind, Except.bind, others]

theorem skipString_quotable {inside : List UInt8} (quotable : Quotable inside) (rest : List UInt8)
    {budget : Nat} (enough : inside.length < budget) :
    skipString budget (inside ++ 34 :: rest) = .ok rest := by
  induction quotable generalizing budget with
  | done =>
    cases budget with
    | zero => exact absurd enough (Nat.not_lt_zero _)
    | succ budget => rfl
  | @plain byte inside quote backslash printable others ih =>
    cases budget with
    | zero => exact absurd enough (Nat.not_lt_zero _)
    | succ budget =>
      have visible : ¬ byte < 32 := UInt8.not_lt.mpr printable
      rw [List.cons_append, skipString, if_neg quote, if_neg backslash, if_neg visible]
      exact ih (Nat.lt_of_succ_lt_succ enough)
  | escape known others ih =>
    cases budget with
    | zero => exact absurd enough (Nat.not_lt_zero _)
    | succ budget =>
      simp only [List.length_cons] at enough
      exact skipString_escape (skipEscape_known known _) (ih (by omega))
  | code four others ih =>
    cases budget with
    | zero => exact absurd enough (Nat.not_lt_zero _)
    | succ budget =>
      simp only [List.length_cons, List.length_append] at enough
      simp only [List.cons_append, List.append_assoc]
      exact skipString_escape (skipEscape_code four _) (ih (by omega))

end SkipStrings

section SkipValues

/-- Two calls for each byte are enough to pass over the text. -/
def Skipped (text : List UInt8) : Prop :=
  ∀ rest budget, EndsNumber rest → 2 * text.length ≤ budget →
    skipValue budget (text ++ rest) = .ok rest

theorem skipValue_skipSpace (budget : Nat) (bytes : List UInt8) :
    skipValue budget (skipSpace bytes) = skipValue budget bytes := by
  cases budget with
  | zero => rfl
  | succ budget =>
    have again : skipSpace (skipSpace bytes) = skipSpace bytes :=
      List.dropWhile_idempotent isSpace bytes
    rw [skipValue, again, skipValue]

theorem skipValue_padding {blank : List UInt8} (blanks : Blanks blank) (budget : Nat)
    (bytes : List UInt8) : skipValue budget (blank ++ bytes) = skipValue budget bytes := by
  rw [← skipValue_skipSpace, skipSpace_padding blanks, skipValue_skipSpace]

theorem skipValue_digit {budget : Nat} {byte : UInt8} {bytes : List UInt8} (digit : isDigit byte) :
    skipValue (budget + 1) (byte :: bytes) = skipNumber (byte :: bytes) := by
  rw [skipValue, skipSpace_cons (digit_visible digit).1]
  split
  case h_9 same =>
    cases same
    rw [if_pos digit]
  all_goals
    rename_i same
    cases same <;> exact absurd digit (by decide)

theorem skipped_numeral {bytes : List UInt8} (numeral : Numeral bytes) : Skipped bytes := by
  intro rest budget ends enough
  rcases numeral with unsigned | ⟨digits, unsigned, rfl⟩
  · obtain ⟨first, tail, rfl, digit⟩ := unsigned.opens
    cases budget with
    | zero => exact absurd enough (by simp)
    | succ budget =>
      exact (skipValue_digit digit).trans (skipNumber_unsigned unsigned ends)
  · cases budget with
    | zero => exact absurd enough (by simp)
    | succ budget => exact skipNumber_unsigned unsigned ends

theorem Value.opens {bytes : List UInt8} (value : Value bytes) : Opens bytes := by
  cases value with
  | null => exact ⟨110, _, rfl, by decide, by decide⟩
  | isTrue => exact ⟨116, _, rfl, by decide, by decide⟩
  | isFalse => exact ⟨102, _, rfl, by decide, by decide⟩
  | number numeral =>
    rcases numeral with unsigned | ⟨digits, _, rfl⟩
    · obtain ⟨first, tail, rfl, digit⟩ := unsigned.opens
      exact ⟨first, tail, rfl, digit_visible digit⟩
    · exact ⟨45, digits, rfl, by decide, by decide⟩
  | string quotable => exact opens_quote _
  | list values listed => exact ⟨91, _, rfl, by decide, by decide⟩
  | object names values written listed => exact ⟨123, _, rfl, by decide, by decide⟩

theorem skipItems_more {first : Bool} {item bytes others : List UInt8} {budget : Nat}
    {more : List UInt8} (opens : Opens item)
    (next : if first then skipSpace bytes = item ++ others
      else ∃ behind, skipSpace bytes = 44 :: behind ∧ skipSpace behind = item ++ others)
    (one : skipValue budget (item ++ others) = .ok rest)
    (later : skipItems budget false rest = .ok more) :
    skipItems (budget + 1) first bytes = .ok more := by
  obtain ⟨byte, tail, rfl, visible, unclosed⟩ := opens
  cases first with
  | true =>
    rw [if_pos rfl] at next
    rw [skipItems, next]
    split
    · rename_i same
      cases same
    · rename_i same
      exact absurd (List.cons.inj same).1 unclosed
    · rename_i same
      cases same
      rw [if_pos rfl]
      exact (congrArg (· >>= fun rest => skipItems budget false rest) one).trans later
  | false =>
    rw [if_neg Bool.false_ne_true] at next
    obtain ⟨behind, comma, next⟩ := next
    rw [← next, skipValue_skipSpace] at one
    rw [skipItems, comma]
    exact (congrArg (· >>= fun rest => skipItems budget false rest) one).trans later

theorem skipItems_listed {items : List (List UInt8)} {first : Bool} {bytes : List UInt8}
    (listed : Listed 93 first items bytes) (opens : ∀ item ∈ items, Opens item)
    (skipped : ∀ item ∈ items, Skipped item) (more : List UInt8) {budget : Nat}
    (enough : 2 * bytes.length ≤ budget) : skipItems budget first (bytes ++ more) = .ok more := by
  have written := listed.written
  induction items generalizing first bytes budget with
  | nil =>
    cases budget with
    | zero => omega
    | succ budget =>
      rw [skipItems, listed.closed (by decide) more]
      rfl
  | cons item items ih =>
    obtain ⟨others, listed, shorter, next⟩ := listed.opened (opens item List.mem_cons_self) more
    have here := opens item List.mem_cons_self
    have some : 0 < item.length := by
      obtain ⟨byte, tail, rfl, _⟩ := here
      simp
    have left := listed.written
    cases budget with
    | zero => omega
    | succ budget =>
      have one := skipped item List.mem_cons_self (others ++ more) budget
        (listed.ends (.inl rfl) more) (by omega)
      have later : skipItems budget false (others ++ more) = .ok more :=
        ih listed (fun item member => opens item (List.mem_cons_of_mem _ member))
          (fun item member => skipped item (List.mem_cons_of_mem _ member)) (by omega) left
      exact skipItems_more here next one later

theorem skipMember_skipSpace (budget : Nat) (bytes : List UInt8) :
    skipMember budget (skipSpace bytes) = skipMember budget bytes := by
  cases budget with
  | zero => rfl
  | succ budget =>
    have again : skipSpace (skipSpace bytes) = skipSpace bytes :=
      List.dropWhile_idempotent isSpace bytes
    rw [skipMember, again, skipMember]

theorem skipMember_one {name value text others more : List UInt8} {budget : Nat}
    (member : MemberText name value text) (quotable : Quotable name)
    (one : skipValue budget (value ++ others) = .ok rest)
    (later : skipMembers budget false rest = .ok more) :
    skipMember (budget + 1) (text ++ others) = .ok more := by
  obtain ⟨before, after, blanks, blanks', rfl⟩ := member
  have longer : name.length <
      (name ++ 34 :: (before ++ 58 :: (after ++ (value ++ others)))).length + 1 := by
    rw [List.length_append]
    omega
  have key := skipString_quotable quotable (before ++ 58 :: (after ++ (value ++ others))) longer
  have colon := readColon_padded blanks (after ++ (value ++ others))
  rw [← skipValue_padding blanks'] at one
  simp only [List.cons_append, List.append_assoc]
  rw [skipMember, skipSpace_cons (by decide)]
  simp only [key, colon, one, bind, Except.bind, later]

theorem skipMembers_more {first : Bool} {text bytes others more : List UInt8} {budget : Nat}
    (opens : ∃ tail, text = 34 :: tail)
    (next : if first then skipSpace bytes = text ++ others
      else ∃ behind, skipSpace bytes = 44 :: behind ∧ skipSpace behind = text ++ others)
    (one : skipMember budget (text ++ others) = .ok more) :
    skipMembers (budget + 1) first bytes = .ok more := by
  obtain ⟨tail, rfl⟩ := opens
  cases first with
  | true =>
    rw [if_pos rfl] at next
    rw [skipMembers, next]
    exact one
  | false =>
    rw [if_neg Bool.false_ne_true] at next
    obtain ⟨behind, comma, next⟩ := next
    rw [← next, skipMember_skipSpace] at one
    rw [skipMembers, comma]
    exact one

theorem MemberText.opens {name value text : List UInt8} (member : MemberText name value text) :
    ∃ tail, text = 34 :: tail := by
  obtain ⟨before, after, _, _, rfl⟩ := member
  exact ⟨_, rfl⟩

theorem MemberText.length_lt {name value text : List UInt8} (member : MemberText name value text) :
    value.length + 2 < text.length := by
  obtain ⟨before, after, _, _, rfl⟩ := member
  simp only [List.length_cons, List.length_append]
  omega

theorem skipMembers_listed {members : List (List UInt8 × List UInt8)} {texts : List (List UInt8)}
    {first : Bool} {bytes : List UInt8}
    (written : List.Forall₂ (fun member text => MemberText member.1 member.2 text) members texts)
    (listed : Listed 125 first texts bytes) (names : ∀ member ∈ members, Quotable member.1)
    (skipped : ∀ member ∈ members, Skipped member.2) (more : List UInt8) {budget : Nat}
    (enough : 2 * bytes.length ≤ budget) : skipMembers budget first (bytes ++ more) = .ok more := by
  have some := listed.written
  induction written generalizing first bytes budget with
  | nil =>
    cases budget with
    | zero => omega
    | succ budget =>
      rw [skipMembers, listed.closed (by decide) more]
      rfl
  | @cons member text members texts here behind ih =>
    obtain ⟨tail, quote⟩ := here.opens
    obtain ⟨others, listed, shorter, next⟩ :=
      listed.opened (quote ▸ opens_quote tail) more
    have left := listed.written
    have longer := here.length_lt
    match budget with
    | 0 | 1 => omega
    | budget + 2 =>
      have one := skipped member List.mem_cons_self (others ++ more) budget
        (listed.ends (.inr rfl) more) (by omega)
      have later : skipMembers budget false (others ++ more) = .ok more :=
        ih listed (fun member among => names member (List.mem_cons_of_mem _ among))
          (fun member among => skipped member (List.mem_cons_of_mem _ among)) (by omega) left
      exact skipMembers_more here.opens next
        (skipMember_one here (names member List.mem_cons_self) one later)

/-- Whatever the grammar allows as a value is passed over, to whatever depth it nests. -/
theorem Value.skipped {bytes : List UInt8} (value : Value bytes) : Skipped bytes := by
  induction value with
  | number numeral => exact skipped_numeral numeral
  | null =>
    intro rest budget ends enough
    cases budget with
    | zero => exact absurd enough (by decide)
    | succ budget => rfl
  | isTrue =>
    intro rest budget ends enough
    cases budget with
    | zero => exact absurd enough (by decide)
    | succ budget => rfl
  | isFalse =>
    intro rest budget ends enough
    cases budget with
    | zero => exact absurd enough (by decide)
    | succ budget => rfl
  | @string inside quotable =>
    intro rest budget ends enough
    cases budget with
    | zero => simp at enough
    | succ budget =>
      rw [List.cons_append, List.append_assoc, List.singleton_append]
      exact skipString_quotable quotable rest (by rw [List.length_append]; omega)
  | @list items inside values listed ih =>
    intro rest budget ends enough
    rw [List.length_cons] at enough
    cases budget with
    | zero => omega
    | succ budget =>
      exact skipItems_listed listed (fun item member => (values item member).opens) ih rest (by omega)
  | @object members texts inside names values written listed ih =>
    intro rest budget ends enough
    rw [List.length_cons] at enough
    cases budget with
    | zero => omega
    | succ budget => exact skipMembers_listed written listed names ih rest (by omega)

theorem skip_value {blank bytes : List UInt8} (blanks : Blanks blank) (value : Value bytes)
    (ends : EndsNumber rest) : skip (blank ++ (bytes ++ rest)) = .ok rest := by
  rw [skip, skipValue_padding blanks]
  apply value.skipped rest _ ends
  rw [skipBudget, List.length_append, List.length_append]
  omega

end SkipValues

end FramedJson.Grammar
