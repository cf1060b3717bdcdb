namespace FramedJson.Blank

def ranges : List (Nat × Nat) :=
  [(0x9, 0xD), (0x20, 0x20), (0x85, 0x85), (0xA0, 0xA0), (0x1680, 0x1680), (0x2000, 0x200A),
   (0x2028, 0x2029), (0x202F, 0x202F), (0x205F, 0x205F), (0x3000, 0x3000)]

def isBlank (c : Char) : Bool :=
  ranges.any fun range => range.1 ≤ c.toNat && c.toNat ≤ range.2

def trim (chars : List Char) : List Char :=
  ((chars.dropWhile isBlank).reverse.dropWhile isBlank).reverse

/-- The word, with white space before and behind it or none. -/
def Padded (word chars : List Char) : Prop :=
  ∃ before after, (∀ c ∈ before, isBlank c) ∧ (∀ c ∈ after, isBlank c) ∧
    chars = before ++ word ++ after

theorem padded_trim (chars : List Char) : Padded (trim chars) chars := by
  have blank (text : List Char) : ∀ c ∈ text.takeWhile isBlank, isBlank c :=
    List.all_eq_true.mp List.all_takeWhile
  refine ⟨chars.takeWhile isBlank, ((chars.dropWhile isBlank).reverse.takeWhile isBlank).reverse,
    blank chars, ?_, ?_⟩
  · intro c member
    exact blank _ c (List.mem_reverse.mp member)
  · rw [trim, List.append_assoc, ← List.reverse_append, List.takeWhile_append_dropWhile,
      List.reverse_reverse, List.takeWhile_append_dropWhile]

theorem dropWhile_padding {word : List Char} (visible : word.dropWhile isBlank = word)
    (some : word ≠ []) {before : List Char} (blank : ∀ c ∈ before, isBlank c) (after : List Char) :
    (before ++ (word ++ after)).dropWhile isBlank = word ++ after := by
  rw [List.dropWhile_append_of_pos blank, List.dropWhile_append, visible,
    if_neg (fun empty => some (List.isEmpty_iff.mp empty))]

theorem trim_eq_iff {word : List Char} (some : word ≠ []) (opens : word.dropWhile isBlank = word)
    (ends : word.reverse.dropWhile isBlank = word.reverse) (chars : List Char) :
    trim chars = word ↔ Padded word chars := by
  constructor
  · rintro rfl
    exact padded_trim chars
  · rintro ⟨before, after, blank, blank', rfl⟩
    have blankBack : ∀ c ∈ after.reverse, isBlank c := fun c member =>
      blank' c (List.mem_reverse.mp member)
    rw [trim, List.append_assoc, dropWhile_padding opens some blank, List.reverse_append,
      ← List.append_nil (after.reverse ++ word.reverse), List.append_assoc,
      dropWhile_padding ends (fun empty => some (List.reverse_eq_nil_iff.mp empty)) blankBack,
      List.append_nil, List.reverse_reverse]

end FramedJson.Blank
