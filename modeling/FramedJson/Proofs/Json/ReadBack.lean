import FramedJson.Json.Exact
import FramedJson.Proofs.Json.Doubles
import FramedJson.Proofs.Json.Numerals
import FramedJson.Proofs.Json.Strings

namespace FramedJson

def Layout.ofBlanks (s c : Nat) : Layout :=
  ⟨',' :: List.replicate s ' ', ':' :: List.replicate c ' '⟩

theorem Layout.ofBlanks_separator (s c : Nat) :
    (ofBlanks s c).separator = ',' :: List.replicate s ' ' := rfl

theorem Layout.ofBlanks_colon (s c : Nat) :
    (ofBlanks s c).colon = ':' :: List.replicate c ' ' := rfl

namespace Json

section Steps

variable {budget room : Nat} {bytes rest : List UInt8}

theorem skipSpace_cons {byte : UInt8} (visible : isSpace byte = false) (bytes : List UInt8) :
    skipSpace (byte :: bytes) = byte :: bytes := by
  rw [skipSpace, List.dropWhile_cons, if_neg (by rw [visible]; exact Bool.false_ne_true)]

theorem skipSpace_blanks (n : Nat) (bytes : List UInt8) :
    skipSpace (Utf8.encode (List.replicate n ' ') ++ bytes) = skipSpace bytes := by
  induction n with
  | zero => rfl
  | succ n ih => exact ih

theorem readValue_blanks (n : Nat) (budget room : Nat) (bytes : List UInt8) :
    readValue budget room (Utf8.encode (List.replicate n ' ') ++ bytes) =
      readValue budget room bytes := by
  cases budget with
  | zero => rfl
  | succ budget => rw [readValue, readValue, skipSpace_blanks]

theorem readValue_null :
    readValue (budget + 1) room (Utf8.encode ['n', 'u', 'l', 'l'] ++ rest) = .ok (.null, rest) :=
  rfl

theorem readValue_true :
    readValue (budget + 1) room (Utf8.encode ['t', 'r', 'u', 'e'] ++ rest) =
      .ok (.bool true, rest) :=
  rfl

theorem readValue_false :
    readValue (budget + 1) room (Utf8.encode ['f', 'a', 'l', 's', 'e'] ++ rest) =
      .ok (.bool false, rest) :=
  rfl

theorem readValue_str {text : String} (read : readString bytes = .ok (text, rest)) :
    readValue (budget + 1) room (34 :: bytes) = .ok (.str text, rest) := by
  change (readString bytes >>= fun found => pure (Json.str found.1, found.2)) = _
  rw [read]
  rfl

theorem readValue_minus {number : Number} (read : readNumber true bytes = .ok (number, rest)) :
    readValue (budget + 1) room (45 :: bytes) = .ok (.num number, rest) := by
  change (readNumber true bytes >>= fun found => pure (Json.num found.1, found.2)) = _
  rw [read]
  rfl

theorem readValue_arr {items : List Json}
    (read : readItems budget room true bytes = .ok (items, rest)) :
    readValue (budget + 1) (room + 1) (91 :: bytes) = .ok (.arr items, rest) := by
  change (readItems budget room true bytes >>= fun found => pure (Json.arr found.1, found.2)) = _
  rw [read]
  rfl

theorem readValue_obj {members : List (String × Json)}
    (read : readMembers budget room true bytes = .ok (members, rest)) :
    readValue (budget + 1) (room + 1) (123 :: bytes) = .ok (.object members, rest) := by
  change (readMembers budget room true bytes >>=
    fun found => pure (Json.object found.1, found.2)) = _
  rw [read]
  rfl

theorem digit_visible {byte : UInt8} (digit : isDigit byte) :
    isSpace byte = false ∧ byte ≠ 93 := by
  have range : 48 ≤ byte.toNat ∧ byte.toNat ≤ 57 := by
    simpa only [isDigit, Bool.and_eq_true, decide_eq_true_eq] using digit
  simp only [isSpace, Bool.or_eq_false_iff, decide_eq_false_iff_not]
  refine ⟨⟨⟨⟨?_, ?_⟩, ?_⟩, ?_⟩, ?_⟩ <;> (rintro rfl; exact absurd range (by decide))

theorem readValue_digit {byte : UInt8} {number : Number} (digit : isDigit byte)
    (read : readNumber false (byte :: bytes) = .ok (number, rest)) :
    readValue (budget + 1) room (byte :: bytes) = .ok (.num number, rest) := by
  rw [readValue, skipSpace_cons (digit_visible digit).1]
  split
  case h_9 first tail _ _ _ _ _ _ _ same =>
    cases same
    rw [if_pos digit, read]
    rfl
  all_goals
    rename_i same
    cases same <;> exact absurd digit (by decide)

theorem nextItem_first {byte : UInt8} (visible : isSpace byte = false) (more : byte ≠ 93) :
    nextItem true (byte :: bytes) = .ok (true, byte :: bytes) := by
  rw [nextItem, skipSpace_cons visible]
  split
  · rename_i same
    cases same
  · rename_i same
    exact absurd (List.cons.inj same).1 more
  · rename_i same
    cases same
    rfl

theorem nextItem_next (n : Nat) {byte : UInt8} (visible : isSpace byte = false)
    (more : byte ≠ 93) :
    nextItem false (44 :: (Utf8.encode (List.replicate n ' ') ++ byte :: bytes)) =
      .ok (true, byte :: bytes) := by
  rw [nextItem, skipSpace_cons (by decide)]
  split
  · rename_i same
    cases same
  · rename_i same
    exact absurd (List.cons.inj same).1 (by decide)
  · rename_i same
    cases same
    rw [if_neg Bool.false_ne_true, if_pos rfl, skipSpace_blanks, skipSpace_cons visible]
    split
    · rename_i same
      cases same
    · rename_i same
      exact absurd (List.cons.inj same).1 more
    · rfl

theorem nextName_first : nextName true (34 :: bytes) = .ok (true, bytes) := rfl

theorem nextName_next (n : Nat) :
    nextName false (44 :: (Utf8.encode (List.replicate n ' ') ++ 34 :: bytes)) =
      .ok (true, bytes) := by
  rw [nextName, skipSpace_cons (by decide)]
  split
  · rename_i same
    cases same
  · rename_i same
    exact absurd (List.cons.inj same).1 (by decide)
  · rename_i same
    cases same
    rw [if_neg Bool.false_ne_true, if_pos rfl, skipSpace_blanks]
    rfl

variable {first : Bool} {item value : Json} {items : List Json} {name : String}
  {members : List (String × Json)} {opened valued : List UInt8}

theorem readItems_end : readItems (budget + 1) room first (93 :: rest) = .ok ([], rest) := rfl

theorem readItems_more (next : nextItem first bytes = .ok (true, opened))
    (one : readValue budget room opened = .ok (item, valued))
    (others : readItems budget room false valued = .ok (items, rest)) :
    readItems (budget + 1) room first bytes = .ok (item :: items, rest) := by
  simp only [readItems, next, bind, Except.bind, if_true, one, others]
  rfl

theorem readMembers_end :
    readMembers (budget + 1) room first (125 :: rest) = .ok ([], rest) := rfl

theorem readMembers_more {named : List UInt8} (n : Nat)
    (next : nextName first bytes = .ok (true, opened))
    (key : readString opened = .ok (name, 58 :: (Utf8.encode (List.replicate n ' ') ++ named)))
    (one : readValue budget room named = .ok (value, valued))
    (others : readMembers budget room false valued = .ok (members, rest)) :
    readMembers (budget + 1) room first bytes = .ok ((name, value) :: members, rest) := by
  have colon : ∀ after, readColon (58 :: after) = .ok after := fun _ => rfl
  simp only [readMembers, next, bind, Except.bind, if_true, key, colon, readValue_blanks, one,
    others]
  rfl

end Steps

section Numbers

theorem readNumber_opens {bytes left : List UInt8} {negative : Bool} {number : Number}
    (read : readNumber negative bytes = .ok (number, left)) :
    ∃ first rest, bytes = first :: rest ∧ isDigit first := by
  obtain ⟨⟨numeral, behind⟩, scanned, _⟩ := Outcome.bind_ok read
  obtain ⟨⟨whole, behindWhole⟩, first, _⟩ := Outcome.bind_ok scanned
  cases bytes with
  | nil => cases first
  | cons byte rest =>
    refine ⟨byte, rest, rfl, ?_⟩
    by_cases zero : byte = 48
    · rw [zero]
      rfl
    · by_cases digit : isDigit byte
      · exact digit
      · simp [scanWhole, zero, digit] at first

theorem readSigned_unsigned {bytes left : List UInt8} {number : Number}
    (read : readNumber false bytes = .ok (number, left)) : readSigned bytes = .ok (number, left) := by
  obtain ⟨first, rest, rfl, digit⟩ := readNumber_opens read
  unfold readSigned
  split
  · rename_i same
    rw [(List.cons.inj same).1] at digit
    exact absurd digit (by decide)
  · exact read

theorem readSigned_int (v : Int) (inRange : -2 ^ 63 ≤ v ∧ v < 2 ^ 64) :
    readSigned (Utf8.encode (Number.render (.int v inRange))) = .ok (.int v inRange, []) := by
  rw [Number.render]
  split
  · have signed : v = if true then -(v.natAbs : Int) else v.natAbs := by
      simp only [if_true]
      omega
    have read := readNumber_toDigits true signed (fun _ => by omega) inRange endsNumber_nil
    rw [List.append_nil] at read
    exact read
  · have signed : v = if false then -(v.natAbs : Int) else v.natAbs := by
      simp only [Bool.false_eq_true, if_false]
      omega
    have read := readNumber_toDigits false signed (fun h => absurd h Bool.false_ne_true) inRange endsNumber_nil
    rw [List.append_nil] at read
    exact readSigned_unsigned read

theorem readSigned_real (x : Binary64) :
    ∃ y, readSigned (Utf8.encode (Number.render (.real x))) = .ok (.real y, []) := by
  obtain ⟨y, read⟩ := readNumber_unsigned x.negative x
  refine ⟨y, ?_⟩
  rw [Number.render, render_signed]
  cases sign : x.negative with
  | true =>
    rw [sign] at read
    exact read
  | false =>
    rw [sign] at read
    exact readSigned_unsigned read

theorem readSigned_render (number : Number) :
    readSigned (Utf8.encode number.render) = .ok (number.reread, []) := by
  have reads : ∃ found, readSigned (Utf8.encode number.render) = .ok (found, []) := by
    cases number with
    | int v inRange => exact ⟨_, readSigned_int v inRange⟩
    | real x =>
      obtain ⟨y, read⟩ := readSigned_real x
      exact ⟨_, read⟩
  obtain ⟨found, read⟩ := reads
  rw [Number.reread, read]

theorem readsBack_iff {number : Number} : number.readsBack ↔ number.reread = number := by
  simp [Number.readsBack, readSigned_render]

theorem int_readsBack (v : Int) (inRange : -2 ^ 63 ≤ v ∧ v < 2 ^ 64) :
    (Number.int v inRange).readsBack := by
  rw [readsBack_iff, Number.reread, readSigned_int]

theorem render_number (number : Number) :
    (∃ digits, Utf8.encode number.render = 45 :: digits ∧
      readNumber true digits = .ok (number.reread, [])) ∨
    ∃ first digits, Utf8.encode number.render = first :: digits ∧ isDigit first ∧
      readNumber false (first :: digits) = .ok (number.reread, []) := by
  have read := readSigned_render number
  unfold readSigned at read
  split at read
  · rename_i digits signed
    exact .inl ⟨digits, signed, read⟩
  · obtain ⟨first, digits, shape, digit⟩ := readNumber_opens read
    rw [shape] at read
    exact .inr ⟨first, digits, shape, digit, read⟩

theorem readValue_num (number : Number) (budget room : Nat) {rest : List UInt8}
    (ends : EndsNumber rest) :
    readValue (budget + 1) room (Utf8.encode number.render ++ rest) =
      .ok (.num number.reread, rest) := by
  rcases render_number number with ⟨digits, shape, read⟩ | ⟨first, digits, shape, digit, read⟩
  · rw [shape]
    exact readValue_minus (readNumber_append read fun _ => ends)
  · rw [shape]
    exact readValue_digit digit (readNumber_append read fun _ => ends)

theorem numbersReadBack_of_noReals {v : Json} (whole : v.noReals) : v.numbersReadBack := by
  refine all_mono ?_ v whole
  intro part integral
  cases part with
  | num number =>
    cases number with
    | int v inRange => exact int_readsBack v inRange
    | real x => cases integral
  | _ => rfl

end Numbers

section Reread

mutual

theorem reread_of_exact (v : Json) (exact : v.numbersReadBack) : v.reread = v := by
  match v with
  | .null | .bool _ | .str _ => rfl
  | .num number => exact congrArg Json.num (readsBack_iff.mp exact)
  | .arr items =>
    simp only [numbersReadBack, all, Bool.and_eq_true] at exact
    exact congrArg Json.arr (rereadItems_of_exact items exact.2)
  | .obj members =>
    simp only [numbersReadBack, all, Bool.and_eq_true] at exact
    exact congrArg Json.obj (rereadMembers_of_exact members exact.2)

theorem rereadItems_of_exact (items : List Json) (exact : allItems ownNumberReadsBack items) :
    rereadItems items = items := by
  match items with
  | [] => rfl
  | item :: rest =>
    simp only [allItems, Bool.and_eq_true] at exact
    rw [rereadItems, reread_of_exact item exact.1, rereadItems_of_exact rest exact.2]

theorem rereadMembers_of_exact (members : List (String × Json))
    (exact : allMembers ownNumberReadsBack members) : rereadMembers members = members := by
  match members with
  | [] => rfl
  | (name, value) :: rest =>
    simp only [allMembers, Bool.and_eq_true] at exact
    rw [rereadMembers, reread_of_exact value exact.1, rereadMembers_of_exact rest exact.2]
end

mutual

theorem depth_reread (v : Json) : v.reread.depth = v.depth := by
  match v with
  | .null | .bool _ | .num _ | .str _ => rfl
  | .arr items => rw [reread, depth, depth, depth_rereadItems items]
  | .obj members => rw [reread, depth, depth, depth_rereadMembers members]

theorem depth_rereadItems (items : List Json) :
    depthOfItems (rereadItems items) = depthOfItems items := by
  match items with
  | [] => rfl
  | item :: rest =>
    rw [rereadItems, depthOfItems, depthOfItems, depth_reread item, depth_rereadItems rest]

theorem depth_rereadMembers (members : List (String × Json)) :
    depthOfMembers (rereadMembers members) = depthOfMembers members := by
  match members with
  | [] => rfl
  | (name, value) :: rest =>
    rw [rereadMembers, depthOfMembers, depthOfMembers, depth_reread value, depth_rereadMembers rest]
end

theorem rereadMembers_names (members : List (String × Json)) :
    (rereadMembers members).map Prod.fst = members.map Prod.fst := by
  induction members with
  | nil => rfl
  | cons member rest ih => rw [rereadMembers, List.map_cons, List.map_cons, ih]

end Reread

theorem render_opens (layout : Layout) (v : Json) :
    ∃ first tail, Utf8.encode (v.render layout) = first :: tail ∧
      isSpace first = false ∧ first ≠ 93 := by
  cases v with
  | null => exact ⟨110, _, rfl, by decide, by decide⟩
  | bool b =>
    cases b with
    | true => exact ⟨116, _, rfl, by decide, by decide⟩
    | false => exact ⟨102, _, rfl, by decide, by decide⟩
  | num number =>
    rcases render_number number with ⟨digits, shape, _⟩ | ⟨first, digits, shape, digit, _⟩
    · exact ⟨45, digits, shape, by decide, by decide⟩
    · exact ⟨first, digits, shape, digit_visible digit⟩
  | str text => exact ⟨34, _, rfl, by decide, by decide⟩
  | arr items =>
    cases items with
    | nil => exact ⟨91, _, rfl, by decide, by decide⟩
    | cons item rest => exact ⟨91, _, rfl, by decide, by decide⟩
  | obj members =>
    cases members with
    | nil => exact ⟨123, _, rfl, by decide, by decide⟩
    | cons member rest => exact ⟨123, _, rfl, by decide, by decide⟩

theorem length_render_pos (layout : Layout) (v : Json) : 0 < (v.render layout).length := by
  obtain ⟨first, tail, bytes, _⟩ := render_opens layout v
  apply List.length_pos_iff.mpr
  intro empty
  rw [empty] at bytes
  cases bytes

section Documents

variable (s c : Nat)

theorem renderItems_ends (items : List Json) (rest : List UInt8) :
    EndsNumber (Utf8.encode (renderItems (.ofBlanks s c) items) ++ rest) := by
  cases items with
  | nil => exact endsNumber_cons 93 _ (by decide)
  | cons item items =>
    rw [renderItems, Layout.ofBlanks_separator]
    exact endsNumber_cons 44 _ (by decide)

theorem renderMembers_ends (members : List (String × Json)) (rest : List UInt8) :
    EndsNumber (Utf8.encode (renderMembers (.ofBlanks s c) members) ++ rest) := by
  cases members with
  | nil => exact endsNumber_cons 125 _ (by decide)
  | cons member members =>
    rw [renderMembers, Layout.ofBlanks_separator]
    exact endsNumber_cons 44 _ (by decide)

theorem readString_name (name : String) (value : List Char) (rest : List UInt8) :
    ∃ body, Utf8.encode (renderString name ++ (Layout.ofBlanks s c).colon ++ value) ++ rest =
        34 :: body ∧
      readString body =
        .ok (name, 58 :: (Utf8.encode (List.replicate c ' ') ++ (Utf8.encode value ++ rest))) := by
  obtain ⟨body, bytes, read⟩ := readString_renderString name
    (58 :: (Utf8.encode (List.replicate c ' ') ++ (Utf8.encode value ++ rest)))
  refine ⟨_, ?_, read⟩
  simp only [Utf8.encode_append, bytes, Layout.ofBlanks_colon, Utf8.encode_cons, List.append_assoc,
    List.cons_append]
  rfl

mutual

/-- Two calls for each character are enough. -/
theorem readValue_render (v : Json) (budget room : Nat) {rest : List UInt8}
    (differ : v.namesDiffer) (shallow : v.depth ≤ room)
    (enough : 2 * (v.render (.ofBlanks s c)).length ≤ budget) (ends : EndsNumber rest) :
    readValue budget room (Utf8.encode (v.render (.ofBlanks s c)) ++ rest) = .ok (v.reread, rest) := by
  have written := length_render_pos (.ofBlanks s c) v
  match v, budget, room with
  | .null, budget + 1, room => exact readValue_null
  | .bool true, budget + 1, room => exact readValue_true
  | .bool false, budget + 1, room => exact readValue_false
  | .num number, 0, _ => omega
  | .num number, budget + 1, room => exact readValue_num number budget room ends
  | .str text, budget + 1, room =>
    obtain ⟨body, bytes, read⟩ := readString_renderString text rest
    rw [render, bytes]
    exact readValue_str read
  | .arr [], budget + 2, room + 1 => exact readValue_arr readItems_end
  | .arr (item :: items), budget + 2, room + 1 =>
    simp only [namesDiffer, all, allItems, Bool.and_eq_true] at differ
    simp only [depth, depthOfItems] at shallow
    simp only [render, List.length_cons, List.length_append] at enough
    obtain ⟨first, tail, bytes, visible, more⟩ := render_opens (.ofBlanks s c) item
    have others := readItems_render items budget room rest
      differ.2.2 (by omega) (by omega)
    have one := readValue_render item budget room
      differ.2.1 (by omega) (by omega) (renderItems_ends s c items rest)
    have shape : Utf8.encode (render (.ofBlanks s c) (.arr (item :: items))) ++ rest =
        91 :: (Utf8.encode (item.render (.ofBlanks s c)) ++
          (Utf8.encode (renderItems (.ofBlanks s c) items) ++ rest)) := by
      rw [render, Utf8.encode_cons, Utf8.encode_append]
      simp only [List.append_assoc]
      rfl
    rw [shape]
    apply readValue_arr
    rw [bytes] at one ⊢
    exact readItems_more (nextItem_first visible more) one others
  | .obj [], budget + 2, room + 1 => exact readValue_obj readMembers_end
  | .obj ((name, value) :: members), budget + 2, room + 1 =>
    simp only [namesDiffer, all, allMembers, Bool.and_eq_true] at differ
    simp only [depth, depthOfMembers] at shallow
    simp only [render, List.length_cons, List.length_append] at enough
    have others := readMembers_render members budget room rest
      differ.2.2 (by omega) (by omega)
    have one := readValue_render value budget room
      differ.2.1 (by omega) (by omega) (renderMembers_ends s c members rest)
    obtain ⟨body, bytes, key⟩ := readString_name s c name (value.render (.ofBlanks s c))
      (Utf8.encode (renderMembers (.ofBlanks s c) members) ++ rest)
    have shape : Utf8.encode (render (.ofBlanks s c) (.obj ((name, value) :: members))) ++ rest =
        123 :: 34 :: body := by
      rw [← bytes, render, Utf8.encode_cons, Utf8.encode_append]
      simp only [List.append_assoc]
      rfl
    have names := rereadMembers_names ((name, value) :: members)
    have kept : Assoc.ofWrites (rereadMembers ((name, value) :: members)) =
        rereadMembers ((name, value) :: members) :=
      Assoc.ofWrites_of_nodup (names ▸ of_decide_eq_true differ.1)
    have read := readValue_obj (readMembers_more c nextName_first key one others)
    rw [object, ← rereadMembers, kept] at read
    rw [shape]
    exact read

theorem readItems_render (items : List Json) (budget room : Nat) (rest : List UInt8)
    (differ : allItems ownNamesDiffer items) (shallow : depthOfItems items ≤ room)
    (enough : 2 * (renderItems (.ofBlanks s c) items).length ≤ budget) :
    readItems budget room false (Utf8.encode (renderItems (.ofBlanks s c) items) ++ rest) =
      .ok (rereadItems items, rest) := by
  match items, budget with
  | [], budget + 1 => exact readItems_end
  | item :: items, 0 =>
    simp only [renderItems, Layout.ofBlanks_separator, List.length_append, List.length_cons] at enough
    omega
  | item :: items, budget + 1 =>
    simp only [allItems, Bool.and_eq_true] at differ
    simp only [depthOfItems] at shallow
    simp only [renderItems, Layout.ofBlanks_separator, List.length_cons, List.length_append] at enough
    obtain ⟨first, tail, bytes, visible, more⟩ := render_opens (.ofBlanks s c) item
    have others := readItems_render items budget room rest
      differ.2 (by omega) (by omega)
    have one := readValue_render item budget room
      differ.1 (by omega) (by omega) (renderItems_ends s c items rest)
    have shape : Utf8.encode (renderItems (.ofBlanks s c) (item :: items)) ++ rest =
        44 :: (Utf8.encode (List.replicate s ' ') ++ (Utf8.encode (item.render (.ofBlanks s c)) ++
          (Utf8.encode (renderItems (.ofBlanks s c) items) ++ rest))) := by
      rw [renderItems, Layout.ofBlanks_separator]
      simp only [Utf8.encode_append, Utf8.encode_cons, List.append_assoc]
      rfl
    rw [shape]
    rw [bytes] at one ⊢
    exact readItems_more (nextItem_next s visible more) one others

theorem readMembers_render (members : List (String × Json)) (budget room : Nat)
    (rest : List UInt8) (differ : allMembers ownNamesDiffer members)
    (shallow : depthOfMembers members ≤ room)
    (enough : 2 * (renderMembers (.ofBlanks s c) members).length ≤ budget) :
    readMembers budget room false (Utf8.encode (renderMembers (.ofBlanks s c) members) ++ rest) =
      .ok (rereadMembers members, rest) := by
  match members, budget with
  | [], budget + 1 => exact readMembers_end
  | (name, value) :: members, 0 =>
    simp only [renderMembers, Layout.ofBlanks_separator, List.length_append, List.length_cons] at enough
    omega
  | (name, value) :: members, budget + 1 =>
    simp only [allMembers, Bool.and_eq_true] at differ
    simp only [depthOfMembers] at shallow
    simp only [renderMembers, Layout.ofBlanks_separator, List.length_cons, List.length_append] at enough
    have others := readMembers_render members budget room rest
      differ.2 (by omega) (by omega)
    have one := readValue_render value budget room
      differ.1 (by omega) (by omega) (renderMembers_ends s c members rest)
    obtain ⟨body, bytes, key⟩ := readString_name s c name (value.render (.ofBlanks s c))
      (Utf8.encode (renderMembers (.ofBlanks s c) members) ++ rest)
    have shape : Utf8.encode (renderMembers (.ofBlanks s c) ((name, value) :: members)) ++ rest =
        44 :: (Utf8.encode (List.replicate s ' ') ++ 34 :: body) := by
      rw [← bytes, renderMembers, Layout.ofBlanks_separator]
      simp only [Utf8.encode_append, Utf8.encode_cons, List.append_assoc]
      rfl
    rw [shape]
    exact readMembers_more c (nextName_next s) key one others
end

end Documents

theorem readValue_alone (s c : Nat) {v : Json} (differ : v.namesDiffer) (room : Nat)
    (shallow : v.depth ≤ room) :
    readValue (budgetFor (Utf8.encode (v.render (.ofBlanks s c)))) room
      (Utf8.encode (v.render (.ofBlanks s c))) = .ok (v.reread, []) := by
  have longer := Utf8.length_le_encode (v.render (.ofBlanks s c))
  have read := readValue_render s c v (budgetFor (Utf8.encode (v.render (.ofBlanks s c)))) room
    differ shallow (by rw [budgetFor]; omega) endsNumber_nil
  rw [List.append_nil] at read
  exact read

theorem ofBytes_render_reread (s c : Nat) {v : Json} (differ : v.namesDiffer)
    (shallow : v.depth ≤ maxDepth) :
    ofBytes (Utf8.encode (v.render (.ofBlanks s c))) = .ok v.reread := by
  have document : readDocument (Utf8.encode (v.render (.ofBlanks s c))) = .ok v.reread := by
    simp only [readDocument, readValue_alone s c differ maxDepth shallow, bind, Except.bind]
    rfl
  rw [ofBytes, document]

theorem ofBytes_render_exact (s c : Nat) {v : Json} (differ : v.namesDiffer)
    (exact : v.numbersReadBack) (shallow : v.depth ≤ maxDepth) :
    ofBytes (Utf8.encode (v.render (.ofBlanks s c))) = .ok v := by
  rw [ofBytes_render_reread s c differ shallow, reread_of_exact v exact]

theorem ofBytes_render (s c : Nat) {v : Json} (differ : v.namesDiffer) (whole : v.noReals)
    (shallow : v.depth ≤ maxDepth) :
    ofBytes (Utf8.encode (v.render (.ofBlanks s c))) = .ok v :=
  ofBytes_render_exact s c differ (numbersReadBack_of_noReals whole) shallow

end Json
end FramedJson
