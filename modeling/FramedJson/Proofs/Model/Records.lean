import FramedJson.Model.Reader
import FramedJson.Model.Texts
import FramedJson.Proofs.Json.Grammar

namespace FramedJson.Model

open Grammar Json

variable {α δ : Type}

/-- The reader takes the value off the text, blanks before it and anything behind it that no number could
go on with. -/
structure Takes (read : Reader α) (text : List UInt8) (value : α) : Prop where
  opens : Opens text
  taken : ∀ blank rest, Blanks blank → EndsNumber rest →
    read (blank ++ (text ++ rest)) = .ok (value, rest)

section Scalars

variable {text : List UInt8}

theorem skipSpace_visible {blank : List UInt8} (blanks : Blanks blank) {byte : UInt8}
    (visible : isSpace byte = false) (tail rest : List UInt8) :
    skipSpace (blank ++ ((byte :: tail) ++ rest)) = byte :: (tail ++ rest) := by
  rw [skipSpace_padding blanks]
  exact skipSpace_cons visible _

theorem Takes.store {read : Reader α} {value : α} {next : δ} (takes : Takes read text value)
    (fill : α → δ) (filled : fill value = next) :
    Takes (fun bytes => do
      let (value, rest) ← read bytes
      return (fill value, rest)) text next := by
  refine ⟨takes.opens, ?_⟩
  intro blank rest blanks ends
  simp only [takes.taken blank rest blanks ends, bind, Except.bind, filled]
  rfl

theorem string_takes {said : String} (written : StringText said text) : Takes string text said := by
  obtain ⟨inside, spells, rfl⟩ := written
  refine ⟨opens_quote _, ?_⟩
  intro blank rest blanks ends
  rw [string, stringAs, skipSpace_visible blanks (by decide), List.append_assoc,
    List.singleton_append]
  simp only [readString_spelling spells rest, ofScan]

theorem choice_takes {names : List (String × α)} {said : String} {value : α}
    (written : StringText said text) (known : named names said = .ok value) :
    Takes (choice names) text value := by
  obtain ⟨inside, spells, rfl⟩ := written
  refine ⟨opens_quote _, ?_⟩
  intro blank rest blanks ends
  rw [choice, skipSpace_visible blanks (by decide), List.append_assoc, List.singleton_append]
  simp only [readString_spelling spells rest, ofScan, known, bind, Except.bind]
  rfl

theorem IntegerText.opens {n : Int} (written : IntegerText n text) : Opens text := by
  unfold IntegerText at written
  split at written
  · exact ⟨45, _, written, by decide, by decide⟩
  · obtain ⟨byte, tail, shape, digit⟩ := toDigits_opens n.natAbs
    exact ⟨byte, tail, written.trans shape, digit_visible digit⟩

theorem integer_minus {expected : String} {low high n : Int} {fits : -2 ^ 63 ≤ n ∧ n < 2 ^ 64}
    {bytes digits rest : List UInt8} (opens : skipSpace bytes = 45 :: digits)
    (read : readNumber true digits = .ok (.int n fits, rest)) (within : low ≤ n ∧ n ≤ high) :
    integer expected low high bytes = .ok (n, rest) := by
  rw [integer, opens]
  simp only [read, ofScan, checkInteger, if_pos within, bind, Except.bind]
  rfl

theorem integer_digit {expected : String} {low high n : Int} {fits : -2 ^ 63 ≤ n ∧ n < 2 ^ 64}
    {byte : UInt8} {bytes tail rest : List UInt8} (opens : skipSpace bytes = byte :: tail)
    (digit : isDigit byte) (read : readNumber false (byte :: tail) = .ok (.int n fits, rest))
    (within : low ≤ n ∧ n ≤ high) : integer expected low high bytes = .ok (n, rest) := by
  rw [integer, opens]
  split
  · rename_i same
    cases same
    exact absurd digit (by decide)
  · rename_i same
    cases same
    simp only [if_pos digit, read, ofScan, checkInteger, if_pos within, bind, Except.bind]
    rfl
  · rename_i same
    cases same

theorem integer_takes {expected : String} {low high n : Int} (written : IntegerText n text)
    (within : low ≤ n ∧ n ≤ high) (fits : -2 ^ 63 ≤ n ∧ n < 2 ^ 64) :
    Takes (integer expected low high) text n := by
  refine ⟨written.opens, ?_⟩
  intro blank rest blanks ends
  unfold IntegerText at written
  split at written
  · have signed : n = if true then -(n.natAbs : Int) else n.natAbs := by
      simp only [if_true]
      omega
    have read := readNumber_toDigits true signed (fun _ => by omega) fits ends
    subst written
    exact integer_minus (skipSpace_visible blanks (by decide) _ rest) read within
  · have signed : n = if false then -(n.natAbs : Int) else n.natAbs := by
      simp only [Bool.false_eq_true, if_false]
      omega
    have read := readNumber_toDigits false signed (fun h => absurd h Bool.false_ne_true) fits ends
    obtain ⟨byte, tail, shape, digit⟩ := toDigits_opens n.natAbs
    rw [shape] at read written
    subst written
    exact integer_digit (skipSpace_visible blanks (digit_visible digit).1 tail rest) digit read within

end Scalars

section Lists

variable {holds : α → List UInt8 → Prop}

theorem itemsAfter_listed {read : Reader α} {values : List α} {items : List (List UInt8)}
    {first : Bool} {bytes : List UInt8} (each : List.Forall₂ holds values items)
    (takes : ∀ value text, holds value text → Takes read text value)
    (listed : Listed 93 first items bytes) (more : List UInt8) {budget : Nat}
    (enough : items.length < budget) :
    itemsAfter read budget first (bytes ++ more) = .ok (values, more) := by
  induction each generalizing first bytes budget with
  | nil =>
    cases budget with
    | zero => exact absurd enough (Nat.not_lt_zero _)
    | succ budget =>
      simp only [itemsAfter, listed.nextItem_done more, ofScan, bind, Except.bind]
      rfl
  | @cons value item values items here behind ih =>
    cases budget with
    | zero => exact absurd enough (Nat.not_lt_zero _)
    | succ budget =>
      have takes := takes value item here
      obtain ⟨others, listed, next⟩ := listed.nextItem_more takes.opens more
      have one := takes.taken [] (others ++ more) blanks_nil (listed.ends (.inl rfl) more)
      have later := ih listed (Nat.lt_of_succ_lt_succ enough)
      rw [List.nil_append] at one
      simp only [itemsAfter, next, ofScan, bind, Except.bind, if_true, one, later]
      rfl

theorem list_takes {read : Reader α} {values : List α} {text : List UInt8}
    (written : ListText holds values text)
    (takes : ∀ value text, holds value text → Takes read text value) :
    Takes (list read) text values := by
  obtain ⟨items, inside, each, listed, rfl⟩ := written
  refine ⟨⟨91, inside, rfl, by decide, by decide⟩, ?_⟩
  intro blank rest blanks ends
  have short := listed.length_le.1
  rw [list, skipSpace_visible blanks (by decide)]
  apply itemsAfter_listed each takes listed rest
  rw [List.length_append]
  omega

end Lists

/-- How a record is filled: `draft` is what has been gathered when the fields of the given names have been
seen, and the fields `present` in a text are enough to finish. -/
structure Fills (fields : List (Field δ)) (blank : δ) (finish : δ → Except Mismatch α)
    (present : List String) (holds : String → List UInt8 → Prop) (draft : List String → δ)
    (value : α) : Prop where
  blank : draft [] = blank
  unfilled : ∀ field ∈ fields, ∀ seen, field.name ∉ seen → field.filled (draft seen) = false
  read : ∀ field ∈ fields, ∀ seen text, holds field.name text →
    Takes (field.read (draft seen)) text (draft (field.name :: seen))
  ordered : present <+: fields.map (·.name)
  optional : ∀ field ∈ fields.drop present.length, field.optional = true
  differ : (fields.map (·.name)).Nodup
  finish : ∀ seen, (∀ name ∈ present, name ∈ seen) → finish (draft seen) = .ok value

section Records

variable {fields : List (Field δ)} {blank : δ} {finish : δ → Except Mismatch α}
  {present : List String} {holds : String → List UInt8 → Prop} {draft : List String → δ} {value : α}

theorem endAt_optional (wanted : String) (position : Nat) {due : List (Field δ)}
    (optional : ∀ field ∈ due, field.optional = true) (gathered : δ) :
    endAt wanted position due gathered = .ok gathered := by
  induction due generalizing position with
  | nil => rfl
  | cons field due ih =>
    rw [endAt, if_pos (optional field List.mem_cons_self)]
    exact ih (position + 1) fun other member => optional other (List.mem_cons_of_mem field member)

theorem byPosition_listed (wanted : String) (position : Nat) (seen : List String)
    {due : List (Field δ)} {names : List String} {items : List (List UInt8)} {bytes : List UInt8}
    (read : ∀ field ∈ due, ∀ seen text, holds field.name text →
      Takes (field.read (draft seen)) text (draft (field.name :: seen)))
    (each : List.Forall₂ holds names items) (ordered : names <+: due.map (·.name))
    (optional : ∀ field ∈ due.drop names.length, field.optional = true)
    (listed : Listed 93 (decide (position = 0)) items bytes) (more : List UInt8) :
    ∃ later, byPosition wanted position (draft seen) due (bytes ++ more) = .ok (draft later, more) ∧
      (∀ name ∈ seen, name ∈ later) ∧ ∀ name ∈ names, name ∈ later := by
  induction due generalizing position names seen items bytes with
  | nil =>
    cases List.prefix_nil.mp ordered
    cases each
    refine ⟨seen, ?_, fun name member => member, fun _ none => nomatch none⟩
    simp only [byPosition, endOfFields, listed.closed (by decide) more, bind, Except.bind]
    rfl
  | cons field due ih =>
    cases each with
    | nil =>
      have gathered : endAt wanted position (field :: due) (draft seen) = .ok (draft seen) :=
        endAt_optional wanted position optional (draft seen)
      refine ⟨seen, ?_, fun name member => member, fun _ none => nomatch none⟩
      simp only [byPosition, listed.nextItem_done more, ofScan, bind, Except.bind,
        Bool.false_eq_true, if_false, gathered]
      rfl
    | @cons name item names items here behind =>
      rw [List.map_cons] at ordered
      obtain ⟨rfl, tail⟩ := List.cons_prefix_cons.mp ordered
      have takes := read field List.mem_cons_self seen item here
      obtain ⟨others, listed, next⟩ := listed.nextItem_more takes.opens more
      have one := takes.taken [] (others ++ more) blanks_nil (listed.ends (.inl rfl) more)
      rw [List.nil_append] at one
      have listed : Listed 93 (decide (position + 1 = 0)) items others := listed
      obtain ⟨later, taken, kept, found⟩ := ih (position + 1) (field.name :: seen)
        (fun field member => read field (List.mem_cons_of_mem _ member)) behind tail optional listed
      refine ⟨later, ?_, fun name member => kept name (List.mem_cons_of_mem _ member), ?_⟩
      · simp only [byPosition, next, ofScan, bind, Except.bind, if_true, one]
        exact taken
      · intro other member
        rcases List.mem_cons.mp member with rfl | member
        · exact kept _ List.mem_cons_self
        · exact found other member

theorem find_field {name : String} (member : name ∈ fields.map (·.name)) :
    ∃ field ∈ fields, field.name = name ∧
      fields.find? (fun field => field.name = name) = some field := by
  obtain ⟨field, among, same⟩ := List.mem_map.mp member
  cases found : fields.find? (fun field => field.name = name) with
  | none => exact absurd same (by simpa using List.find?_eq_none.mp found field among)
  | some first =>
    exact ⟨first, List.mem_of_find?_eq_some found, by simpa using List.find?_some found, rfl⟩

theorem find_field_none {name : String} (absent : name ∉ fields.map (·.name)) :
    fields.find? (fun field => field.name = name) = none := by
  apply List.find?_eq_none.mpr
  intro field among
  have other : field.name ≠ name := fun same => absent (same ▸ List.mem_map_of_mem among)
  simpa using other

theorem member_read (said : String) {name inside text : List UInt8}
    (spells : Spelling name said.toList) (member : MemberText name inside text)
    (rest : List UInt8) :
    ∃ tail behind after, text = 34 :: tail ∧ Blanks after ∧
      readString (tail ++ rest) = .ok (said, behind) ∧
      readColon behind = .ok (after ++ (inside ++ rest)) := by
  obtain ⟨before, after, blanks, blanks', rfl⟩ := member
  refine ⟨_, before ++ 58 :: (after ++ (inside ++ rest)), after, rfl, blanks', ?_,
    readColon_padded blanks _⟩
  simp only [List.append_assoc, List.cons_append]
  exact readString_spelling spells _

theorem byName_known {budget : Nat} {first : Bool} {name : String} {field : Field δ}
    {gathered filled : δ} {bytes tail behind text rest : List UInt8}
    (next : nextName first bytes = .ok (true, tail)) (named : readString tail = .ok (name, behind))
    (found : fields.find? (fun field => field.name = name) = some field)
    (free : field.filled gathered = false) (colon : readColon behind = .ok text)
    (taken : field.read gathered text = .ok (filled, rest)) :
    byName fields (budget + 1) first gathered bytes = byName fields budget false filled rest := by
  simp only [byName, next, named, found, free, colon, taken, ofScan, bind, Except.bind, if_true,
    Bool.false_eq_true, if_false]

theorem byName_unknown {budget : Nat} {first : Bool} {name : String} {gathered : δ}
    {bytes tail behind text rest : List UInt8} (next : nextName first bytes = .ok (true, tail))
    (named : readString tail = .ok (name, behind))
    (absent : fields.find? (fun field => field.name = name) = none)
    (colon : readColon behind = .ok text) (skipped : skip text = .ok rest) :
    byName fields (budget + 1) first gathered bytes = byName fields budget false gathered rest := by
  simp only [byName, next, named, absent, colon, skipped, ofScan, bind, Except.bind, if_true]

/-- Member after member of an object is read, those of unknown names are passed over, and no field is met
twice. -/
theorem byName_listed (fills : Fills fields blank finish present holds draft value) {first : Bool}
    (seen : List String) {members : List (String × List UInt8)} {texts : List (List UInt8)}
    {bytes : List UInt8}
    (known : ∀ member ∈ members, member.1 ∈ fields.map (·.name) → holds member.1 member.2)
    (unknown : ∀ member ∈ members, member.1 ∉ fields.map (·.name) → Value member.2)
    (once : ((members.map Prod.fst).filter (· ∈ fields.map (·.name))).Nodup)
    (fresh : ∀ member ∈ members, member.1 ∈ fields.map (·.name) → member.1 ∉ seen)
    (written : List.Forall₂ (fun member text =>
      ∃ name, Spelling name member.1.toList ∧ MemberText name member.2 text) members texts)
    (listed : Listed 125 first texts bytes) (more : List UInt8) {budget : Nat}
    (enough : members.length < budget) :
    ∃ later, byName fields budget first (draft seen) (bytes ++ more) = .ok (draft later, more) ∧
      (∀ name ∈ seen, name ∈ later) ∧
      ∀ member ∈ members, member.1 ∈ fields.map (·.name) → member.1 ∈ later := by
  induction written generalizing first seen bytes budget with
  | nil =>
    cases budget with
    | zero => exact absurd enough (Nat.not_lt_zero _)
    | succ budget =>
      refine ⟨seen, ?_, fun name member => member, fun _ none => nomatch none⟩
      simp only [byName, listed.nextName_done more, ofScan, bind, Except.bind]
      rfl
  | @cons member text members texts here behind ih =>
    cases budget with
    | zero => exact absurd enough (Nat.not_lt_zero _)
    | succ budget =>
      obtain ⟨name, inside⟩ := member
      obtain ⟨spelling, spells, member⟩ := here
      obtain ⟨quoted, rfl⟩ := member.opens
      obtain ⟨others, listed, next⟩ := listed.nextName_more more
      obtain ⟨tail, rest, after, same, blanks, named, colon⟩ :=
        member_read name spells member (others ++ more)
      cases same
      have ends := listed.ends (.inr rfl) more
      have fewer := Nat.lt_of_succ_lt_succ enough
      by_cases among : name ∈ fields.map (·.name)
      · obtain ⟨field, belongs, rfl, found⟩ := find_field among
        have free := fills.unfilled field belongs seen (fresh _ List.mem_cons_self among)
        have taken := (fills.read field belongs seen inside
          (known _ List.mem_cons_self among)).taken after (others ++ more) blanks ends
        rw [List.map_cons, List.filter_cons_of_pos (by simpa using among), List.nodup_cons] at once
        -- The object names no field twice, so the field just read is not among those still to come.
        have unmet : ∀ member ∈ members, member.1 ∈ fields.map (·.name) →
            member.1 ∉ field.name :: seen := by
          intro member behind among repeated
          rcases List.mem_cons.mp repeated with same | before
          · have again : member.1 ∈ members.map Prod.fst := List.mem_map_of_mem behind
            exact once.1 (same ▸ List.mem_filter.mpr ⟨again, decide_eq_true among⟩)
          · exact fresh member (List.mem_cons_of_mem _ behind) among before
        obtain ⟨later, read, kept, gathered⟩ := ih (field.name :: seen)
          (fun member behind => known member (List.mem_cons_of_mem _ behind))
          (fun member behind => unknown member (List.mem_cons_of_mem _ behind)) once.2 unmet
          listed fewer
        refine ⟨later, ?_, fun name before => kept name (List.mem_cons_of_mem _ before), ?_⟩
        · rw [byName_known next named found free colon taken]
          exact read
        · intro member behind among
          rcases List.mem_cons.mp behind with rfl | behind
          · exact kept _ List.mem_cons_self
          · exact gathered member behind among
      · have skipped := skip_value blanks (unknown _ List.mem_cons_self among) ends
        rw [List.map_cons, List.filter_cons_of_neg (by simpa using among)] at once
        obtain ⟨later, read, kept, gathered⟩ := ih seen
          (fun member behind => known member (List.mem_cons_of_mem _ behind))
          (fun member behind => unknown member (List.mem_cons_of_mem _ behind)) once
          (fun member behind => fresh member (List.mem_cons_of_mem _ behind)) listed fewer
        refine ⟨later, ?_, kept, ?_⟩
        · rw [byName_unknown next named (find_field_none among) colon skipped]
          exact read
        · intro member behind known
          rcases List.mem_cons.mp behind with rfl | behind
          · exact absurd known among
          · exact gathered member behind known

theorem record_takes (name : String) (fills : Fills fields blank finish present holds draft value)
    {text : List UInt8} (written : RecordText (fields.map (·.name)) present holds text) :
    Takes (record name fields blank finish) text value := by
  cases written with
  | list holding =>
    obtain ⟨items, inside, each, listed, rfl⟩ := holding
    refine ⟨⟨91, inside, rfl, by decide, by decide⟩, ?_⟩
    intro before rest blanks ends
    obtain ⟨later, read, _, gathered⟩ := byPosition_listed
      (recordName name fields.length) 0 [] fills.read each fills.ordered
      fills.optional listed rest
    rw [fills.blank] at read
    simp only [record, skipSpace_visible blanks (show isSpace 91 = false by decide), read,
      fills.finish later gathered, bind, Except.bind]
    rfl
  | @object members texts inside named known unknown written listed =>
    refine ⟨⟨123, inside, rfl, by decide, by decide⟩, ?_⟩
    intro before rest blanks ends
    have short := listed.length_le.1
    have enough : members.length < (inside ++ rest).length + 1 := by
      rw [written.length_eq, List.length_append]
      omega
    have once : ((members.map Prod.fst).filter (· ∈ fields.map (·.name))).Nodup :=
      named.symm.nodup (fills.ordered.sublist.nodup fills.differ)
    obtain ⟨later, read, _, gathered⟩ := byName_listed fills [] known unknown once
      (fun member among known none => nomatch none) written listed rest enough
    rw [fills.blank] at read
    -- Every field that is present has its member, whatever the place of that member in the object.
    have all (name : String) (due : name ∈ present) : name ∈ later := by
      have among := named.symm.subset due
      obtain ⟨⟨member, here, rfl⟩, known⟩ := by
        simpa only [List.mem_filter, List.mem_map, decide_eq_true_eq] using among
      exact gathered member here (by simpa using known)
    simp only [record, skipSpace_visible blanks (show isSpace 123 = false by decide), read,
      fills.finish later all, bind, Except.bind]
    rfl

end Records

theorem whole_takes {read : Reader α} {value : α} {test : List UInt8 → Prop}
    (takes : ∀ text, test text → Takes read text value) {bytes : List UInt8}
    (alone : Alone test bytes) : whole read bytes = .ok value := by
  obtain ⟨before, text, after, blanks, passes, blanks', rfl⟩ := alone
  have taken := (takes text passes).taken before after blanks
    (by simpa using endsNumber_blanks blanks' endsNumber_nil)
  have finished : readEnd after = .ok () := by
    have none := skipSpace_padding blanks' []
    rw [List.append_nil] at none
    rw [readEnd, none]
    rfl
  simp only [whole, taken, finished, ofScan, bind, Except.bind]
  rfl

end FramedJson.Model
