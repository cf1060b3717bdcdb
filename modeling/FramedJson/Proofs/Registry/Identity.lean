import FramedJson.Proofs.Json.Extension
import FramedJson.Proofs.Registry.Contents
import Mathlib

/-!
How much of a schema its content tells. The type can be read off the front; where the definition ends and
the references begin cannot, and a colon within a reference hides where its parts end. So schemas with
one id have the same type and the same text, and are the same where these two doubts cannot arise.
-/
namespace FramedJson

namespace Utf8

theorem encode_injective {xs ys : List Char} (same : encode xs = encode ys) : xs = ys := by
  induction xs generalizing ys with
  | nil =>
    cases ys with
    | nil => rfl
    | cons y ys =>
      have longer := length_le_encode (y :: ys)
      rw [← same] at longer
      exact absurd longer (by simp)
  | cons x xs ih =>
    cases ys with
    | nil =>
      have longer := length_le_encode (x :: xs)
      rw [same] at longer
      exact absurd longer (by simp)
    | cons y ys =>
      have first := decodeChar?_encodeChar x (encode xs)
      rw [encode_cons, encode_cons] at same
      rw [same, decodeChar?_encodeChar] at first
      obtain ⟨rfl, rest⟩ := Prod.mk.inj (Option.some.inj first)
      rw [ih rest.symm]

end Utf8

section Marks

variable {α : Type} {mark : α} {xs ys rest rest' : List α}

/-- Two texts that do not hold a mark are the same if what follows each, down to the same whole, begins
with the mark or is empty. -/
theorem append_unique_of_mark (free : mark ∉ xs) (free' : mark ∉ ys)
    (marked : ∀ c ∈ rest.head?, c = mark) (marked' : ∀ c ∈ rest'.head?, c = mark)
    (same : xs ++ rest = ys ++ rest') : xs = ys ∧ rest = rest' := by
  induction xs generalizing ys with
  | nil =>
    cases ys with
    | nil => exact ⟨rfl, same⟩
    | cons y ys =>
      rw [List.nil_append] at same
      subst same
      exact absurd List.mem_cons_self (marked y rfl ▸ free')
  | cons x xs ih =>
    cases ys with
    | nil =>
      rw [List.nil_append] at same
      subst same
      exact absurd List.mem_cons_self (marked' x rfl ▸ free)
    | cons y ys =>
      obtain ⟨rfl, later⟩ := List.cons.inj same
      rw [List.mem_cons, not_or] at free free'
      obtain ⟨rfl, rfl⟩ := ih free.2 free'.2 later
      exact ⟨rfl, rfl⟩

end Marks

namespace SchemaReference

/-- The name and the subject hold no colon. -/
def Plain (reference : SchemaReference) : Prop :=
  ':' ∉ reference.name.toList ∧ ':' ∉ reference.subject.toList

def number (version : Int32) : List Char := version.toInt.repr.toList

theorem content_toList (reference : SchemaReference) :
    reference.content.toList =
      '|' :: (reference.name.toList ++
        ':' :: (reference.subject.toList ++ ':' :: number reference.version)) := by
  have bar : (toString "|").toList = ['|'] := rfl
  have colon : (toString ":").toList = [':'] := rfl
  have self : ∀ part : String, toString part = part := fun _ => rfl
  simp [content, number, bar, colon, self reference.name, self reference.subject]

theorem number_injective {a b : Int32} (same : number a = number b) : a = b :=
  Int32.toInt_inj.mp (Int.repr_injective (String.toList_inj.mp same))

theorem bar_not_digit {n : Nat} : '|' ∉ n.repr.toList := by
  intro member
  rw [Nat.repr, String.toList_ofList] at member
  exact absurd (Json.isDigit_toDigits n '|' member) (by decide)

theorem bar_not_in_number (version : Int32) : '|' ∉ number version := by
  unfold number
  cases version.toInt with
  | ofNat n => exact bar_not_digit
  | negSucc n =>
    intro member
    rw [Int.repr, String.toList_append, List.mem_append] at member
    rcases member with minus | digit
    · exact absurd minus (by decide)
    · exact bar_not_digit digit

def text (references : List SchemaReference) : List Char :=
  references.flatMap fun reference => reference.content.toList

theorem text_cons (first : SchemaReference) (rest : List SchemaReference) :
    text (first :: rest) = '|' :: (first.name.toList ++
      ':' :: (first.subject.toList ++ ':' :: (number first.version ++ text rest))) := by
  rw [text, List.flatMap_cons, content_toList]
  simp [text]

theorem text_marked (references : List SchemaReference) :
    ∀ c ∈ (text references).head?, c = '|' := by
  cases references with
  | nil => exact nofun
  | cons first rest =>
    intro c here
    rw [text_cons] at here
    exact (Option.some.inj here).symm

theorem text_injective {references references' : List SchemaReference}
    (plain : ∀ reference ∈ references, reference.Plain)
    (plain' : ∀ reference ∈ references', reference.Plain)
    (same : text references = text references') : references = references' := by
  induction references generalizing references' with
  | nil =>
    cases references' with
    | nil => rfl
    | cons first rest =>
      rw [text_cons] at same
      cases same
  | cons first rest ih =>
    cases references' with
    | nil =>
      rw [text_cons] at same
      cases same
    | cons first' rest' =>
      obtain ⟨name, subject⟩ := plain first List.mem_cons_self
      obtain ⟨name', subject'⟩ := plain' first' List.mem_cons_self
      have colon : ∀ tail : List Char, ∀ c ∈ (':' :: tail).head?, c = ':' :=
        fun _ c here => (Option.some.inj here).symm
      rw [text_cons, text_cons] at same
      obtain ⟨names, same⟩ :=
        append_unique_of_mark name name' (colon _) (colon _) (List.cons.inj same).2
      obtain ⟨subjects, same⟩ :=
        append_unique_of_mark subject subject' (colon _) (colon _) (List.cons.inj same).2
      obtain ⟨versions, same⟩ := append_unique_of_mark (bar_not_in_number _)
        (bar_not_in_number _) (text_marked rest) (text_marked rest') (List.cons.inj same).2
      have equal : first = first' := by
        cases first
        cases first'
        simp only [SchemaReference.mk.injEq]
        exact ⟨String.toList_inj.mp names, String.toList_inj.mp subjects,
          number_injective versions⟩
      rw [equal, ih (fun r member => plain r (List.mem_cons_of_mem _ member))
        (fun r member => plain' r (List.mem_cons_of_mem _ member)) same]

end SchemaReference

namespace Schema

def text (schema : Schema) : List Char :=
  schema.definition.toList ++ SchemaReference.text schema.references

theorem content_eq (schema : Schema) :
    schema.content = Utf8.encode (schema.type.name.toList ++ schema.text) := by
  have references : (schema.references.flatMap fun reference =>
      Utf8.encodeString reference.content) =
        Utf8.encode (SchemaReference.text schema.references) := by
    rw [SchemaReference.text, Utf8.encode, List.flatMap_assoc]
    rfl
  rw [content, references, text, Utf8.encode_append, Utf8.encode_append, List.append_assoc]
  rfl

theorem typeName_unique {a b : SchemaType} {xs ys : List Char}
    (same : a.name.toList ++ xs = b.name.toList ++ ys) : a = b ∧ xs = ys := by
  cases a <;> cases b
  all_goals
    simp [SchemaType.name] at same
  all_goals exact ⟨rfl, same⟩

theorem content_eq_iff {a b : Schema} :
    a.content = b.content ↔ a.type = b.type ∧ a.text = b.text := by
  rw [content_eq, content_eq]
  constructor
  · intro same
    exact typeName_unique (Utf8.encode_injective same)
  · rintro ⟨type, text⟩
    rw [type, text]

def IsDocument (schema : Schema) : Prop := ∃ document, Json.ofText schema.definition = .ok document

/-- The first definition is not the second with a bar and more behind it. -/
def NoLonger (a b : Schema) : Prop :=
  ∀ rest, a.definition.toList ≠ b.definition.toList ++ '|' :: rest

/-- Nothing hides where the parts of the two schemas end. -/
structure Discernible (a b : Schema) : Prop where
  plain : ∀ reference ∈ a.references, reference.Plain
  plain' : ∀ reference ∈ b.references, reference.Plain
  definitions : (a.IsDocument ∧ b.IsDocument) ∨ (a.NoLonger b ∧ b.NoLonger a)

theorem noLonger_of_documents {a b : Schema} (long : a.IsDocument) (short : b.IsDocument) :
    a.NoLonger b := by
  obtain ⟨document, read⟩ := long
  obtain ⟨document', read'⟩ := short
  intro rest same
  have bytes : Utf8.encodeString a.definition =
      Utf8.encodeString b.definition ++ 124 :: Utf8.encode rest := by
    rw [Utf8.encodeString, same, Utf8.encode_append]
    rfl
  rw [Json.ofText, bytes] at read
  have visible : Json.skipSpace (124 :: Utf8.encode rest) ≠ [] :=
    List.cons_ne_nil 124 (Utf8.encode rest)
  exact Json.ofBytes_append read' (Json.endsNumber_cons 124 _ (by decide)) visible document read

theorem text_unique {a b : Schema} (first : a.NoLonger b) (second : b.NoLonger a)
    (same : a.text = b.text) :
    a.definition = b.definition ∧
      SchemaReference.text a.references = SchemaReference.text b.references := by
  rcases List.append_eq_append_iff.mp same with ⟨more, longer, tail⟩ | ⟨more, longer, tail⟩
  · cases more with
    | nil =>
      rw [List.append_nil] at longer
      exact ⟨String.toList_inj.mp longer.symm, tail⟩
    | cons c more =>
      have bar : c = '|' := SchemaReference.text_marked a.references c (by rw [tail]; rfl)
      exact absurd longer (bar ▸ second more)
  · cases more with
    | nil =>
      rw [List.append_nil] at longer
      exact ⟨String.toList_inj.mp longer, tail.symm⟩
    | cons c more =>
      have bar : c = '|' := SchemaReference.text_marked b.references c (by rw [tail]; rfl)
      exact absurd longer (bar ▸ first more)

theorem Discernible.eq_of_content {a b : Schema} (discernible : Discernible a b)
    (same : a.content = b.content) : a = b := by
  obtain ⟨plain, plain', definitions⟩ := discernible
  obtain ⟨type, text⟩ := content_eq_iff.mp same
  have apart : a.NoLonger b ∧ b.NoLonger a := by
    rcases definitions with ⟨one, other⟩ | apart
    · exact ⟨noLonger_of_documents one other, noLonger_of_documents other one⟩
    · exact apart
  obtain ⟨definition, references⟩ := text_unique apart.1 apart.2 text
  cases a
  cases b
  simp only [Schema.mk.injEq]
  exact ⟨definition, type, SchemaReference.text_injective plain plain' references⟩

end Schema

namespace MemoryRegistry

open Write

/-- Some time in the run the schema is registered as it is, and is given the id. -/
def Registers (firstId : UInt32) (requests : List Request) (subject : String) (schema : Schema)
    (id : UInt32) : Prop :=
  ∃ before, before ++ [.register subject schema false] <+: requests ∧
    (((startingAt firstId).serveAll before).serve (.register subject schema false)).2 =
      .ok (.id id)

section Run

variable {firstId : UInt32} {requests : List Request} {subject : String} {schema : Schema}
  {id : UInt32}

theorem written_of_run {before : List Request}
    (ran : before ++ [.register subject schema false] <+: requests) :
    ∃ later, writes requests = writes before ++ [(subject, schema.content)] ++ later := by
  obtain ⟨after, rfl⟩ := ran
  exact ⟨writes after, by rw [writes_append, writes_append]; rfl⟩

theorem Registers.given (registers : Registers firstId requests subject schema id)
    (apart : Apart (contents (writes requests))) :
    schema.content ∈ contents (writes requests) ∧
      id = idFor firstId (writes requests) schema.content := by
  obtain ⟨before, ran, answered⟩ := registers
  obtain ⟨later, through⟩ := written_of_run ran
  rw [through] at apart ⊢
  have soFar := apart_append apart
  have member : schema.content ∈ contents (writes before ++ [(subject, schema.content)]) :=
    mem_contents.mpr ⟨subject, List.mem_append_right _ List.mem_cons_self⟩
  have answer := (@Catalog.Mirrors.register firstId _ _ subject schema false
    (mirrors_of_requests firstId (apart_append soFar)) soFar).2
  obtain rfl : _ = id := Reply.id.inj (Except.ok.inj answered)
  refine ⟨?_, answer.trans (idFor_append firstId later member).symm⟩
  exact mem_contents.mpr ⟨subject, List.mem_append_left _
    (List.mem_append_right _ List.mem_cons_self)⟩

end Run

/-- Schemas that are given one id in a run have the same type, and the same text of definition and
references. If nothing hides where their parts end, they are the same schema; and then a schema that a
subject does not hold becomes its newest version. -/
theorem same_id_same_text (firstId : UInt32) (requests : List Request)
    (apart : Apart (contents (writes requests)))
    (few : (contents (writes requests)).length < 2 ^ 32) :
    (∀ subject other a b id, Registers firstId requests subject a id →
      Registers firstId requests other b id →
      a.type = b.type ∧ a.text = b.text ∧ (a.Discernible b → a = b)) ∧
    ∀ before subject b, before ++ [.register subject b false] <+: requests →
      let catalog := ((startingAt firstId).serveAll before).catalog
      (∀ entry ∈ catalog.versionsOf subject,
        entry.schema ≠ b ∧ entry.schema.Discernible b) →
      ∃ entry, entry.schema = b ∧
        (catalog.register subject b false).1.versionsOf subject =
          catalog.versionsOf subject ++ [entry] := by
  constructor
  · intro subject other a b id first second
    obtain ⟨member, id⟩ := first.given apart
    obtain ⟨member', id'⟩ := second.given apart
    have same : a.content = b.content :=
      idFor_injective few member member' (id.symm.trans id')
    obtain ⟨type, text⟩ := Schema.content_eq_iff.mp same
    exact ⟨type, text, fun discernible => discernible.eq_of_content same⟩
  · intro before subject b ran catalog different
    obtain ⟨later, through⟩ := written_of_run ran
    rw [through] at apart
    have soFar := apart_append apart
    have mirrors : catalog.Mirrors firstId (writes before) :=
      mirrors_of_requests firstId (apart_append soFar)
    cases held : catalog.held? subject (b.stored false).fingerprint with
    | some entry =>
      obtain ⟨own, _⟩ := mirrors.held soFar held
      obtain ⟨entry, member, same⟩ := mirrors.entry_of own
      obtain ⟨differ, discernible⟩ := different entry member
      exact absurd (discernible.eq_of_content same) differ
    | none =>
      refine ⟨catalog.newVersion subject (b.stored false), rfl, ?_⟩
      rw [Catalog.register_new catalog subject held, Catalog.versionsOf_put, if_pos rfl]

def order (version : Int32) : Schema := ⟨"\x7b\x7d", .json, [⟨"item", "items", version⟩]⟩

theorem same_id_same_text_orders :
    let catalog := ((startingAt 1).serveAll [.register "s" (order 3) false]).catalog
    (∀ entry ∈ catalog.versionsOf "s",
      entry.schema ≠ order 31 ∧ entry.schema.Discernible (order 31)) ∧
    ∃ entry, entry.schema = order 31 ∧
      (catalog.register "s" (order 31) false).1.versionsOf "s" =
        catalog.versionsOf "s" ++ [entry] := by
  intro catalog
  have plain : ∀ version, ∀ reference ∈ (order version).references, reference.Plain := by
    intro version reference member
    rw [List.mem_singleton.mp member]
    exact ⟨show ':' ∉ "item".toList by decide, show ':' ∉ "items".toList by decide⟩
  have document : ∀ version, (order version).IsDocument := by
    intro version
    have read : (Json.ofText "\x7b\x7d").toOption.isSome = true := by decide +kernel
    obtain ⟨document, found⟩ := Option.isSome_iff_exists.mp read
    exact ⟨document, Outcome.toOption_some found⟩
  have stock : (catalog.versionsOf "s").map (·.schema) = [order 3] := by decide +kernel
  have different : ∀ entry ∈ catalog.versionsOf "s",
      entry.schema ≠ order 31 ∧ entry.schema.Discernible (order 31) := by
    intro entry member
    have listed := List.mem_map_of_mem (f := SubjectVersion.schema) member
    rw [stock] at listed
    rw [List.mem_singleton.mp listed]
    exact ⟨by decide, plain 3, plain 31, .inl ⟨document 3, document 31⟩⟩
  have both : contents (writes [.register "s" (order 3) false, .register "s" (order 31) false]) =
      [(order 3).content, (order 31).content] := by decide +kernel
  have apart : Apart (contents (writes
      [.register "s" (order 3) false, .register "s" (order 31) false])) := by
    rw [both]
    exact apart_pair (by decide +kernel)
  refine ⟨different, ?_⟩
  exact (same_id_same_text 1 [.register "s" (order 3) false, .register "s" (order 31) false] apart
    (by rw [both]; decide)).2 [.register "s" (order 3) false] "s" (order 31) (List.prefix_refl _)
    different

/-- Registered after the first schema, the second is given its id, and a subject that holds the first
does not get the second. -/
def Confuses (a b : Schema) : Prop :=
  let registry := (startingAt 1).serveAll [.register "s" a false]
  (registry.serve (.register "t" b false)).2 = .ok (.id 1) ∧
    (registry.serve (.register "s" b false)).2 = .ok (.id 1) ∧
    (registry.serve (.register "s" b false)).1.catalog.versions "s" = [1]

def colonInName : Schema := ⟨"\x7b\x7d", .json, [⟨"a:b", "c", 1⟩]⟩

def colonInSubject : Schema := ⟨"\x7b\x7d", .json, [⟨"a", "b:c", 1⟩]⟩

def referring : Schema := ⟨"", .protobuf, [⟨"n", "s", 1⟩]⟩

def imitating : Schema := ⟨"|n:s:1", .protobuf, []⟩

theorem different_schemas_one_id :
    colonInName ≠ colonInSubject ∧ Confuses colonInName colonInSubject ∧
      referring ≠ imitating ∧ Confuses referring imitating := by
  refine ⟨by decide, ⟨Outcome.toOption_some ?_, Outcome.toOption_some ?_, ?_⟩,
    by decide, ⟨Outcome.toOption_some ?_, Outcome.toOption_some ?_, ?_⟩⟩
  all_goals decide +kernel

end MemoryRegistry
end FramedJson
