import FramedJson.Model.Forms
import FramedJson.Proofs.Json.Printed
import FramedJson.Proofs.Model.Records

namespace FramedJson

open Model Grammar

namespace Model

theorem int32_range (n : Int32) : -2 ^ 31 ≤ n.toInt ∧ n.toInt ≤ 2 ^ 31 - 1 :=
  ⟨n.le_toInt, Int.le_sub_one_of_lt n.toInt_lt⟩

theorem uint32_range (n : UInt32) : (0 : Int) ≤ n.toNat ∧ (n.toNat : Int) ≤ 2 ^ 32 - 1 := by
  have below := n.toNat_lt
  omega

theorem int32_takes {n : Int32} {text : List UInt8} (written : IntegerText n.toInt text) :
    Takes (integer "i32" (-2 ^ 31) (2 ^ 31 - 1)) text n.toInt := by
  have range := int32_range n
  exact integer_takes written range (by omega)

theorem uint32_takes {n : UInt32} {text : List UInt8} (written : IntegerText n.toNat text) :
    Takes (integer "u32" 0 (2 ^ 32 - 1)) text n.toNat := by
  have range := uint32_range n
  exact integer_takes written range (by omega)

end Model

namespace MessageField

theorem takes {field : MessageField} {text : List UInt8} (written : StringText field.name text) :
    Takes reader text field :=
  choice_takes written (by cases field <;> rfl)

end MessageField

namespace SchemaType

theorem takes {type : SchemaType} {text : List UInt8} (written : StringText type.name text) :
    Takes reader text type :=
  choice_takes written (by cases type <;> rfl)

end SchemaType

namespace SchemaReference

def drafted (reference : SchemaReference) (seen : List String) : Draft :=
  { name := if "name" ∈ seen then some reference.name else none
    subject := if "subject" ∈ seen then some reference.subject else none
    version := if "version" ∈ seen then some reference.version.toInt else none }

theorem fills (reference : SchemaReference) :
    Fills fields ⟨none, none, none⟩ Draft.finish declared reference.Holds reference.drafted
      reference where
  blank := rfl
  unfilled := by simp [fields, drafted]
  read := by
    intro field member seen text held
    simp only [fields, List.mem_cons, List.not_mem_nil, or_false] at member
    rcases member with rfl | rfl | rfl
    · have written : StringText reference.name text := by simpa [holds_iff] using held
      refine (string_takes written).store
        (fun said => { reference.drafted seen with name := some said }) ?_
      simp [drafted]
    · have written : StringText reference.subject text := by simpa [holds_iff] using held
      refine (string_takes written).store
        (fun said => { reference.drafted seen with subject := some said }) ?_
      simp [drafted]
    · have written : IntegerText reference.version.toInt text := by simpa [holds_iff] using held
      refine (int32_takes written).store
        (fun n => { reference.drafted seen with version := some n }) ?_
      simp [drafted]
  ordered := List.prefix_refl _
  optional := fun _ none => nomatch none
  differ := by decide
  finish := by
    intro seen met
    simp only [declared, List.mem_cons, List.not_mem_nil, or_false, forall_eq_or_imp, forall_eq] at met
    simp [drafted, Draft.finish, met, need, bind, Except.bind, pure, Except.pure]

theorem takes {reference : SchemaReference} {text : List UInt8} (written : reference.Text text) :
    Takes reader text reference :=
  record_takes "SchemaReference" reference.fills written

theorem printed_text (reference : SchemaReference) : reference.Text (Json.printed reference.toJson) := by
  refine Json.printed_record (by rfl) ?_
  intro member among
  simp only [List.mem_cons, List.not_mem_nil, or_false] at among
  rcases among with rfl | rfl | rfl
  · exact .name (Json.printed_str _)
  · exact .subject (Json.printed_str _)
  · exact .version (Json.printed_int _)

theorem listed_text (reference : SchemaReference) : reference.Text (Json.printed
    (.arr [.str reference.name, .str reference.subject, .int32 reference.version])) := by
  obtain ⟨inside, opens, listed⟩ := Json.printed_arr
    [.str reference.name, .str reference.subject, .int32 reference.version]
  refine .list ⟨_, inside, .cons (.name ?_) (.cons (.subject ?_) (.cons (.version ?_) .nil)), listed,
    opens⟩
  · exact Json.printed_str _
  · exact Json.printed_str _
  · exact Json.printed_int _

end SchemaReference

namespace Schema

def drafted (schema : Schema) (seen : List String) : Draft :=
  { definition := if "definition" ∈ seen then some schema.definition else none
    type := if "schema_type" ∈ seen then some schema.type else none
    references := if "references" ∈ seen then some schema.references else none }

theorem fills (schema : Schema) {present : List String} (enough : present = declared ∨
      schema.references = [] ∧ present = ["definition", "schema_type"]) :
    Fills fields ⟨none, none, none⟩ Draft.finish present schema.Holds schema.drafted schema where
  blank := rfl
  unfilled := by simp [fields, drafted]
  read := by
    intro field member seen text held
    simp only [fields, List.mem_cons, List.not_mem_nil, or_false] at member
    rcases member with rfl | rfl | rfl
    · have written : StringText schema.definition text := by simpa [holds_iff] using held
      refine (string_takes written).store
        (fun said => { schema.drafted seen with definition := some said }) ?_
      simp [drafted]
    · have written : StringText schema.type.name text := by simpa [holds_iff] using held
      refine (SchemaType.takes written).store
        (fun type => { schema.drafted seen with type := some type }) ?_
      simp [drafted]
    · have written : ListText SchemaReference.Text schema.references text := by
        simpa [holds_iff] using held
      have takes := list_takes written fun _ _ => SchemaReference.takes
      refine takes.store
        (fun references => { schema.drafted seen with references := some references }) ?_
      simp [drafted]
  ordered := by
    rcases enough with rfl | ⟨_, rfl⟩
    · exact List.prefix_refl _
    · exact ⟨["references"], rfl⟩
  optional := by
    rcases enough with rfl | ⟨_, rfl⟩
    · exact fun _ none => nomatch none
    · simp [fields]
  differ := by decide
  finish := by
    intro seen met
    have named : "definition" ∈ seen ∧ "schema_type" ∈ seen := by
      rcases enough with rfl | ⟨_, rfl⟩
      · exact ⟨met _ (by decide), met _ (by decide)⟩
      · exact ⟨met _ (by decide), met _ (by decide)⟩
    -- References that no text gave are finished as none, and then there are none.
    have listed : (schema.drafted seen).references.getD [] = schema.references := by
      rcases enough with rfl | ⟨none, rfl⟩
      · simp [drafted, met "references" (by decide)]
      · by_cases given : "references" ∈ seen <;> simp [drafted, given, none]
    simp only [Draft.finish, listed]
    simp [drafted, named, need, bind, Except.bind, pure, Except.pure]

theorem takes {schema : Schema} {text : List UInt8} (written : schema.Text text) :
    Takes reader text schema := by
  rcases written with full | ⟨none, short⟩
  · exact record_takes "Schema" (schema.fills (.inl rfl)) full
  · exact record_takes "Schema" (schema.fills (.inr ⟨none, rfl⟩)) short

theorem printed_text (schema : Schema) : schema.Text (Json.printed schema.toJson) := by
  apply Or.inl
  refine Json.printed_record (by rfl) ?_
  intro member among
  simp only [List.mem_cons, List.not_mem_nil, or_false] at among
  rcases among with rfl | rfl | rfl
  · exact .definition (Json.printed_str _)
  · exact .type (Json.printed_str _)
  · exact .references (Json.printed_list SchemaReference.printed_text _)

end Schema

namespace RegisteredSchema

def drafted (registered : RegisteredSchema) (seen : List String) : Draft :=
  { schemaId := if "schema_id" ∈ seen then some registered.schemaId.toNat else none
    subject := if "subject" ∈ seen then some registered.subject else none
    version := if "version" ∈ seen then some registered.version.toNat else none }

theorem fills (registered : RegisteredSchema) :
    Fills fields ⟨none, none, none⟩ Draft.finish declared registered.Holds registered.drafted
      registered where
  blank := rfl
  unfilled := by simp [fields, drafted]
  read := by
    intro field member seen text held
    simp only [fields, List.mem_cons, List.not_mem_nil, or_false] at member
    rcases member with rfl | rfl | rfl
    · have written : IntegerText registered.schemaId.toNat text := by simpa [holds_iff] using held
      refine (uint32_takes written).store
        (fun n => { registered.drafted seen with schemaId := some n }) ?_
      simp [drafted]
    · have written : StringText registered.subject text := by simpa [holds_iff] using held
      refine (string_takes written).store
        (fun said => { registered.drafted seen with subject := some said }) ?_
      simp [drafted]
    · have written : IntegerText registered.version.toNat text := by simpa [holds_iff] using held
      refine (uint32_takes written).store
        (fun n => { registered.drafted seen with version := some n }) ?_
      simp [drafted]
  ordered := List.prefix_refl _
  optional := fun _ none => nomatch none
  differ := by decide
  finish := by
    intro seen met
    simp only [declared, List.mem_cons, List.not_mem_nil, or_false, forall_eq_or_imp, forall_eq] at met
    simp [drafted, Draft.finish, met, need, bind, Except.bind, pure, Except.pure]

theorem takes {registered : RegisteredSchema} {text : List UInt8} (written : registered.Text text) :
    Takes reader text registered :=
  record_takes "RegisteredSchema" registered.fills written

theorem printed_text (registered : RegisteredSchema) :
    registered.Text (Json.printed registered.toJson) := by
  refine Json.printed_record (by rfl) ?_
  intro member among
  simp only [List.mem_cons, List.not_mem_nil, or_false] at among
  rcases among with rfl | rfl | rfl
  · exact .schemaId (Json.printed_int _)
  · exact .subject (Json.printed_str _)
  · exact .version (Json.printed_int _)

end RegisteredSchema

namespace Context

def drafted (context : Context) (seen : List String) : Draft :=
  { stream := if "stream_name" ∈ seen then some context.stream else none
    field := if "field" ∈ seen then some context.field else none }

theorem fills (context : Context) :
    Fills fields ⟨none, none⟩ Draft.finish declared context.Holds context.drafted context where
  blank := rfl
  unfilled := by simp [fields, drafted]
  read := by
    intro field member seen text held
    simp only [fields, List.mem_cons, List.not_mem_nil, or_false] at member
    rcases member with rfl | rfl
    · have written : StringText context.stream text := by simpa [holds_iff] using held
      refine (string_takes written).store
        (fun said => { context.drafted seen with stream := some said }) ?_
      simp [drafted]
    · have written : StringText context.field.name text := by simpa [holds_iff] using held
      refine (MessageField.takes written).store
        (fun field => { context.drafted seen with field := some field }) ?_
      simp [drafted]
  ordered := List.prefix_refl _
  optional := fun _ none => nomatch none
  differ := by decide
  finish := by
    intro seen met
    simp only [declared, List.mem_cons, List.not_mem_nil, or_false, forall_eq_or_imp, forall_eq] at met
    simp [drafted, Draft.finish, met, need, bind, Except.bind, pure, Except.pure]

theorem takes {context : Context} {text : List UInt8} (written : context.Text text) :
    Takes reader text context :=
  record_takes "SerializationContext" context.fills written

theorem printed_text (context : Context) : context.Text (Json.printed context.toJson) := by
  refine Json.printed_record (by rfl) ?_
  intro member among
  simp only [List.mem_cons, List.not_mem_nil, or_false] at among
  rcases among with rfl | rfl
  · exact .stream (Json.printed_str _)
  · exact .field (Json.printed_str _)

end Context

namespace Model

/-- Every value is read back from its compact text, and whatever text a value was read from, its compact
text is read as the same value and printed as itself. -/
def Survives {α : Type} (read : Reader α) (toJson : α → Json) : Prop :=
  (∀ value, whole read (Json.printed (toJson value)) = .ok value) ∧
    ∀ text value, whole read text = .ok value →
      ∃ again, whole read (Json.printed (toJson value)) = .ok again ∧ again = value ∧
        Json.printed (toJson again) = Json.printed (toJson value)

theorem survives_of_takes {α : Type} {read : Reader α} {toJson : α → Json}
    (takes : ∀ value, Takes read (Json.printed (toJson value)) value) : Survives read toJson := by
  have kept (value : α) : whole read (Json.printed (toJson value)) = .ok value :=
    whole_takes (fun text same => same ▸ takes value) (alone_self rfl)
  exact ⟨kept, fun _ value _ => ⟨value, kept value, rfl, rfl⟩⟩

/-- The data model survives its JSON form. A record is read from every object that holds its fields among
any others, in any order, and from the list of its fields; a schema without references need not say so. -/
theorem data_model_survives :
    (Survives Schema.reader Schema.toJson ∧ Survives SchemaReference.reader SchemaReference.toJson ∧
      Survives RegisteredSchema.reader RegisteredSchema.toJson ∧
      Survives MessageField.reader MessageField.toJson ∧ Survives Context.reader Context.toJson) ∧
    (∀ (schema : Schema) text, Alone schema.Text text → whole Schema.reader text = .ok schema) ∧
    (∀ (reference : SchemaReference) text, Alone reference.Text text →
      whole SchemaReference.reader text = .ok reference) ∧
    (∀ (registered : RegisteredSchema) text, Alone registered.Text text →
      whole RegisteredSchema.reader text = .ok registered) ∧
    ∀ (context : Context) text, Alone context.Text text → whole Context.reader text = .ok context := by
  refine ⟨⟨?_, ?_, ?_, ?_, ?_⟩, ?_, ?_, ?_, ?_⟩
  · exact survives_of_takes fun schema => Schema.takes schema.printed_text
  · exact survives_of_takes fun reference => SchemaReference.takes reference.printed_text
  · exact survives_of_takes fun registered => RegisteredSchema.takes registered.printed_text
  · exact survives_of_takes fun field => MessageField.takes (Json.printed_str field.name)
  · exact survives_of_takes fun context => Context.takes context.printed_text
  · exact fun schema text => whole_takes fun _ => Schema.takes
  · exact fun reference text => whole_takes fun _ => SchemaReference.takes
  · exact fun registered text => whole_takes fun _ => RegisteredSchema.takes
  · exact fun context text => whole_takes fun _ => Context.takes

theorem value_unkept : Value (Utf8.encodeString "[1e999,\"\\ud800\"]") := by
  have digit : Digits [49] := ⟨by decide, List.all_eq_true.mp rfl⟩
  have digits : Digits [57, 57, 57] := ⟨by decide, List.all_eq_true.mp rfl⟩
  have number : Value (Utf8.encodeString "1e999") :=
    .number (.inl ⟨[49], [], [101, 57, 57, 57], .inr ⟨digit, by decide⟩, .inl rfl,
      .inr ⟨101, [], [57, 57, 57], .inl rfl, .inl rfl, digits, rfl⟩, rfl⟩)
  have string : Value (Utf8.encodeString "\"\\ud800\"") :=
    .string (.code (.digits (by rfl) (by rfl) (by rfl) (by rfl)) .done)
  have listed : Listed 93 true [Utf8.encodeString "1e999", Utf8.encodeString "\"\\ud800\""]
      (Utf8.encodeString "1e999,\"\\ud800\"]") :=
    Json.listed_first (Json.listed_next (Json.listed_end 93 false))
  refine .list (fun item member => ?_) listed
  simp only [List.mem_cons, List.not_mem_nil, or_false] at member
  rcases member with rfl | rfl
  · exact number
  · exact string

theorem avro_escaped : StringText "AVRO" (Utf8.encodeString "\"\\u0041VRO\"") := by
  have code : Code [48, 48, 52, 49] 65 := Json.code_byte (show 65 < 0x100 by decide)
  have spelled : Spelling (92 :: 117 :: ([48, 48, 52, 49] ++ [86, 82, 79])) ['A', 'V', 'R', 'O'] :=
    .code code (Json.spelling_text ['V', 'R', 'O'])
  exact ⟨_, spelled, by decide⟩

def placedText : String :=
  " \x7b\"more\":[1e999,\"\\ud800\"],\"schema_type\":\"\\u0041VRO\"," ++
    "\"references\":[[\"point\",\"p\",-2147483648]],\"definition\":\"😀\"\x7d\n"

def placed : Schema := ⟨"😀", .avro, [⟨"point", "p", -2147483648⟩]⟩

def placedMembers : List (String × List UInt8) :=
  [("more", Utf8.encodeString "[1e999,\"\\ud800\"]"),
    ("schema_type", Utf8.encodeString "\"\\u0041VRO\""),
    ("references", Json.printed (.arr [.arr [.str "point", .str "p", .int32 (-2147483648)]])),
    ("definition", Json.printed (.str "😀"))]

theorem placed_text : Alone placed.Text (Utf8.encodeString placedText) := by
  have written := Json.written_members placedMembers
  have last := Json.listed_end 125 false
  have listed : Listed 125 true (placedMembers.map fun member => Json.printedMember member.1 member.2) _ :=
    Json.listed_first (Json.listed_next (Json.listed_next (Json.listed_next last)))
  refine ⟨[32], _, [10], by simp [Blanks], .inl (.object (by decide) ?_ ?_ written listed),
    by simp [Blanks], by decide +kernel⟩
  · intro member among known
    simp only [placedMembers, List.mem_cons, List.not_mem_nil, or_false] at among
    rcases among with rfl | rfl | rfl | rfl
    · exact absurd known (by decide)
    · exact .type avro_escaped
    · obtain ⟨inside, opens, listed⟩ := Json.printed_arr
        [.arr [.str "point", .str "p", .int32 (-2147483648)]]
      have point := SchemaReference.listed_text ⟨"point", "p", -2147483648⟩
      exact .references ⟨_, inside, .cons point .nil, listed, opens⟩
    · exact .definition (Json.printed_str "😀")
  · intro member among unknown
    simp only [placedMembers, List.mem_cons, List.not_mem_nil, or_false] at among
    rcases among with rfl | rfl | rfl | rfl
    · exact value_unkept
    · exact absurd (by decide) unknown
    · exact absurd (by decide) unknown
    · exact absurd (by decide) unknown

theorem data_model_survives_respelled :
    whole Schema.reader (Utf8.encodeString placedText) = .ok placed ∧
      ∃ again, whole Schema.reader (Json.printed placed.toJson) = .ok again ∧ again = placed ∧
        Json.printed again.toJson = Json.printed placed.toJson := by
  have read := data_model_survives.2.1 placed _ placed_text
  exact ⟨read, data_model_survives.1.1.2 _ placed read⟩

end Model
end FramedJson
