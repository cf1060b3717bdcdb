import FramedJson.Decoder
import FramedJson.Proofs.Envelope
import FramedJson.Proofs.Json.Reading
import FramedJson.Proofs.LocalSchema

namespace FramedJson.Decoder

open JsonSchema

variable {β : Type}

theorem build_of_read {definition : String} {document : Json} {validator : JsonSchema.Validator}
    (read : LocalSchema.read definition = .ok document)
    (compiled : LocalSchema.compile document = .ok validator)
    (ofDocument : Json → Option Context → Except CodecError β) :
    build definition ofDocument = .ok ⟨validator, ofDocument⟩ := by
  simp only [build, read, compiled, bind, Except.bind]
  rfl

theorem build_schema {definition : String} {decoder : Decoder β}
    {ofDocument : Json → Option Context → Except CodecError β}
    (built : build definition ofDocument = .ok decoder) :
    Json.ofText definition = .ok decoder.validator.schema ∧ decoder.ofDocument = ofDocument := by
  obtain ⟨document, read, built⟩ := Outcome.bind_ok built
  obtain ⟨validator, compiled, built⟩ := Outcome.bind_ok built
  cases built
  rw [Validator.ofJson_schema (LocalSchema.compile_ok compiled)]
  exact ⟨LocalSchema.read_ok read, rfl⟩

section Stages

variable (decoder : Decoder β) {id : UInt32} {payload : List UInt8} {document : Json}

theorem decode_misframed {data : List UInt8} {e : FramingError}
    (refused : Envelope.decode data = .error e) (reader : Option Context) :
    decoder.decode (some data) reader = .error (.framing e) := by
  have unopened : openFrame data = .error (.framing e) := by
    rw [openFrame, refused]
  simp only [decode, unopened, bind, Except.bind]

theorem openFrame_encode (id : UInt32) (some : payload ≠ []) :
    openFrame (Envelope.encode ⟨id, payload⟩) = .ok ⟨id, payload⟩ := by
  rw [openFrame, Envelope.decode_encode id some]

theorem decode_unreadable {e : Json.SyntaxError} (some : payload ≠ [])
    (read : Json.ofBytes payload = .error e) (reader : Option Context) :
    decoder.decode (Option.some (Envelope.encode ⟨id, payload⟩)) reader =
      .error (.serialization (.malformed e)) := by
  simp only [decode, openFrame_encode id some, readPayload, read, bind, Except.bind]

theorem decode_rejected {violations : List Violation} (some : payload ≠ [])
    (read : Json.ofBytes payload = .ok document)
    (invalid : decoder.validator.validate document = .error violations) (reader : Option Context) :
    decoder.decode (Option.some (Envelope.encode ⟨id, payload⟩)) reader =
      .error (.invalid violations (.incoming id)) := by
  have judged : decoder.judge document id = .error (.invalid violations (.incoming id)) := by
    rw [judge, invalid]
  simp only [decode, openFrame_encode id some, readPayload, read, judged, bind, Except.bind]

theorem decode_framed (some : payload ≠ []) (read : Json.ofBytes payload = .ok document)
    (valid : decoder.validator.validate document = .ok ()) (reader : Option Context) :
    decoder.decode (Option.some (Envelope.encode ⟨id, payload⟩)) reader =
      (decoder.ofDocument document reader).map Option.some := by
  have judged : decoder.judge document id = .ok () := by
    rw [judge, valid]
  simp only [decode, openFrame_encode id some, readPayload, read, judged, bind, Except.bind]
  cases decoder.ofDocument document reader with
  | error e => rfl
  | ok object => rfl

end Stages

/-- The five courses that the decoding of some bytes can take. -/
inductive Course (decoder : Decoder β) (reader : Option Context) :
    List UInt8 → Except CodecError (Option β) → Prop
  | misframed (data : List UInt8) (e : FramingError) (refused : Envelope.decode data = .error e) :
    Course decoder reader data (.error (.framing e))
  | unreadable (id : UInt32) (payload : List UInt8) (e : Json.SyntaxError) (some : payload ≠ [])
    (refused : Json.ofBytes payload = .error e) :
    Course decoder reader (Envelope.encode ⟨id, payload⟩) (.error (.serialization (.malformed e)))
  | rejected (id : UInt32) (payload : List UInt8) (document : Json) (some : payload ≠ [])
    (spelled : Json.Spells payload document)
    (invalid : violations decoder.validator.schema document ≠ []) :
    Course decoder reader (Envelope.encode ⟨id, payload⟩)
      (.error (.invalid (violations decoder.validator.schema document) (.incoming id)))
  | unconverted (id : UInt32) (payload : List UInt8) (document : Json) (e : CodecError)
    (some : payload ≠ []) (spelled : Json.Spells payload document)
    (valid : violations decoder.validator.schema document = [])
    (refused : decoder.ofDocument document reader = .error e) :
    Course decoder reader (Envelope.encode ⟨id, payload⟩) (.error e)
  | converted (id : UInt32) (payload : List UInt8) (document : Json) (object : β)
    (some : payload ≠ []) (spelled : Json.Spells payload document)
    (valid : violations decoder.validator.schema document = [])
    (made : decoder.ofDocument document reader = .ok object) :
    Course decoder reader (Envelope.encode ⟨id, payload⟩) (.ok (.some object))

variable {decoder : Decoder β} {reader : Option Context} {data : List UInt8}

theorem Course.decodes {result : Except CodecError (Option β)}
    (course : decoder.Course reader data result) : decoder.decode (some data) reader = result := by
  cases course with
  | misframed _ e refused => exact decode_misframed decoder refused reader
  | unreadable id payload e some refused => exact decode_unreadable decoder some refused reader
  | rejected id payload document some spelled invalid =>
    have judged := (Validator.validate_error_iff decoder.validator document _).mpr ⟨rfl, invalid⟩
    exact decode_rejected decoder some (Json.ofBytes_ok_iff.mpr spelled) judged reader
  | unconverted id payload document e some spelled valid refused =>
    have judged := (Validator.validate_ok_iff decoder.validator document).mpr
      (List.isEmpty_iff.mpr valid)
    rw [decode_framed decoder some (Json.ofBytes_ok_iff.mpr spelled) judged, refused]
    rfl
  | converted id payload document object some spelled valid made =>
    have judged := (Validator.validate_ok_iff decoder.validator document).mpr
      (List.isEmpty_iff.mpr valid)
    rw [decode_framed decoder some (Json.ofBytes_ok_iff.mpr spelled) judged, made]
    rfl

theorem decode_course (decoder : Decoder β) (reader : Option Context) (data : List UInt8) :
    decoder.Course reader data (decoder.decode (some data) reader) := by
  have course : ∃ result, decoder.Course reader data result := by
    cases opened : Envelope.decode data with
    | error e => exact ⟨_, .misframed data e opened⟩
    | ok envelope =>
      obtain ⟨some, rfl⟩ := Envelope.encode_of_decode opened
      cases read : Json.ofBytes envelope.payload with
      | error e => exact ⟨_, .unreadable envelope.schemaId envelope.payload e some read⟩
      | ok document =>
        have spelled := Json.ofBytes_ok_iff.mp read
        by_cases valid : violations decoder.validator.schema document = []
        · cases made : decoder.ofDocument document reader with
          | error e => exact ⟨_, .unconverted envelope.schemaId _ document e some spelled valid made⟩
          | ok object => exact ⟨_, .converted envelope.schemaId _ document object some spelled valid made⟩
        · exact ⟨_, .rejected envelope.schemaId envelope.payload document some spelled valid⟩
  obtain ⟨result, course⟩ := course
  rw [course.decodes]
  exact course

theorem course_iff {result : Except CodecError (Option β)} :
    decoder.decode (some data) reader = result ↔ decoder.Course reader data result := by
  constructor
  · rintro rfl
    exact decode_course decoder reader data
  · exact Course.decodes

theorem decode_ok_iff {object : β} :
    decoder.decode (some data) reader = .ok (some object) ↔
      ∃ id payload document, payload ≠ [] ∧ data = Envelope.encode ⟨id, payload⟩ ∧
        Json.Spells payload document ∧ violations decoder.validator.schema document = [] ∧
        decoder.ofDocument document reader = .ok object := by
  rw [course_iff]
  constructor
  · intro course
    cases course with
    | converted id payload document _ some spelled valid made =>
      exact ⟨id, payload, document, some, rfl, spelled, valid, made⟩
  · rintro ⟨id, payload, document, some, rfl, spelled, valid, made⟩
    exact .converted id payload document object some spelled valid made

theorem decode_error_iff {e : CodecError} :
    decoder.decode (some data) reader = .error e ↔
      (∃ fault, Envelope.decode data = .error fault ∧ e = .framing fault) ∨
      ∃ id payload, payload ≠ [] ∧ data = Envelope.encode ⟨id, payload⟩ ∧
        ((∃ fault, Json.ofBytes payload = .error fault ∧ e = .serialization (.malformed fault)) ∨
          ∃ document, Json.Spells payload document ∧
            (violations decoder.validator.schema document ≠ [] ∧
                e = .invalid (violations decoder.validator.schema document) (.incoming id) ∨
              violations decoder.validator.schema document = [] ∧
                decoder.ofDocument document reader = .error e)) := by
  rw [course_iff]
  constructor
  · intro course
    cases course with
    | misframed _ fault refused => exact .inl ⟨fault, refused, rfl⟩
    | unreadable id payload fault some refused =>
      exact .inr ⟨id, payload, some, rfl, .inl ⟨fault, refused, rfl⟩⟩
    | rejected id payload document some spelled invalid =>
      exact .inr ⟨id, payload, some, rfl, .inr ⟨document, spelled, .inl ⟨invalid, rfl⟩⟩⟩
    | unconverted id payload document _ some spelled valid refused =>
      exact .inr ⟨id, payload, some, rfl, .inr ⟨document, spelled, .inr ⟨valid, refused⟩⟩⟩
  · rintro (⟨fault, refused, rfl⟩ | ⟨id, payload, some, rfl, unread | ⟨document, spelled, judged⟩⟩)
    · exact .misframed data fault refused
    · obtain ⟨fault, refused, rfl⟩ := unread
      exact .unreadable id payload fault some refused
    · rcases judged with ⟨invalid, rfl⟩ | ⟨valid, refused⟩
      · exact .rejected id payload document some spelled invalid
      · exact .unconverted id payload document e some spelled valid refused

theorem decode_ne_none : decoder.decode (some data) reader ≠ .ok none := by
  intro decoded
  cases course_iff.mp decoded

section Header

variable {lead : UInt8} {rest : List UInt8}

/-- The payload behind a header says what the schema does not allow. -/
def Disallows (schema : Json) (lead : UInt8) (rest : List UInt8) : Prop :=
  lead = Envelope.magic ∧ ∃ document, Json.Spells rest document ∧ violations schema document ≠ []

theorem decode_any_id (allowed : ¬ Disallows decoder.validator.schema lead rest)
    (a b c d a' b' c' d' : UInt8) :
    decoder.decode (some (lead :: a :: b :: c :: d :: rest)) reader =
      decoder.decode (some (lead :: a' :: b' :: c' :: d' :: rest)) reader := by
  rcases Envelope.misframed_or_frame lead rest with ⟨fault, refused⟩ | ⟨opens, some, frame⟩
  · rw [decode_misframed decoder (refused a b c d), decode_misframed decoder (refused a' b' c' d')]
  · rw [frame a b c d, frame a' b' c' d']
    cases read : Json.ofBytes rest with
    | error fault => rw [decode_unreadable decoder some read, decode_unreadable decoder some read]
    | ok document =>
      have valid : violations decoder.validator.schema document = [] :=
        Classical.byContradiction fun invalid =>
          allowed ⟨opens, document, Json.ofBytes_ok_iff.mp read, invalid⟩
      have judged := (Validator.validate_ok_iff decoder.validator document).mpr
        (List.isEmpty_iff.mpr valid)
      rw [decode_framed decoder some read judged, decode_framed decoder some read judged]

theorem decode_disallowed {document : Json} (spelled : Json.Spells rest document)
    (invalid : violations decoder.validator.schema document ≠ []) (a b c d : UInt8) :
    decoder.decode (some (Envelope.magic :: a :: b :: c :: d :: rest)) reader =
      .error (.invalid (violations decoder.validator.schema document)
        (.incoming (Envelope.idOfBytes a b c d))) := by
  rcases Envelope.misframed_or_frame Envelope.magic rest with ⟨fault, refused⟩ | ⟨_, some, frame⟩
  · cases rest with
    | nil => cases Json.ofBytes_ok_iff.mpr spelled
    | cons first rest => cases refused a b c d
  · rw [frame a b c d]
    exact (Course.rejected _ rest document some spelled invalid).decodes

end Header

theorem message_incoming (violations : List Violation) (a b c d : UInt8) :
    (CodecError.invalid violations (.incoming (Envelope.idOfBytes a b c d))).message =
      (CodecError.invalid violations .alone).message ++
        (" (writer schema id " ++ toString (Envelope.bigEndian [a, b, c, d]) ++ ")") := by
  rw [CodecError.message_invalid, ← Envelope.idOfBytes_bigEndian]
  rfl

/-- Decoding asks the decoder's own schema and nobody else. Bytes give an object exactly when they are a
frame, all of the payload is one JSON text, the schema has nothing against the document and the
conversion makes the object of it; otherwise the first of the four that fails gives the error. Frames
that differ in the four bytes of the id come to the same, but that what the validator says ends with the
number that each frame's own four bytes spell. -/
theorem decoded_by_local_schema (decoder : Decoder β) (reader : Option Context) :
    let schema := decoder.validator.schema
    (∀ definition, build definition decoder.ofDocument = .ok decoder →
      Json.ofText definition = .ok schema) ∧
    (∀ data object, decoder.decode (some data) reader = .ok (some object) ↔
      ∃ id payload document, payload ≠ [] ∧ data = Envelope.encode ⟨id, payload⟩ ∧
        Json.Spells payload document ∧ violations schema document = [] ∧
        decoder.ofDocument document reader = .ok object) ∧
    (∀ data, decoder.decode (some data) reader ≠ .ok none) ∧
    (∀ data e, decoder.decode (some data) reader = .error e ↔
      (∃ fault, Envelope.decode data = .error fault ∧ e = .framing fault) ∨
      ∃ id payload, payload ≠ [] ∧ data = Envelope.encode ⟨id, payload⟩ ∧
        ((∃ fault, Json.ofBytes payload = .error fault ∧ e = .serialization (.malformed fault)) ∨
          ∃ document, Json.Spells payload document ∧
            (violations schema document ≠ [] ∧
                e = .invalid (violations schema document) (.incoming id) ∨
              violations schema document = [] ∧ decoder.ofDocument document reader = .error e))) ∧
    ∀ lead a b c d a' b' c' d' rest,
      let one := decoder.decode (some (lead :: a :: b :: c :: d :: rest)) reader
      let other := decoder.decode (some (lead :: a' :: b' :: c' :: d' :: rest)) reader
      let writer := fun id => " (writer schema id " ++ toString (Envelope.bigEndian id) ++ ")"
      let disallowed := fun document =>
        lead = 0 ∧ Json.Spells rest document ∧ violations schema document ≠ []
      ((¬ ∃ document, disallowed document) → one = other) ∧
      ∀ document, disallowed document → ∃ e e', one = .error e ∧ other = .error e' ∧
        e.message = (CodecError.invalid (violations schema document) .alone).message ++
          writer [a, b, c, d] ∧
        e'.message = (CodecError.invalid (violations schema document) .alone).message ++
          writer [a', b', c', d'] := by
  intro schema
  refine ⟨fun definition built => (build_schema built).1, fun data object => decode_ok_iff,
    fun data => decode_ne_none, fun data e => decode_error_iff, ?_⟩
  intro lead a b c d a' b' c' d' rest one other writer disallowed
  constructor
  · intro allowed
    refine decode_any_id ?_ a b c d a' b' c' d'
    rintro ⟨opens, document, spelled, invalid⟩
    exact allowed ⟨document, opens, spelled, invalid⟩
  · rintro document ⟨rfl, spelled, invalid⟩
    exact ⟨_, _, decode_disallowed spelled invalid a b c d, decode_disallowed spelled invalid a' b' c' d',
      message_incoming _ a b c d, message_incoming _ a' b' c' d'⟩

def onlyNull : Decoder Json :=
  ⟨⟨.obj [("type", .str "null")], rfl⟩, fun document reader =>
    if reader = some ⟨"s", .key⟩ then .ok document else .error (.reportedInvalid "not for us")⟩

theorem decoded_by_local_schema_writers :
    let decode := fun bytes => onlyNull.decode (some bytes) (some ⟨"s", .key⟩)
    decode [0, 0, 0, 0, 7, 110, 117, 108, 108] = .ok (some .null) ∧
    decode [0, 0, 0, 1, 7, 110, 117, 108, 108] = .ok (some .null) ∧
    (∃ e e', decode [0, 0, 0, 0, 7, 116, 114, 117, 101] = .error e ∧
      decode [0, 0, 0, 1, 7, 116, 114, 117, 101] = .error e' ∧
      e.message = "schema validation failed: true is not of type \"null\" (writer schema id 7)" ∧
      e'.message = "schema validation failed: true is not of type \"null\" (writer schema id 263)") ∧
    onlyNull.decode (some [0, 0, 0, 0, 7, 110, 117, 108, 108]) none =
      .error (.reportedInvalid "not for us") := by
  intro decode
  have null : Json.Spells [110, 117, 108, 108] .null := Json.ofBytes_ok_iff.mp rfl
  have yes : Json.Spells [116, 114, 117, 101] (.bool true) := Json.ofBytes_ok_iff.mp rfl
  have invalid : violations onlyNull.validator.schema (.bool true) ≠ [] := List.cons_ne_nil _ _
  have allowed : ¬ ∃ document, (0 : UInt8) = 0 ∧ Json.Spells [110, 117, 108, 108] document ∧
      violations onlyNull.validator.schema document ≠ [] := by
    rintro ⟨document, _, spelled, invalid⟩
    cases (Json.ofBytes_ok_iff.mpr null).symm.trans (Json.ofBytes_ok_iff.mpr spelled)
    exact invalid rfl
  obtain ⟨_, objects, _, _, ids⟩ := decoded_by_local_schema onlyNull (some ⟨"s", .key⟩)
  obtain ⟨_, _, _, errors, _⟩ := decoded_by_local_schema onlyNull none
  have first := (objects [0, 0, 0, 0, 7, 110, 117, 108, 108] .null).mpr
    ⟨7, _, .null, List.cons_ne_nil _ _, rfl, null, rfl, rfl⟩
  have same := (ids 0 0 0 0 7 0 0 1 7 [110, 117, 108, 108]).1 allowed
  obtain ⟨e, e', one, other, message, message'⟩ :=
    (ids 0 0 0 0 7 0 0 1 7 [116, 114, 117, 101]).2 (.bool true) ⟨rfl, yes, invalid⟩
  refine ⟨first, same.symm.trans first, ⟨e, e', one, other, ?_, ?_⟩, ?_⟩
  · rw [message]
    decide
  · rw [message']
    decide
  · exact (errors _ _).mpr (.inr ⟨7, _, List.cons_ne_nil _ _, rfl,
      .inr ⟨.null, null, .inr ⟨rfl, rfl⟩⟩⟩)

end FramedJson.Decoder
