import FramedJson.Proofs.Decoder
import FramedJson.Proofs.Encoder
import FramedJson.Proofs.Json.ReadBack

namespace FramedJson

namespace Encoder

theorem payload_nonempty (document : Json) : payload document ≠ [] := by
  obtain ⟨first, tail, bytes, _⟩ := Json.render_opens .spaced document
  rw [payload, bytes]
  exact List.cons_ne_nil _ _

/-- Every text that an encoder is built from makes a decoder. Whatever the registry answers and the
cache holds, a frame that the encoder yields carries the id its subject is known by and gives the
decoder the document that was framed; while that id is known, the object has the same frame. -/
theorem encoded_reads_back {α β σ : Type} {definition : String} {options : Options}
    {references : List SchemaReference} {toDocument : α → Context → Except CodecError Json}
    {encoder : Encoder α}
    (built : build definition options references toDocument = .ok encoder)
    (ofDocument : Json → Option Context → Except CodecError β) :
    ∃ decoder, Decoder.build definition ofDocument = .ok decoder ∧
      (∀ reader, decoder.decode none reader = .ok none) ∧
      ∀ (ask : σ → Request → σ × Except RegistryError Reply) (state : σ) (cache : SubjectCache)
        (context : Context),
        encoder.encodeVia ask state cache none context = (state, cache, .ok none) ∧
        ∀ (object : α) (document : Json), toDocument object context = .ok document →
          document.namesDiffer → document.noReals → document.depth ≤ 127 →
          ∀ (after : σ) (later : SubjectCache) (frame : List UInt8),
            encoder.encodeVia ask state cache (some object) context =
              (after, later, .ok (some frame)) →
            ∃ id, later.get? (encoder.subject context) = some id ∧
              Envelope.decode frame = .ok ⟨id, payload document⟩ ∧
              (∀ reader, decoder.decode (some frame) reader =
                (ofDocument document reader).map some) ∧
              ∀ (again : σ) (known : SubjectCache),
                known.get? (encoder.subject context) = some id →
                encoder.encodeVia ask again known (some object) context =
                  (again, known, .ok (some frame)) := by
  obtain ⟨schema, validator, recordName, read, compiled, rfl⟩ := build_ok built
  refine ⟨⟨validator, ofDocument⟩, Decoder.build_of_read read compiled ofDocument,
    fun _ => rfl, ?_⟩
  intro ask state cache context
  refine ⟨encodeVia_none _ state cache context, ?_⟩
  intro object document made differ whole shallow after later frame framed
  obtain ⟨id, known, ready⟩ := encodeVia_frame _ framed
  obtain ⟨printed, same, valid, bytes⟩ := frame_ok ready
  have unique : printed = document := Except.ok.inj (same.symm.trans made)
  subst unique
  have nonempty := payload_nonempty printed
  have readBack : Json.ofBytes (payload printed) = .ok printed :=
    Json.ofBytes_render 1 1 differ whole shallow
  refine ⟨id, known, ?_, ?_, ?_⟩
  · rw [bytes]
    exact Envelope.decode_encode id nonempty
  · intro reader
    rw [bytes]
    exact Decoder.decode_framed ⟨validator, ofDocument⟩ nonempty readBack valid reader
  · intro again other entry
    rw [encodeVia_known _ entry, ready]
    rfl

def mixed : Json :=
  .obj [("z", .arr [.null, .num (.int (-2 ^ 63) (by decide)), .num (.int (2 ^ 64 - 1) (by decide))]),
    ("a", .str "\"\\\u0001é😀"), ("", .obj [("deep", .arr [.arr [], .bool false])])]

def titled : Except CodecError (Encoder Json) :=
  build "\x7b\"title\":\"T\"\x7d" .default [] fun document _ => .ok document

def alwaysSeven : Unit → Request → Unit × Except RegistryError Reply :=
  fun _ _ => ((), .ok (.id 7))

theorem encoded_reads_back_mixed :
    ∃ (encoder : Encoder Json) (decoder : Decoder Json) (later : SubjectCache) (id : UInt32)
      (frame : List UInt8),
      titled = .ok encoder ∧
      encoder.encodeVia alwaysSeven () .empty (some mixed) ⟨"s", .key⟩ =
        ((), later, .ok (some frame)) ∧
      Envelope.decode frame = .ok ⟨id, payload mixed⟩ ∧
      decoder.decode (some frame) none = .ok (some mixed) := by
  have run : titled.toOption.map (fun encoder =>
      (encoder.encodeVia alwaysSeven () .empty (some mixed) ⟨"s", .key⟩).2.2.toOption) =
      some (some (some (Envelope.encode ⟨7, payload mixed⟩))) := by decide +kernel
  cases built : titled with
  | error e =>
    rw [built] at run
    cases run
  | ok encoder =>
    rw [built] at run
    obtain ⟨decoder, _, _, calls⟩ := encoded_reads_back (σ := Unit) built fun document _ =>
      .ok document
    cases framed : encoder.encodeVia alwaysSeven () .empty (some mixed) ⟨"s", .key⟩ with
    | mk after rest =>
      obtain ⟨later, outcome⟩ := rest
      cases outcome with
      | error e =>
        simp only [Except.toOption, Option.map_some, framed] at run
        cases run
      | ok result =>
        simp only [Except.toOption, Option.map_some, framed, Option.some.injEq] at run
        subst run
        obtain ⟨id, _, opened, read, _⟩ := (calls alwaysSeven () .empty ⟨"s", .key⟩).2 mixed mixed
          rfl (by decide +kernel) (by decide +kernel) (by decide +kernel) _ _ _ framed
        exact ⟨encoder, decoder, later, id, _, rfl, framed, opened, read none⟩

end Encoder
end FramedJson
