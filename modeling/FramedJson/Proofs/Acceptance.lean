import FramedJson.Proofs.Json.Depth
import FramedJson.Proofs.RoundTrip

/-!
Which frames a decoder accepts when an encoder of the same schema text wrote them. Writing has no limit
of depth and reading has one, so a document that nests too deep is framed and then refused. A double
that comes back as its neighbour is judged again, and may be refused as well.
-/
namespace FramedJson

namespace Json

theorem ofBytes_render_deep (s c : Nat) {v : Json} (differ : v.namesDiffer)
    (deep : maxDepth < v.depth) :
    ∃ e, e.cause = .tooDeep ∧ ofBytes (Utf8.encode (v.render (.ofBlanks s c))) = .error e := by
  have roomy := readValue_alone s c differ v.depth (Nat.le_refl _)
  rw [← depth_reread] at deep
  obtain ⟨left, stopped⟩ := readValue_too_deep roomy deep
  refine ⟨Fault.locate ⟨.tooDeep, left⟩ (Utf8.encode (v.render (.ofBlanks s c))), rfl, ?_⟩
  simp only [ofBytes, readDocument, stopped, bind, Except.bind]

end Json

namespace Encoder

/-- What a decoder of the encoder's schema text makes of a frame that the encoder yields, doubles or not.
The frame is opened, and up to a depth of 127 its document is read, each double as what its text is read
as; that document is judged and converted, and the id reported is the writer's. Any deeper document is
reported as too deep. -/
theorem encoded_judged {α β σ : Type} {definition : String} {options : Options}
    {references : List SchemaReference} {toDocument : α → Context → Except CodecError Json}
    {encoder : Encoder α}
    (built : build definition options references toDocument = .ok encoder)
    (ofDocument : Json → Option Context → Except CodecError β) :
    ∃ decoder, Decoder.build definition ofDocument = .ok decoder ∧
      decoder.validator = encoder.validator ∧
      ∀ (ask : σ → Request → σ × Except RegistryError Reply) (state : σ) (cache : SubjectCache)
        (object : α) (context : Context) (document : Json),
        toDocument object context = .ok document → document.namesDiffer →
        ∀ (after : σ) (later : SubjectCache) (frame : List UInt8),
          encoder.encodeVia ask state cache (some object) context =
            (after, later, .ok (some frame)) →
          encoder.validator.validate document = .ok () ∧
          ∃ id, later.get? (encoder.subject context) = some id ∧ ∀ reader,
            (document.depth ≤ 127 → decoder.decode (some frame) reader =
              match decoder.validator.validate document.reread with
              | .ok _ => (ofDocument document.reread reader).map some
              | .error violations => .error (.invalid violations (.incoming id))) ∧
            (127 < document.depth → ∃ e, e.cause = .tooDeep ∧
              decoder.decode (some frame) reader = .error (.serialization (.malformed e))) := by
  obtain ⟨schema, validator, recordName, read, compiled, rfl⟩ := build_ok built
  refine ⟨⟨validator, ofDocument⟩, Decoder.build_of_read read compiled ofDocument, rfl, ?_⟩
  intro ask state cache object context document made differ after later frame framed
  obtain ⟨id, known, ready⟩ := encodeVia_frame _ framed
  obtain ⟨printed, same, valid, rfl⟩ := frame_ok ready
  obtain rfl : printed = document := Except.ok.inj (same.symm.trans made)
  have nonempty := payload_nonempty printed
  refine ⟨valid, id, known, fun reader => ⟨?_, ?_⟩⟩
  · intro shallow
    have parsed : Json.ofBytes (payload printed) = .ok printed.reread :=
      Json.ofBytes_render_reread 1 1 differ shallow
    cases judged : validator.validate printed.reread with
    | ok _ => exact Decoder.decode_framed ⟨validator, ofDocument⟩ nonempty parsed judged reader
    | error violations =>
      exact Decoder.decode_rejected ⟨validator, ofDocument⟩ nonempty parsed judged reader
  · intro deep
    obtain ⟨e, cause, refused⟩ := Json.ofBytes_render_deep 1 1 differ deep
    exact ⟨e, cause, Decoder.decode_unreadable _ nonempty refused reader⟩

/-- A decoder of the encoder's schema text, without a conversion, accepts a frame that the encoder
yields exactly when the framed document nests at most 127 deep, and then gives the document; it
reports any other as too deep. Doubles must read back as they were printed, and no object of the
document may hold a name twice. -/
theorem encoded_accepted_iff_shallow {α σ : Type} {definition : String} {options : Options}
    {references : List SchemaReference} {toDocument : α → Context → Except CodecError Json}
    {encoder : Encoder α}
    (built : build definition options references toDocument = .ok encoder) :
    ∃ decoder, (Decoder.build definition fun document _ => .ok document) = .ok decoder ∧
      ∀ (ask : σ → Request → σ × Except RegistryError Reply) (state : σ) (cache : SubjectCache)
        (object : α) (context : Context) (document : Json),
        toDocument object context = .ok document → document.namesDiffer →
        document.numbersReadBack →
        ∀ (after : σ) (later : SubjectCache) (frame : List UInt8),
          encoder.encodeVia ask state cache (some object) context =
            (after, later, .ok (some frame)) →
          ∀ reader,
            (document.depth ≤ 127 → decoder.decode (some frame) reader = .ok (some document)) ∧
            (127 < document.depth → ∃ e, e.cause = .tooDeep ∧
              decoder.decode (some frame) reader = .error (.serialization (.malformed e))) := by
  obtain ⟨decoder, compiled, same, judged⟩ := encoded_judged (σ := σ) built fun document _ => .ok document
  refine ⟨decoder, compiled, ?_⟩
  intro ask state cache object context document made differ exact after later frame framed reader
  obtain ⟨valid, id, _, decoded⟩ :=
    judged ask state cache object context document made differ after later frame framed
  obtain ⟨shallow, deep⟩ := decoded reader
  rw [Json.reread_of_exact document exact, same, valid] at shallow
  exact ⟨shallow, deep⟩

section Runs

def framedBy (definition : String) (document : Json) : Option (List UInt8) :=
  match build definition .default [] fun document _ => .ok document with
  | .ok encoder =>
    match (encoder.encodeVia alwaysSeven () .empty (some document) ⟨"s", .key⟩).2.2 with
    | .ok frame => frame
    | .error _ => none
  | .error _ => none

def refusedBy (definition : String) (frame : List UInt8) : Bool :=
  match Decoder.build definition fun document _ => .ok document with
  | .ok decoder => !(decoder.decode (some frame) none).isOk
  | .error _ => false

variable {definition : String} {document : Json} {frame : List UInt8}

theorem framedBy_some (run : framedBy definition document = some frame) :
    ∃ encoder later, build definition .default [] (fun document _ => .ok document) = .ok encoder ∧
      encoder.encodeVia alwaysSeven () .empty (some document) ⟨"s", .key⟩ =
        ((), later, .ok (some frame)) := by
  unfold framedBy at run
  split at run
  · rename_i encoder built
    split at run
    · rename_i outcome
      subst run
      exact ⟨encoder, _, built, Prod.ext rfl (Prod.ext rfl outcome)⟩
    · cases run
  · cases run

theorem refusedBy_true (run : refusedBy definition frame = true) :
    ∃ decoder, (Decoder.build definition fun document _ => .ok document) = .ok decoder ∧
      ∀ result, decoder.decode (some frame) none ≠ .ok result := by
  unfold refusedBy at run
  split at run
  · rename_i decoder built
    refine ⟨decoder, built, ?_⟩
    intro result accepted
    rw [accepted] at run
    cases run
  · cases run

def nested : Nat → Json
  | 0 => .arr []
  | n + 1 => .arr [nested n]

def titledText : String := "\x7b\"title\":\"T\"\x7d"

theorem encoded_accepted_iff_shallow_nested :
    ∃ (decoder : Decoder Json) (shallow deep : List UInt8) (e : Json.SyntaxError),
      framedBy titledText (nested 126) = some shallow ∧
      decoder.decode (some shallow) none = .ok (some (nested 126)) ∧
      framedBy titledText (nested 127) = some deep ∧ e.cause = .tooDeep ∧
      decoder.decode (some deep) none = .error (.serialization (.malformed e)) := by
  have first : framedBy titledText (nested 126) =
      some (Envelope.encode ⟨7, payload (nested 126)⟩) := by decide +kernel
  have second : framedBy titledText (nested 127) =
      some (Envelope.encode ⟨7, payload (nested 127)⟩) := by decide +kernel
  obtain ⟨encoder, later, built, framed⟩ := framedBy_some first
  obtain ⟨other, last, again, framed'⟩ := framedBy_some second
  obtain rfl : encoder = other := Except.ok.inj (built.symm.trans again)
  obtain ⟨decoder, _, accepted⟩ := encoded_accepted_iff_shallow (σ := Unit) built
  have read := (accepted alwaysSeven () .empty (nested 126) ⟨"s", .key⟩ (nested 126) rfl
    (by decide +kernel) (by decide +kernel) () later _ framed none).1 (by decide +kernel)
  obtain ⟨e, cause, refused⟩ := (accepted alwaysSeven () .empty (nested 127) ⟨"s", .key⟩ (nested 127)
    rfl (by decide +kernel) (by decide +kernel) () last _ framed' none).2 (by decide +kernel)
  exact ⟨decoder, _, _, e, first, read, second, cause, refused⟩

def picky : String := "\x7b\"title\":\"T\",\"const\":6e84\x7d"

def pick : Json := (Json.ofText "6e84").toOption.getD .null

/-- An encoder of the definition frames the document, and the decoder of the definition refuses the
frame. -/
def FramedYetRefused (definition : String) (document : Json) : Prop :=
  ∃ encoder decoder later frame,
    build definition .default [] (fun document _ => .ok document) = .ok encoder ∧
    (Decoder.build definition fun document _ => .ok document) = .ok decoder ∧
    encoder.encodeVia alwaysSeven () .empty (some document) ⟨"s", .key⟩ =
      ((), later, .ok (some frame)) ∧
    ∀ result : Option Json, decoder.decode (some frame) none ≠ .ok result

theorem framedYetRefused_of_runs (framed : framedBy definition document = some frame)
    (refused : refusedBy definition frame = true) : FramedYetRefused definition document := by
  obtain ⟨encoder, later, built, framed⟩ := framedBy_some framed
  obtain ⟨decoder, compiled, refused⟩ := refusedBy_true refused
  exact ⟨encoder, decoder, later, frame, built, compiled, framed, refused⟩

theorem frames_refused :
    FramedYetRefused titledText (nested 127) ∧ FramedYetRefused picky pick := by
  have deep : framedBy titledText (nested 127) =
      some (Envelope.encode ⟨7, payload (nested 127)⟩) := by decide +kernel
  have inexact : framedBy picky pick = some (Envelope.encode ⟨7, payload pick⟩) := by
    decide +kernel
  constructor
  · exact framedYetRefused_of_runs deep (by decide +kernel)
  · exact framedYetRefused_of_runs inexact (by decide +kernel)

end Runs

end Encoder
end FramedJson
