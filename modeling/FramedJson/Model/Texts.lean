import FramedJson.Json.Grammar
import FramedJson.Schema
import FramedJson.Subject
import Mathlib.Tactic.MkIffOfInductiveProp

/-!
The JSON texts of the data model, told by the grammar and without a reader. A record is an object that
holds its fields once each, in any order and among any others, or the list of its fields in their order.
-/
namespace FramedJson

open Grammar

namespace Model

def StringText (text : String) (bytes : List UInt8) : Prop :=
  ∃ inside, Spelling inside text.toList ∧ bytes = 34 :: (inside ++ [34])

/-- An integer has one numeral: its decimal digits, behind a minus where it is negative. -/
def IntegerText (n : Int) (bytes : List UInt8) : Prop :=
  bytes = Utf8.encode
    (if n < 0 then '-' :: Nat.toDigits 10 n.natAbs else Nat.toDigits 10 n.natAbs)

def ListText {α : Type} (holds : α → List UInt8 → Prop) (values : List α) (bytes : List UInt8) :
    Prop :=
  ∃ items inside, List.Forall₂ holds values items ∧ Listed 93 true items inside ∧
    bytes = 91 :: inside

/-- A record with the `declared` fields, of which those `present` are there; `holds` tells, by the name of
a field, the texts of its value. -/
inductive RecordText (declared present : List String) (holds : String → List UInt8 → Prop) :
    List UInt8 → Prop
  | list {bytes : List UInt8} (fields : ListText holds present bytes) :
      RecordText declared present holds bytes
  | object {members : List (String × List UInt8)} {texts : List (List UInt8)}
      {inside : List UInt8}
      (named : ((members.map Prod.fst).filter (· ∈ declared)).Perm present)
      (known : ∀ member ∈ members, member.1 ∈ declared → holds member.1 member.2)
      (unknown : ∀ member ∈ members, member.1 ∉ declared → Value member.2)
      (written : List.Forall₂ (fun member text =>
        ∃ name, Spelling name member.1.toList ∧ MemberText name member.2 text) members texts)
      (listed : Listed 125 true texts inside) :
      RecordText declared present holds (123 :: inside)

end Model

open Model

namespace SchemaReference

def declared : List String := ["name", "subject", "version"]

@[mk_iff]
inductive Holds (reference : SchemaReference) : String → List UInt8 → Prop
  | name {bytes : List UInt8} (text : StringText reference.name bytes) : Holds reference "name" bytes
  | subject {bytes : List UInt8} (text : StringText reference.subject bytes) :
      Holds reference "subject" bytes
  | version {bytes : List UInt8} (text : IntegerText reference.version.toInt bytes) :
      Holds reference "version" bytes

def Text (reference : SchemaReference) : List UInt8 → Prop :=
  RecordText declared declared reference.Holds

end SchemaReference

namespace Schema

def declared : List String := ["definition", "schema_type", "references"]

@[mk_iff]
inductive Holds (schema : Schema) : String → List UInt8 → Prop
  | definition {bytes : List UInt8} (text : StringText schema.definition bytes) :
      Holds schema "definition" bytes
  | type {bytes : List UInt8} (text : StringText schema.type.name bytes) :
      Holds schema "schema_type" bytes
  | references {bytes : List UInt8} (text : ListText SchemaReference.Text schema.references bytes) :
      Holds schema "references" bytes

def Text (schema : Schema) (bytes : List UInt8) : Prop :=
  RecordText declared declared schema.Holds bytes ∨
    schema.references = [] ∧ RecordText declared ["definition", "schema_type"] schema.Holds bytes

end Schema

namespace RegisteredSchema

def declared : List String := ["schema_id", "subject", "version"]

@[mk_iff]
inductive Holds (registered : RegisteredSchema) : String → List UInt8 → Prop
  | schemaId {bytes : List UInt8} (text : IntegerText registered.schemaId.toNat bytes) :
      Holds registered "schema_id" bytes
  | subject {bytes : List UInt8} (text : StringText registered.subject bytes) :
      Holds registered "subject" bytes
  | version {bytes : List UInt8} (text : IntegerText registered.version.toNat bytes) :
      Holds registered "version" bytes

def Text (registered : RegisteredSchema) : List UInt8 → Prop :=
  RecordText declared declared registered.Holds

end RegisteredSchema

namespace Context

def declared : List String := ["stream_name", "field"]

@[mk_iff]
inductive Holds (context : Context) : String → List UInt8 → Prop
  | stream {bytes : List UInt8} (text : StringText context.stream bytes) :
      Holds context "stream_name" bytes
  | field {bytes : List UInt8} (text : StringText context.field.name bytes) :
      Holds context "field" bytes

def Text (context : Context) : List UInt8 → Prop := RecordText declared declared context.Holds

end Context
end FramedJson
