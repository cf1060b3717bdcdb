import FramedJson.Model.Reader

namespace FramedJson.Model

structure Member (δ : Type) where
  name : String
  fill : δ → Json → Except Mismatch δ

def integerOf (expected : String) (low high : Int) (value : Json) : Except Mismatch Int :=
  match value with
  | .num number => checkInteger expected low high number
  | other => .error (.type (.ofJson other) expected)

def fillByPosition (name : String) (count total position : Nat) (draft : δ) :
    List (Member δ) → List Json → Except Mismatch δ
  | [], [] => .ok draft
  | [], _ :: _ => .error (.length total "fewer elements in array")
  | _ :: _, [] => .error (.length position (recordName name count))
  | field :: fields, item :: items => do
    fillByPosition name count total (position + 1) (← field.fill draft item) fields items

def fillByName (fields : List (Member δ)) (draft : δ) :
    List (String × Json) → Except Mismatch δ
  | [] => .ok draft
  | (name, value) :: rest =>
    match fields.find? (fun field => field.name = name) with
    | some field => do fillByName fields (← field.fill draft value) rest
    | none => fillByName fields draft rest

def recordOf (name : String) (fields : List (Member δ)) (blank : δ)
    (finish : δ → Except Mismatch α) (value : Json) : Except Mismatch α := do
  let draft ← match value with
    | .arr items => fillByPosition name fields.length items.length 0 blank fields items
    | .obj members => fillByName fields blank members
    | other => .error (.type (.ofJson other) s!"struct {name}")
  finish draft

end FramedJson.Model
