import FramedJson.Json.Basic

namespace FramedJson.Json

mutual

def all (test : Json → Bool) : Json → Bool
  | .arr items => test (.arr items) && allItems test items
  | .obj members => test (.obj members) && allMembers test members
  | other => test other

def allItems (test : Json → Bool) : List Json → Bool
  | [] => true
  | item :: rest => all test item && allItems test rest

def allMembers (test : Json → Bool) : List (String × Json) → Bool
  | [] => true
  | (_, value) :: rest => all test value && allMembers test rest
end

def ownNamesDiffer : Json → Bool
  | .obj members => (members.map Prod.fst).Nodup
  | _ => true

def notReal : Json → Bool
  | .num (.real _) => false
  | _ => true

def namesDiffer : Json → Bool := all ownNamesDiffer

def noReals : Json → Bool := all notReal

theorem allItems_iff {test : Json → Bool} {items : List Json} :
    allItems test items ↔ ∀ item ∈ items, all test item := by
  induction items with
  | nil => simp [allItems]
  | cons item rest ih => simp [allItems, ih]

theorem allMembers_iff {test : Json → Bool} {members : List (String × Json)} :
    allMembers test members ↔ ∀ member ∈ members, all test member.2 := by
  induction members with
  | nil => simp [allMembers]
  | cons member rest ih => simp [allMembers, ih]

variable {test weaker : Json → Bool}

mutual

theorem all_mono (implies : ∀ v, test v → weaker v) (v : Json) (passed : all test v) :
    all weaker v := by
  match v with
  | .arr items =>
    simp only [all, Bool.and_eq_true] at passed ⊢
    exact ⟨implies _ passed.1, allItems_mono implies items passed.2⟩
  | .obj members =>
    simp only [all, Bool.and_eq_true] at passed ⊢
    exact ⟨implies _ passed.1, allMembers_mono implies members passed.2⟩
  | .null | .bool _ | .num _ | .str _ => exact implies _ passed

theorem allItems_mono (implies : ∀ v, test v → weaker v) (items : List Json)
    (passed : allItems test items) : allItems weaker items := by
  match items with
  | [] => rfl
  | item :: rest =>
    simp only [allItems, Bool.and_eq_true] at passed ⊢
    exact ⟨all_mono implies item passed.1, allItems_mono implies rest passed.2⟩

theorem allMembers_mono (implies : ∀ v, test v → weaker v) (members : List (String × Json))
    (passed : allMembers test members) : allMembers weaker members := by
  match members with
  | [] => rfl
  | (_, value) :: rest =>
    simp only [allMembers, Bool.and_eq_true] at passed ⊢
    exact ⟨all_mono implies value passed.1, allMembers_mono implies rest passed.2⟩
end

end FramedJson.Json
