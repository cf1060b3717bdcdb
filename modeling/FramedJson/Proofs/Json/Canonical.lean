import FramedJson.Proofs.Json.Depth
import FramedJson.Proofs.Json.ReadBack
import FramedJson.Schema

namespace FramedJson

namespace Json

def byName (a b : String × Json) : Bool := decide (a.1 ≤ b.1)

theorem byName_total (a b : String × Json) : byName a b = true ∨ byName b a = true := by
  simpa [byName] using String.le_total a.1 b.1

theorem byName_trans (a b c : String × Json) (first : byName a b = true)
    (second : byName b c = true) : byName a c = true := by
  simp only [byName, decide_eq_true_eq] at first second ⊢
  exact String.le_trans first second

def sortMember (member : String × Json) : String × Json := (member.1, sortKeys member.2)

theorem sortMembers_eq_map (members : List (String × Json)) :
    sortMembers members = members.map sortMember := by
  induction members with
  | nil => rfl
  | cons member rest ih => simp [sortMembers, sortMember, ih]

theorem byName_sortMember (a b : String × Json) :
    byName (sortMember a) (sortMember b) = byName a b := rfl

theorem sortMembers_sort (members : List (String × Json)) :
    sortMembers (Sorting.sort byName members) = Sorting.sort byName (sortMembers members) := by
  rw [sortMembers_eq_map, sortMembers_eq_map, Sorting.sort_map byName_sortMember]

theorem sortKeys_obj (members : List (String × Json)) :
    sortKeys (.obj members) = .obj (Sorting.sort byName (sortMembers members)) := rfl

mutual

theorem sortKeys_sortKeys (v : Json) : sortKeys (sortKeys v) = sortKeys v := by
  match v with
  | .arr items => rw [sortKeys, sortKeys, sortItems_sortItems items]
  | .obj members =>
    have sorted : Sorting.Sorted byName (Sorting.sort byName (sortMembers members)) :=
      Sorting.sort_sorted byName byName_total byName_trans _
    rw [sortKeys_obj, sortKeys_obj, sortMembers_sort, sortMembers_sortMembers members,
      Sorting.sort_of_sorted byName sorted]
  | .null | .bool _ | .num _ | .str _ => rfl

theorem sortItems_sortItems (items : List Json) : sortItems (sortItems items) = sortItems items := by
  match items with
  | [] => rfl
  | item :: rest =>
    rw [sortItems, sortItems, sortKeys_sortKeys item, sortItems_sortItems rest]

theorem sortMembers_sortMembers (members : List (String × Json)) :
    sortMembers (sortMembers members) = sortMembers members := by
  match members with
  | [] => rfl
  | (name, value) :: rest =>
    rw [sortMembers, sortMembers, sortKeys_sortKeys value, sortMembers_sortMembers rest]
end

theorem depthOfMembers_perm {members others : List (String × Json)} (perm : members.Perm others) :
    depthOfMembers members = depthOfMembers others := by
  refine Nat.le_antisymm (depthOfMembers_le_iff.mpr ?_) (depthOfMembers_le_iff.mpr ?_)
  · intro member here
    exact depthOfMembers_le_iff.mp (Nat.le_refl _) member (perm.mem_iff.mp here)
  · intro member here
    exact depthOfMembers_le_iff.mp (Nat.le_refl _) member (perm.mem_iff.mpr here)

mutual

theorem depth_sortKeys (v : Json) : (sortKeys v).depth = v.depth := by
  match v with
  | .arr items => exact congrArg (· + 1) (depthOfItems_sortItems items)
  | .obj members =>
    have sorted := depthOfMembers_perm (Sorting.sort_perm byName (sortMembers members))
    exact congrArg (· + 1) (sorted.trans (depthOfMembers_sortMembers members))
  | .null | .bool _ | .num _ | .str _ => rfl

theorem depthOfItems_sortItems (items : List Json) :
    depthOfItems (sortItems items) = depthOfItems items := by
  match items with
  | [] => rfl
  | item :: rest =>
    simp only [sortItems, depthOfItems, depth_sortKeys item, depthOfItems_sortItems rest]

theorem depthOfMembers_sortMembers (members : List (String × Json)) :
    depthOfMembers (sortMembers members) = depthOfMembers members := by
  match members with
  | [] => rfl
  | (name, value) :: rest =>
    simp only [sortMembers, depthOfMembers, depth_sortKeys value, depthOfMembers_sortMembers rest]
end

/-- A test of a document that looks at no element, and at no more of an object than its names. -/
structure OfNames (test : Json → Bool) : Prop where
  lists : ∀ items items', test (.arr items) → test (.arr items')
  objects : ∀ members members', (members.map Prod.fst).Perm (members'.map Prod.fst) →
    test (.obj members) → test (.obj members')

theorem ofNames_ownNamesDiffer : OfNames ownNamesDiffer where
  lists := fun _ _ passed => passed
  objects := fun _ _ same differ =>
    decide_eq_true (same.nodup_iff.mp (of_decide_eq_true differ))

theorem ofNames_ownNumberReadsBack : OfNames ownNumberReadsBack where
  lists := fun _ _ passed => passed
  objects := fun _ _ _ passed => passed

theorem fst_sortMembers (members : List (String × Json)) :
    (sortMembers members).map Prod.fst = members.map Prod.fst := by
  simp only [sortMembers_eq_map, List.map_map]
  rfl

theorem sorted_names (members : List (String × Json)) :
    (members.map Prod.fst).Perm ((Sorting.sort byName (sortMembers members)).map Prod.fst) := by
  rw [← fst_sortMembers]
  exact ((Sorting.sort_perm byName _).map Prod.fst).symm

mutual

theorem all_sortKeys {test : Json → Bool} (ofNames : OfNames test) (v : Json)
    (passed : all test v) : all test (sortKeys v) := by
  match v with
  | .arr items =>
    simp only [sortKeys, all, Bool.and_eq_true] at passed ⊢
    exact ⟨ofNames.lists _ _ passed.1, allItems_sortItems ofNames items passed.2⟩
  | .obj members =>
    rw [sortKeys_obj]
    simp only [all, Bool.and_eq_true] at passed ⊢
    refine ⟨ofNames.objects _ _ (sorted_names members) passed.1, allMembers_iff.mpr ?_⟩
    intro member here
    exact allMembers_iff.mp (allMembers_sortMembers ofNames members passed.2) member
      ((Sorting.sort_perm byName _).mem_iff.mp here)
  | .null | .bool _ | .num _ | .str _ => exact passed

theorem allItems_sortItems {test : Json → Bool} (ofNames : OfNames test) (items : List Json)
    (passed : allItems test items) : allItems test (sortItems items) := by
  match items with
  | [] => rfl
  | item :: rest =>
    simp only [sortItems, allItems, Bool.and_eq_true] at passed ⊢
    exact ⟨all_sortKeys ofNames item passed.1, allItems_sortItems ofNames rest passed.2⟩

theorem allMembers_sortMembers {test : Json → Bool} (ofNames : OfNames test)
    (members : List (String × Json)) (passed : allMembers test members) :
    allMembers test (sortMembers members) := by
  match members with
  | [] => rfl
  | (name, value) :: rest =>
    simp only [sortMembers, allMembers, Bool.and_eq_true] at passed ⊢
    exact ⟨all_sortKeys ofNames value passed.1, allMembers_sortMembers ofNames rest passed.2⟩
end

theorem ofText_compact {v : Json} (differ : v.namesDiffer) (exact : v.numbersReadBack)
    (shallow : v.depth ≤ maxDepth) : ofText v.compact = .ok v := by
  have read := ofBytes_render_exact 0 0 differ exact shallow
  rw [ofText, compact, text, Utf8.encodeString, String.toList_ofList]
  exact read

end Json

/-- The text holds no document, or one whose numbers are read back from print. -/
def ReadsBack (definition : String) : Prop :=
  ∀ document, Json.ofText definition = .ok document → document.numbersReadBack

theorem canonicalize_of_read {definition : String} {document : Json}
    (read : Json.ofText definition = .ok document) :
    canonicalize definition = document.sortKeys.compact := by
  rw [canonicalize, read]

theorem canonicalize_of_error {definition : String} {fault : Json.SyntaxError}
    (unread : Json.ofText definition = .error fault) : canonicalize definition = definition := by
  rw [canonicalize, unread]

theorem ofText_canonicalize {definition : String} (exact : ReadsBack definition) {document : Json}
    (read : Json.ofText definition = .ok document) :
    Json.ofText (canonicalize definition) = .ok document.sortKeys := by
  obtain ⟨shallow, differ⟩ := Json.ofBytes_wellFormed read
  rw [canonicalize_of_read read]
  exact Json.ofText_compact (Json.all_sortKeys Json.ofNames_ownNamesDiffer document differ)
    (Json.all_sortKeys Json.ofNames_ownNumberReadsBack document (exact document read))
    (Nat.le_trans (Nat.le_of_eq (Json.depth_sortKeys document)) shallow)

theorem canonicalize_canonicalize {definition : String} (exact : ReadsBack definition) :
    canonicalize (canonicalize definition) = canonicalize definition := by
  cases read : Json.ofText definition with
  | error e =>
    have same := canonicalize_of_error read
    rw [same, same]
  | ok document =>
    rw [canonicalize_of_read (ofText_canonicalize exact read), Json.sortKeys_sortKeys,
      canonicalize_of_read read]

theorem Schema.normalized_normalized {schema : Schema} (exact : ReadsBack schema.definition) :
    schema.normalized.normalized = schema.normalized := by
  simp only [Schema.normalized, canonicalize_canonicalize exact]

end FramedJson
