/-!
Finite maps as lists of pairs in the order in which their keys first came. Writing to a key
that is present keeps its place and replaces its value.
-/
namespace FramedJson.Assoc

variable {κ : Type u} {β : Type v} [DecidableEq κ]

def find? (key : κ) : List (κ × β) → Option β
  | [] => none
  | (k, value) :: rest => if k = key then some value else find? key rest

def put (key : κ) (value : β) : List (κ × β) → List (κ × β)
  | [] => [(key, value)]
  | (k, old) :: rest => if k = key then (k, value) :: rest else (k, old) :: put key value rest

def ofWrites (writes : List (κ × β)) : List (κ × β) :=
  writes.foldl (fun map write => put write.1 write.2 map) []

@[simp] theorem find?_put (key other : κ) (value : β) (map : List (κ × β)) :
    find? other (put key value map) = if key = other then some value else find? other map := by
  induction map with
  | nil => simp [put, find?]
  | cons entry rest ih =>
    obtain ⟨k, old⟩ := entry
    by_cases hk : k = key
    · subst hk
      by_cases ho : k = other <;> simp [put, find?, ho]
    · by_cases ho : k = other
      · subst ho
        simp [put, find?, hk, Ne.symm hk]
      · simp [put, find?, hk, ho, ih]

theorem find?_snoc (key other : κ) (value : β) (map : List (κ × β)) :
    find? other (map ++ [(key, value)]) =
      (find? other map).or (if key = other then some value else none) := by
  induction map with
  | nil => rfl
  | cons entry rest ih =>
    obtain ⟨k, old⟩ := entry
    by_cases here : k = other
    · simp [find?, here]
    · simp [find?, here, ih]

theorem absent_of_find? {key : κ} {map : List (κ × β)} (missing : find? key map = none) :
    key ∉ map.map Prod.fst := by
  induction map with
  | nil => exact List.not_mem_nil
  | cons entry rest ih =>
    obtain ⟨k, old⟩ := entry
    unfold find? at missing
    split at missing
    · cases missing
    · rename_i differ
      rw [List.map_cons, List.mem_cons, not_or]
      exact ⟨Ne.symm differ, ih missing⟩

theorem mem_of_find? {key : κ} {value : β} {map : List (κ × β)}
    (found : find? key map = some value) : (key, value) ∈ map := by
  induction map with
  | nil => cases found
  | cons entry rest ih =>
    obtain ⟨k, old⟩ := entry
    unfold find? at found
    split at found
    · rename_i same
      cases found
      rw [same]
      exact List.mem_cons_self
    · exact List.mem_cons_of_mem _ (ih found)

theorem find?_of_mem {key : κ} {value : β} {map : List (κ × β)} (differ : (map.map Prod.fst).Nodup)
    (member : (key, value) ∈ map) : find? key map = some value := by
  induction map with
  | nil => cases member
  | cons entry rest ih =>
    obtain ⟨k, old⟩ := entry
    rw [List.map_cons, List.nodup_cons] at differ
    rcases List.mem_cons.mp member with here | later
    · cases here
      simp [find?]
    · have other : k ≠ key := by
        rintro rfl
        exact differ.1 (List.mem_map.mpr ⟨(k, value), later, rfl⟩)
      simp only [find?, if_neg other]
      exact ih differ.2 later

theorem find?_perm {map other : List (κ × β)} (differ : (map.map Prod.fst).Nodup)
    (perm : map.Perm other) (key : κ) : find? key map = find? key other := by
  have differ' : (other.map Prod.fst).Nodup := (perm.map Prod.fst).nodup_iff.mp differ
  refine Option.ext fun value => ⟨fun found => ?_, fun found => ?_⟩
  · exact find?_of_mem differ' (perm.mem_iff.mp (mem_of_find? found))
  · exact find?_of_mem differ (perm.mem_iff.mpr (mem_of_find? found))

theorem put_of_absent {key : κ} {map : List (κ × β)} (absent : key ∉ map.map Prod.fst) (value : β) :
    put key value map = map ++ [(key, value)] := by
  induction map with
  | nil => rfl
  | cons entry rest ih =>
    obtain ⟨k, old⟩ := entry
    simp only [List.map_cons, List.mem_cons, not_or] at absent
    rw [put, if_neg (Ne.symm absent.1), ih absent.2, List.cons_append]

theorem foldl_put_of_nodup (writes map : List (κ × β))
    (differ : ((map ++ writes).map Prod.fst).Nodup) :
    writes.foldl (fun map write => put write.1 write.2 map) map = map ++ writes := by
  induction writes generalizing map with
  | nil => exact (List.append_nil map).symm
  | cons write rest ih =>
    have absent : write.1 ∉ map.map Prod.fst := by
      intro member
      rw [List.map_append, List.nodup_append] at differ
      exact differ.2.2 _ member _ List.mem_cons_self rfl
    rw [List.append_cons] at differ
    rw [List.foldl_cons, put_of_absent absent, List.append_cons map write rest]
    exact ih _ differ

theorem ofWrites_of_nodup {writes : List (κ × β)} (differ : (writes.map Prod.fst).Nodup) :
    ofWrites writes = writes :=
  foldl_put_of_nodup writes [] differ

theorem mem_put {key : κ} {value : β} {map : List (κ × β)} {entry : κ × β}
    (member : entry ∈ put key value map) : entry = (key, value) ∨ entry ∈ map := by
  induction map with
  | nil => exact .inl (List.mem_singleton.mp member)
  | cons first rest ih =>
    obtain ⟨k, old⟩ := first
    by_cases same : k = key
    · subst same
      simp only [put, if_true, List.mem_cons] at member ⊢
      exact member.imp_right .inr
    · simp only [put, if_neg same, List.mem_cons] at member ⊢
      rcases member with here | later
      · exact .inr (.inl here)
      · exact (ih later).imp_right .inr

theorem mem_ofWrites {writes : List (κ × β)} {entry : κ × β} (member : entry ∈ ofWrites writes) :
    entry ∈ writes := by
  have kept : ∀ map : List (κ × β),
      entry ∈ writes.foldl (fun map write => put write.1 write.2 map) map →
        entry ∈ writes ∨ entry ∈ map := by
    clear member
    induction writes with
    | nil => exact fun map here => .inr here
    | cons write rest ih =>
      intro map here
      rcases ih (put write.1 write.2 map) here with later | put
      · exact .inl (List.mem_cons_of_mem write later)
      · rcases mem_put put with rfl | earlier
        · exact .inl List.mem_cons_self
        · exact .inr earlier
  exact (kept [] member).resolve_right List.not_mem_nil

theorem nodup_put (key : κ) (value : β) {map : List (κ × β)} (differ : (map.map Prod.fst).Nodup) :
    ((put key value map).map Prod.fst).Nodup := by
  induction map with
  | nil => exact List.pairwise_singleton _ _
  | cons first rest ih =>
    obtain ⟨k, old⟩ := first
    rw [List.map_cons, List.nodup_cons] at differ
    by_cases same : k = key
    · simp only [put, if_pos same, List.map_cons, List.nodup_cons]
      exact differ
    · simp only [put, if_neg same, List.map_cons, List.nodup_cons]
      refine ⟨?_, ih differ.2⟩
      intro again
      obtain ⟨entry, member, here⟩ := List.mem_map.mp again
      rcases mem_put member with rfl | earlier
      · exact same here.symm
      · exact differ.1 (List.mem_map.mpr ⟨entry, earlier, here⟩)

theorem nodup_ofWrites (writes : List (κ × β)) : ((ofWrites writes).map Prod.fst).Nodup := by
  have kept : ∀ map : List (κ × β), (map.map Prod.fst).Nodup →
      ((writes.foldl (fun map write => put write.1 write.2 map) map).map Prod.fst).Nodup := by
    induction writes with
    | nil => exact fun map differ => differ
    | cons write rest ih => exact fun map differ => ih _ (nodup_put write.1 write.2 differ)
  exact kept [] List.nodup_nil

end FramedJson.Assoc
