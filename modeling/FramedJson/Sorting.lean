namespace FramedJson.Sorting

variable {α : Type u} (le : α → α → Bool)

def insert (x : α) : List α → List α
  | [] => [x]
  | y :: rest => if le x y then x :: y :: rest else y :: insert x rest

def sort : List α → List α
  | [] => []
  | x :: rest => insert le x (sort rest)

theorem insert_perm (x : α) (xs : List α) : (insert le x xs).Perm (x :: xs) := by
  induction xs with
  | nil => exact List.Perm.refl _
  | cons y rest ih =>
    by_cases h : le x y
    · simp [insert, h]
    · simp only [insert, h]
      exact (ih.cons y).trans (List.Perm.swap x y rest)

theorem sort_perm (xs : List α) : (sort le xs).Perm xs := by
  induction xs with
  | nil => exact List.Perm.refl _
  | cons x rest ih => exact (insert_perm le x _).trans (ih.cons x)

def Sorted (xs : List α) : Prop := xs.Pairwise fun a b => le a b = true

theorem insert_sorted (total : ∀ a b, le a b = true ∨ le b a = true)
    (trans : ∀ a b c, le a b = true → le b c = true → le a c = true) (x : α) {xs : List α}
    (sorted : Sorted le xs) : Sorted le (insert le x xs) := by
  induction xs with
  | nil => exact List.pairwise_singleton _ _
  | cons y rest ih =>
    obtain ⟨least, ordered⟩ := List.pairwise_cons.mp sorted
    by_cases h : le x y
    · simp only [insert, h, if_true]
      refine List.pairwise_cons.mpr ⟨?_, sorted⟩
      intro z member
      rcases List.mem_cons.mp member with rfl | later
      · exact h
      · exact trans x y z h (least z later)
    · simp only [insert, h]
      refine List.pairwise_cons.mpr ⟨?_, ih ordered⟩
      intro z member
      rcases List.mem_cons.mp ((insert_perm le x rest).mem_iff.mp member) with rfl | later
      · exact (total z y).resolve_left h
      · exact least z later

theorem sort_sorted (total : ∀ a b, le a b = true ∨ le b a = true)
    (trans : ∀ a b c, le a b = true → le b c = true → le a c = true) (xs : List α) :
    Sorted le (sort le xs) := by
  induction xs with
  | nil => exact List.Pairwise.nil
  | cons x rest ih => exact insert_sorted le total trans x ih

theorem sort_of_sorted {xs : List α} (sorted : Sorted le xs) : sort le xs = xs := by
  induction xs with
  | nil => rfl
  | cons x rest ih =>
    obtain ⟨least, ordered⟩ := List.pairwise_cons.mp sorted
    rw [sort, ih ordered]
    cases rest with
    | nil => rfl
    | cons y rest => simp [insert, least y List.mem_cons_self]

/-- In whatever order the elements come, they are sorted in one way. -/
theorem sort_eq_of_perm (total : ∀ a b, le a b = true ∨ le b a = true)
    (trans : ∀ a b c, le a b = true → le b c = true → le a c = true) {xs ys : List α}
    (antisymm : ∀ a ∈ xs, ∀ b ∈ xs, le a b = true → le b a = true → a = b) (perm : xs.Perm ys) :
    sort le xs = sort le ys := by
  refine List.Perm.eq_of_pairwise ?_ (sort_sorted le total trans xs) (sort_sorted le total trans ys)
    ((sort_perm le xs).trans (perm.trans (sort_perm le ys).symm))
  intro a b first second
  exact antisymm a ((sort_perm le xs).mem_iff.mp first) b
    (perm.mem_iff.mpr ((sort_perm le ys).mem_iff.mp second))

section Map

variable {le} {β : Type v} {le' : β → β → Bool} {f : α → β}
  (keeps : ∀ a b, le' (f a) (f b) = le a b)
include keeps

theorem insert_map (x : α) (xs : List α) :
    insert le' (f x) (xs.map f) = (insert le x xs).map f := by
  induction xs with
  | nil => rfl
  | cons y rest ih => by_cases h : le x y <;> simp [insert, keeps, h, ih]

theorem sort_map (xs : List α) : sort le' (xs.map f) = (sort le xs).map f := by
  induction xs with
  | nil => rfl
  | cons x rest ih => rw [List.map_cons, sort, ih, insert_map keeps, sort]

end Map

end FramedJson.Sorting
