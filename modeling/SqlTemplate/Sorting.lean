/-!
A stable sort.
-/

namespace SqlTemplate

variable {α : Type}

/-- Puts `x` in front of the first element that need not stand before it. -/
def insertSorted (le : α → α → Bool) (x : α) : List α → List α
  | [] => [x]
  | y :: ys => if le x y then x :: y :: ys else y :: insertSorted le x ys

/-- The elements in the order of `le`. Those that `le` holds equal keep the order they had. -/
def sortStable (le : α → α → Bool) : List α → List α
  | [] => []
  | x :: xs => insertSorted le x (sortStable le xs)

theorem insertSorted_perm (le : α → α → Bool) (x : α) (xs : List α) :
    (insertSorted le x xs).Perm (x :: xs) := by
  induction xs with
  | nil => exact .refl _
  | cons y ys ih =>
    simp only [insertSorted]
    split
    · exact .refl _
    · exact (List.Perm.cons y ih).trans (List.Perm.swap x y ys)

theorem sortStable_perm (le : α → α → Bool) (xs : List α) : (sortStable le xs).Perm xs := by
  induction xs with
  | nil => exact .refl _
  | cons x xs ih => exact (insertSorted_perm le x _).trans (List.Perm.cons x ih)

theorem insertSorted_pairwise {le : α → α → Bool} (htotal : ∀ x y, le x y = false → le y x = true)
    (htrans : ∀ x y z, le x y = true → le y z = true → le x z = true) (x : α) {xs : List α}
    (hxs : xs.Pairwise fun y z => le y z = true) :
    (insertSorted le x xs).Pairwise fun y z => le y z = true := by
  induction xs with
  | nil => exact List.pairwise_singleton _ x
  | cons y ys ih =>
    obtain ⟨hy, hys⟩ := List.pairwise_cons.mp hxs
    rw [insertSorted]
    split
    · next hxy =>
      refine List.pairwise_cons.mpr ⟨fun z hz => ?_, hxs⟩
      obtain rfl | hz := List.mem_cons.mp hz
      · exact hxy
      · exact htrans x y z hxy (hy z hz)
    · next hxy =>
      refine List.pairwise_cons.mpr ⟨fun z hz => ?_, ih hys⟩
      obtain rfl | hz := List.mem_cons.mp ((insertSorted_perm le x ys).mem_iff.mp hz)
      · exact htotal z y (Bool.eq_false_iff.mpr hxy)
      · exact hy z hz

theorem sortStable_pairwise {le : α → α → Bool} (htotal : ∀ x y, le x y = false → le y x = true)
    (htrans : ∀ x y z, le x y = true → le y z = true → le x z = true) (xs : List α) :
    (sortStable le xs).Pairwise fun x y => le x y = true := by
  induction xs with
  | nil => exact .nil
  | cons x xs ih => exact insertSorted_pairwise htotal htrans x ih

end SqlTemplate
