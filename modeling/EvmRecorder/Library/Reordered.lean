import Mathlib.Tactic

/-!
# Lists up to the order of neighbours that commute

Two lists are reorderings of each other when one becomes the other by exchanging
neighbours that commute. All other elements keep their places.
-/

namespace EvmRecorder.Commuting

variable {α β : Type} {commutes : α → α → Prop} {xs ys zs xs' ys' : List α}

inductive Reordered (commutes : α → α → Prop) : List α → List α → Prop where
  | nil : Reordered commutes [] []
  | cons {xs ys : List α} (x : α) : Reordered commutes xs ys → Reordered commutes (x :: xs) (x :: ys)
  | swap {x y : α} (xs : List α) : commutes x y → Reordered commutes (x :: y :: xs) (y :: x :: xs)
  | trans {xs ys zs : List α} :
      Reordered commutes xs ys → Reordered commutes ys zs → Reordered commutes xs zs

namespace Reordered

theorem refl : ∀ xs : List α, Reordered commutes xs xs
  | [] => .nil
  | x :: xs => .cons x (refl xs)

theorem of_eq (h : xs = ys) : Reordered commutes xs ys := h ▸ refl xs

theorem symm (hsymm : ∀ x y, commutes x y → commutes y x) (h : Reordered commutes xs ys) :
    Reordered commutes ys xs := by
  induction h with
  | nil => exact .nil
  | cons x _ ih => exact .cons x ih
  | swap xs hxy => exact .swap xs (hsymm _ _ hxy)
  | trans _ _ ih ih' => exact .trans ih' ih

/-- Nothing is added or dropped. -/
theorem perm (h : Reordered commutes xs ys) : xs.Perm ys := by
  induction h with
  | nil => exact .nil
  | cons x _ ih => exact .cons x ih
  | swap xs _ => exact .swap _ _ xs
  | trans _ _ ih ih' => exact ih.trans ih'

theorem append_left (zs : List α) (h : Reordered commutes xs ys) :
    Reordered commutes (zs ++ xs) (zs ++ ys) := by
  induction zs with
  | nil => exact h
  | cons z zs ih => exact .cons z ih

theorem append_right (zs : List α) (h : Reordered commutes xs ys) :
    Reordered commutes (xs ++ zs) (ys ++ zs) := by
  induction h with
  | nil => exact refl zs
  | cons x _ ih => exact .cons x ih
  | swap xs hxy => exact .swap (xs ++ zs) hxy
  | trans _ _ ih ih' => exact .trans ih ih'

theorem append (h : Reordered commutes xs ys) (h' : Reordered commutes xs' ys') :
    Reordered commutes (xs ++ xs') (ys ++ ys') :=
  (h.append_right xs').trans (h'.append_left ys)

theorem flatMap {ι : Type} {f g : ι → List α} : ∀ {is : List ι},
    (∀ i ∈ is, Reordered commutes (f i) (g i)) → Reordered commutes (is.flatMap f) (is.flatMap g)
  | [], _ => .nil
  | i :: is, h => by
      rw [List.flatMap_cons, List.flatMap_cons]
      exact (h i List.mem_cons_self).append (flatMap fun j hj => h j (List.mem_cons_of_mem i hj))

/-- What is read off reordered lists, when what commutes is read as what commutes. -/
theorem filterMap {commutes' : β → β → Prop} {f : α → Option β}
    (hf : ∀ x y x' y', commutes x y → f x = some x' → f y = some y' → commutes' x' y')
    (h : Reordered commutes xs ys) : Reordered commutes' (xs.filterMap f) (ys.filterMap f) := by
  induction h with
  | nil => exact .nil
  | cons x _ ih =>
      rw [List.filterMap_cons, List.filterMap_cons]
      split
      · exact ih
      · exact .cons _ ih
  | @swap x y xs hxy =>
      simp only [List.filterMap_cons]
      cases hx : f x with
      | none => exact refl _
      | some x' =>
          cases hy : f y with
          | none => exact refl _
          | some y' => exact .swap _ (hf x y x' y' hxy hx hy)
  | trans _ _ ih ih' => exact .trans ih ih'

/-- Any order of elements that commute in pairs. -/
theorem of_perm (hsymm : ∀ x y, commutes x y → commutes y x) (h : xs.Perm ys)
    (hpairs : xs.Pairwise commutes) : Reordered commutes xs ys := by
  induction h with
  | nil => exact .nil
  | cons x _ ih => exact .cons x (ih (List.pairwise_cons.mp hpairs).2)
  | swap x y xs =>
      have hxy := (List.pairwise_cons.mp hpairs).1 x List.mem_cons_self
      exact .swap xs hxy
  | trans hperm _ ih ih' =>
      exact (ih hpairs).trans (ih' (hpairs.perm hperm fun h => hsymm _ _ h))

end Reordered

end EvmRecorder.Commuting
