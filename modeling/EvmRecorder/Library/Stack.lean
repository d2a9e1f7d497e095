import Mathlib.Data.List.Forall2
import Mathlib.Tactic

/-!
# Stacks stored bottom to top

A stack kept in a vector, top at the end: truncation, exchange with the top,
and the topmost element that satisfies a predicate. Two such stacks that are
related slot by slot stay related when both are transformed alike.
-/

namespace EvmRecorder.Stack

variable {α β : Type}

/-! ## §1  Operations -/

/-- Truncation to the length less `n`, saturating at empty. -/
def popN (xs : List α) (n : Nat) : List α := xs.take (xs.length - n)

/-- Exchange the top with the element `n` below it; nothing when there is
none. -/
def swapTop (xs : List α) (n : Nat) : List α :=
  match xs[xs.length - 1]?, xs[xs.length - 1 - n]? with
  | some top, some below =>
      if n < xs.length then (xs.set (xs.length - 1) below).set (xs.length - 1 - n) top else xs
  | _, _ => xs

/-- Position of the last element that satisfies `p`. -/
def rposition (p : α → Bool) (xs : List α) : Option Nat :=
  (xs.reverse.findIdx? p).map fun i => xs.length - 1 - i

/-! ## §2  The operations on a split stack -/

@[simp] theorem popN_append (xs args : List α) : popN (xs ++ args) args.length = xs := by
  simp [popN]

theorem swapTop_append (xs ys : List α) (below top : α) :
    swapTop (xs ++ below :: (ys ++ [top])) (ys.length + 1) = xs ++ top :: (ys ++ [below]) := by
  have hlen : (xs ++ below :: (ys ++ [top])).length = xs.length + (ys.length + 2) := by simp
  have htop : (xs ++ below :: (ys ++ [top]))[xs.length + (ys.length + 2) - 1]? = some top := by
    rw [List.getElem?_append_right (by omega),
      show xs.length + (ys.length + 2) - 1 - xs.length = ys.length + 1 by omega]
    simp
  have hbelow : (xs ++ below :: (ys ++ [top]))[xs.length + (ys.length + 2) - 1 -
      (ys.length + 1)]? = some below := by
    rw [show xs.length + (ys.length + 2) - 1 - (ys.length + 1) = xs.length by omega]
    simp
  unfold swapTop
  simp only [hlen, htop, hbelow]
  rw [if_pos (by omega), List.set_append_right _ _ (by omega),
    show xs.length + (ys.length + 2) - 1 - xs.length = ys.length + 1 by omega,
    show xs.length + (ys.length + 2) - 1 - (ys.length + 1) = xs.length by omega,
    List.set_append_right _ _ (Nat.le_refl _)]
  simp

theorem length_popN (xs : List α) (n : Nat) : (popN xs n).length = xs.length - n := by
  simp [popN]

theorem length_swapTop (xs : List α) (n : Nat) : (swapTop xs n).length = xs.length := by
  unfold swapTop
  split
  · split
    · simp
    · rfl
  · rfl

/-- What is below the removed elements stays. -/
theorem take_popN {xs : List α} {n base : Nat} (h : base + n ≤ xs.length) :
    (popN xs n).take base = xs.take base := by
  rw [popN, List.take_take, Nat.min_eq_left (by omega)]

/-- What is below the exchanged elements stays. -/
theorem take_swapTop {xs : List α} {n base : Nat} (h : base + (n + 1) ≤ xs.length) :
    (swapTop xs n).take base = xs.take base := by
  unfold swapTop
  split
  · split
    · rw [List.take_set_of_le (by omega), List.take_set_of_le (by omega)]
    · rfl
  · rfl

/-- Where the elements come from. -/
theorem exists_of_getElem?_swapTop {xs : List α} {n i : Nat} {x : α} (hn : n < xs.length)
    (h : (swapTop xs n)[i]? = some x) : ∃ j, xs[j]? = some x ∧
      ((j + 1 = xs.length ∧ i + n + 1 = xs.length) ∨ (j + n + 1 = xs.length ∧ i + 1 = xs.length) ∨
        (j + 1 ≠ xs.length ∧ j + n + 1 ≠ xs.length ∧ i = j)) := by
  have htop : xs[xs.length - 1]? = some xs[xs.length - 1] := List.getElem?_eq_getElem (by omega)
  have hbelow : xs[xs.length - 1 - n]? = some xs[xs.length - 1 - n] :=
    List.getElem?_eq_getElem (by omega)
  unfold swapTop at h
  rw [htop, hbelow] at h
  dsimp only at h
  rw [if_pos hn] at h
  by_cases hlow : xs.length - 1 - n = i
  · subst hlow
    rw [List.getElem?_set_self (by rw [List.length_set]; omega)] at h
    exact ⟨xs.length - 1, htop.trans h, .inl ⟨by omega, by omega⟩⟩
  rw [List.getElem?_set_ne hlow] at h
  by_cases hhigh : xs.length - 1 = i
  · subst hhigh
    rw [List.getElem?_set_self (by omega)] at h
    exact ⟨xs.length - 1 - n, hbelow.trans h, .inr (.inl ⟨by omega, by omega⟩)⟩
  · rw [List.getElem?_set_ne hhigh] at h
    have hi : i < xs.length := (List.getElem?_eq_some_iff.mp h).1
    exact ⟨i, h, .inr (.inr ⟨by omega, by omega, rfl⟩)⟩

theorem exists_snoc_of_take {xs ys : List α} (h : xs.take ys.length = ys)
    (hlen : xs.length = ys.length + 1) : ∃ x, xs = ys ++ [x] := by
  have hdrop : (xs.drop ys.length).length = 1 := by
    rw [List.length_drop, hlen, Nat.add_sub_cancel_left]
  obtain ⟨x, hx⟩ := List.length_eq_one_iff.mp hdrop
  refine ⟨x, ?_⟩
  calc xs
    _ = xs.take ys.length ++ xs.drop ys.length := (List.take_append_drop ys.length xs).symm
    _ = ys ++ [x] := by rw [h, hx]

/-! ## §3  Topmost element -/

theorem rposition_eq_some {p : α → Bool} {xs : List α} {pos : Nat}
    (h : rposition p xs = some pos) : ∃ x, xs[pos]? = some x ∧ p x = true := by
  obtain ⟨i, hi, rfl⟩ := Option.map_eq_some_iff.mp h
  obtain ⟨hlt, hp, -⟩ := List.findIdx?_eq_some_iff_getElem.mp hi
  rw [List.length_reverse] at hlt
  refine ⟨xs[xs.length - 1 - i], List.getElem?_eq_getElem (by omega), ?_⟩
  rwa [List.getElem_reverse] at hp

/-- An element that satisfies `p` below elements that do not. -/
theorem rposition_append_cons {p : α → Bool} {xs ys : List α} {x : α} (hx : p x = true)
    (hys : ∀ y ∈ ys, p y = false) : rposition p (xs ++ x :: ys) = some xs.length := by
  have hfind : (xs ++ x :: ys).reverse.findIdx? p = some ys.length := by
    rw [List.reverse_append, List.reverse_cons, List.append_assoc, List.findIdx?_append,
      List.findIdx?_eq_none_iff.mpr fun y hy => hys y (List.mem_reverse.mp hy)]
    simp [List.findIdx?_cons, hx]
  rw [rposition, hfind]
  simp

/-! ## §4  Stacks related slot by slot -/

section Related

variable {R : α → β → Prop}

/-- A split of one side splits the other. -/
theorem exists_append_of_forall₂ {xs : List α} {ys zs : List β}
    (h : List.Forall₂ R xs (ys ++ zs)) :
    ∃ us vs, xs = us ++ vs ∧ List.Forall₂ R us ys ∧ List.Forall₂ R vs zs :=
  ⟨xs.take ys.length, xs.drop ys.length, (List.take_append_drop _ _).symm,
    List.forall₂_take_append _ _ _ h, List.forall₂_drop_append _ _ _ h⟩

theorem getElem?_of_forall₂ {xs : List α} {ys : List β} (h : List.Forall₂ R xs ys) {i : Nat}
    {x : α} (hx : xs[i]? = some x) : ∃ y, ys[i]? = some y ∧ R x y := by
  induction h generalizing i with
  | nil => simp at hx
  | cons hR _ ih =>
      cases i with
      | zero =>
          simp only [List.getElem?_cons_zero, Option.some.injEq] at hx ⊢
          exact ⟨_, rfl, hx ▸ hR⟩
      | succ i =>
          simp only [List.getElem?_cons_succ] at hx ⊢
          exact ih hx

theorem mapM_of_forall₂ {f : α → Option β} {xs : List α} {ys : List β}
    (h : List.Forall₂ (fun x y => f x = some y) xs ys) : xs.mapM f = some ys := by
  induction h with
  | nil => rfl
  | cons hx _ ih => simp only [List.mapM_cons, hx, ih, Option.bind_eq_bind, Option.bind_some,
      Option.pure_def]

/-- Blocks read one by one are the blocks read together. -/
theorem flatMap_of_mapM {γ : Type} {f : α → Option (List γ)} : ∀ {xs : List α} {blocks},
    xs.mapM f = some blocks → xs.flatMap (fun x => (f x).toList.flatten) = blocks.flatten
  | [], blocks, h => by
      obtain rfl : [] = blocks := Option.some.inj h
      rfl
  | x :: xs, blocks, h => by
      obtain ⟨block, hx, h⟩ := Option.bind_eq_some_iff.mp ((List.mapM_cons ..).symm.trans h)
      obtain ⟨rest, hxs, h⟩ := Option.bind_eq_some_iff.mp h
      obtain rfl : block :: rest = blocks := Option.some.inj h
      rw [List.flatMap_cons, flatMap_of_mapM hxs, hx]
      simp

theorem filterMap_of_forall₂ {γ : Type} {f : β → Option γ} {g : α → γ} {xs : List α} {ys : List β}
    (h : List.Forall₂ (fun x y => f y = some (g x)) xs ys) : ys.filterMap f = xs.map g := by
  induction h with
  | nil => rfl
  | cons hxy _ ih => rw [List.filterMap_cons_some hxy, ih, List.map_cons]

end Related

end EvmRecorder.Stack
