import EvmRecorder.Library.Stack

/-!
# Per-depth containers

A vector with one entry per open level, index `depth - 1` for level `depth`:
entering deeper levels pushes fresh entries, leaving levels pops theirs, and the
entries of the other levels are untouched.
-/

namespace EvmRecorder.Levels

open Stack

variable {α β : Type}

/-- `while xs.len() < n { xs.push(x) }`. -/
def growTo (n : Nat) (x : α) (xs : List α) : List α := xs ++ List.replicate (n - xs.length) x

/-- The entries of the first `d` levels, fresh where a level is new. -/
def resize (d : Nat) (x : α) (xs : List α) : List α := growTo d x (xs.take d)

/-- The entry of the current level, level `d`. -/
def atLevel (d : Nat) (x : α) (xs : List α) : α := xs[d - 1]?.getD x

/-- Replace the entry of level `d`. -/
def setLevel (d : Nat) (x : α) (xs : List α) : List α := xs.set (d - 1) x

theorem length_growTo (n : Nat) (x : α) (xs : List α) :
    (growTo n x xs).length = max n xs.length := by
  simp only [growTo, List.length_append, List.length_replicate]
  omega

theorem growTo_of_le {n : Nat} {x : α} {xs : List α} (h : n ≤ xs.length) : growTo n x xs = xs := by
  simp [growTo, Nat.sub_eq_zero_of_le h]

@[simp] theorem length_resize (d : Nat) (x : α) (xs : List α) : (resize d x xs).length = d := by
  rw [resize, length_growTo, List.length_take]
  omega

@[simp] theorem length_setLevel (d : Nat) (x : α) (xs : List α) :
    (setLevel d x xs).length = xs.length := List.length_set

theorem resize_of_length {d : Nat} {x : α} {xs : List α} (h : xs.length = d) :
    resize d x xs = xs := by
  rw [resize, List.take_of_length_le (Nat.le_of_eq h), growTo_of_le (Nat.le_of_eq h.symm)]

/-- Popping one entry per closed level and growing again is a resize. -/
theorem growTo_popN {p d : Nat} {x : α} {xs : List α} (h : xs.length = p) :
    growTo d x (popN xs (p - d)) = resize d x xs := by
  subst h
  rw [resize, popN]
  by_cases hd : d ≤ xs.length
  · rw [Nat.sub_sub_self hd]
  · rw [Nat.sub_eq_zero_of_le (Nat.le_of_not_le hd), Nat.sub_zero, List.take_length,
      List.take_of_length_le (Nat.le_of_not_le hd)]

theorem growTo_eq_resize {d : Nat} {x : α} {xs : List α} (h : xs.length ≤ d) :
    growTo d x xs = resize d x xs := by
  rw [resize, List.take_of_length_le h]

/-- An existing level keeps its entry. -/
theorem getElem?_resize_of_lt {d i : Nat} {x : α} {xs : List α} (hd : i < d)
    (hi : i < xs.length) : (resize d x xs)[i]? = xs[i]? := by
  rw [resize, growTo, List.getElem?_append_left (by rw [List.length_take]; omega),
    List.getElem?_take_of_lt hd]

/-- A new level has a fresh entry. -/
theorem getElem?_resize_of_ge {d i : Nat} {x : α} {xs : List α} (hd : i < d)
    (hi : xs.length ≤ i) : (resize d x xs)[i]? = some x := by
  rw [resize, growTo, List.take_of_length_le (by omega), List.getElem?_append_right hi,
    List.getElem?_replicate, if_pos (by omega)]

/-- After a resize a level has the entry it had, or a fresh one. -/
theorem getElem?_of_resize {d i : Nat} {x y : α} {xs : List α}
    (h : (resize d x xs)[i]? = some y) : i < d ∧ (xs[i]? = some y ∨ y = x) := by
  have hi : i < d := by
    have hlt := (List.getElem?_eq_some_iff.mp h).1
    rwa [length_resize] at hlt
  refine ⟨hi, ?_⟩
  rcases Nat.lt_or_ge i xs.length with hlt | hge
  · rw [getElem?_resize_of_lt hi hlt] at h
    exact .inl h
  · rw [getElem?_resize_of_ge hi hge] at h
    exact .inr (Option.some.inj h).symm

theorem getElem?_setLevel_self {d : Nat} {x : α} {xs : List α} (hpos : 0 < d)
    (hd : d ≤ xs.length) : (setLevel d x xs)[d - 1]? = some x := by
  rw [setLevel, List.getElem?_set_self (by omega)]

theorem getElem?_setLevel_ne {d i : Nat} {x : α} {xs : List α} (h : i ≠ d - 1) :
    (setLevel d x xs)[i]? = xs[i]? :=
  List.getElem?_set_ne (Ne.symm h)

theorem setLevel_setLevel (d : Nat) (x y : α) (xs : List α) :
    setLevel d x (setLevel d y xs) = setLevel d x xs := by
  simp [setLevel]

/-- The entry of the current level, fresh when the level is new. -/
theorem atLevel_resize {d : Nat} (hd : 1 ≤ d) (x : α) (xs : List α) :
    atLevel d x (resize d x xs) = atLevel d x xs := by
  have hlt : d - 1 < d := Nat.sub_lt hd Nat.one_pos
  unfold atLevel
  rcases Nat.lt_or_ge (d - 1) xs.length with h | h
  · rw [getElem?_resize_of_lt hlt h]
  · rw [getElem?_resize_of_ge hlt h, List.getElem?_eq_none h]
    rfl

/-- A resize keeps the levels that stay open. -/
theorem take_resize {l d : Nat} {x : α} {xs : List α} (hd : l ≤ d) (hl : l ≤ xs.length) :
    (resize d x xs).take l = xs.take l := by
  have htake : l ≤ (xs.take d).length := by
    rw [List.length_take]
    exact Nat.le_min.mpr ⟨hd, hl⟩
  rw [resize, growTo, List.take_append_of_le_length htake, List.take_take, Nat.min_eq_left hd]

/-- Entering one level pushes one entry. -/
theorem append_eq_resize {d : Nat} {x : α} {xs : List α} (h : d = xs.length + 1) :
    xs ++ [x] = resize d x xs := by
  subst h
  rw [resize, growTo, List.take_of_length_le (Nat.le_succ _), Nat.add_sub_cancel_left]
  rfl

/-- Leaving levels pops their entries. -/
theorem popN_eq_resize {d : Nat} {x : α} {xs : List α} (h : d ≤ xs.length) :
    popN xs (xs.length - d) = resize d x xs := by
  rw [resize, growTo, popN, Nat.sub_sub_self h, List.length_take, Nat.min_eq_left h, Nat.sub_self,
    List.replicate_zero, List.append_nil]

theorem atLevel_resize_of_le {l d : Nat} {x : α} {xs : List α} (hpos : 1 ≤ l) (hd : l ≤ d)
    (hl : l ≤ xs.length) : atLevel l x (resize d x xs) = atLevel l x xs := by
  unfold atLevel
  rw [getElem?_resize_of_lt (by omega) (by omega)]

/-- A level just entered is fresh. -/
theorem atLevel_resize_new {d : Nat} {x : α} {xs : List α} (hd : xs.length < d) :
    atLevel d x (resize d x xs) = x := by
  unfold atLevel
  rw [getElem?_resize_of_ge (by omega) (by omega)]
  rfl

theorem atLevel_setLevel_self {d : Nat} {x y : α} {xs : List α} (hpos : 1 ≤ d)
    (hd : d ≤ xs.length) : atLevel d y (setLevel d x xs) = x := by
  unfold atLevel
  rw [getElem?_setLevel_self hpos hd]
  rfl

theorem atLevel_setLevel_ne {l d : Nat} {x y : α} {xs : List α} (hl : 1 ≤ l) (hne : l < d) :
    atLevel l y (setLevel d x xs) = atLevel l y xs := by
  unfold atLevel
  rw [getElem?_setLevel_ne (by omega)]

/-! ## The levels above one -/

theorem drop_resize {l d : Nat} {x : α} {xs : List α} (hd : l ≤ d) (hl : l ≤ xs.length) :
    (resize d x xs).drop l = resize (d - l) x (xs.drop l) := by
  rw [resize, resize, growTo, growTo, List.drop_append_of_le_length, List.drop_take,
    List.length_take, List.length_take, List.length_drop]
  · congr 2
    omega
  · rw [List.length_take]
    exact Nat.le_min.mpr ⟨hd, hl⟩

theorem atLevel_drop {l d : Nat} (hd : l < d) (x : α) (xs : List α) :
    atLevel (d - l) x (xs.drop l) = atLevel d x xs := by
  rw [atLevel, atLevel, List.getElem?_drop, show l + (d - l - 1) = d - 1 by omega]

theorem drop_setLevel {l d : Nat} (hd : l < d) (x : α) (xs : List α) :
    (setLevel d x xs).drop l = setLevel (d - l) x (xs.drop l) := by
  rw [setLevel, setLevel, List.drop_set, if_neg (by omega), show d - 1 - l = d - l - 1 by omega]

/-- Containers that agree above a level are still alike there when both are changed
at a level above. -/
theorem drop_setLevel_congr {l d : Nat} (hd : l < d) {x y : α} {xs ys : List α} (hxy : x = y)
    (h : xs.drop l = ys.drop l) : (setLevel d x xs).drop l = (setLevel d y ys).drop l := by
  rw [drop_setLevel hd, drop_setLevel hd, hxy, h]

theorem atLevel_congr_drop {l d : Nat} (hd : l < d) (x : α) {xs ys : List α}
    (h : xs.drop l = ys.drop l) : atLevel d x xs = atLevel d x ys := by
  rw [← atLevel_drop hd, h, atLevel_drop hd]

theorem drop_resize_congr {l d : Nat} (hd : l ≤ d) {x y : α} {xs ys : List α}
    (hxs : l ≤ xs.length) (hys : l ≤ ys.length) (hxy : xs.length < d → x = y)
    (h : xs.drop l = ys.drop l) : (resize d x xs).drop l = (resize d y ys).drop l := by
  rw [drop_resize hd hxs, drop_resize hd hys, ← h]
  rcases Nat.lt_or_ge xs.length d with hnew | hold
  · rw [hxy hnew]
  · have hle : d - l ≤ ((xs.drop l).take (d - l)).length := by
      rw [List.length_take, List.length_drop]
      omega
    rw [resize, resize, growTo_of_le hle, growTo_of_le hle]

/-! ## Containers related level by level -/

section Related

variable {R : α → β → Prop}

theorem forall₂_replicate {x : α} {y : β} (h : R x y) :
    ∀ n, List.Forall₂ R (List.replicate n x) (List.replicate n y)
  | 0 => .nil
  | n + 1 => .cons h (forall₂_replicate h n)

theorem forall₂_growTo {x : α} {y : β} {xs : List α} {ys : List β} (n : Nat) (hfresh : R x y)
    (h : List.Forall₂ R xs ys) : List.Forall₂ R (growTo n x xs) (growTo n y ys) := by
  rw [growTo, growTo, h.length_eq]
  exact List.rel_append h (forall₂_replicate hfresh _)

theorem forall₂_resize {x : α} {y : β} {xs : List α} {ys : List β} (d : Nat) (hfresh : R x y)
    (h : List.Forall₂ R xs ys) : List.Forall₂ R (resize d x xs) (resize d y ys) :=
  forall₂_growTo d hfresh (List.forall₂_take d h)

/-- Where no level is new, the fresh entries need not be related. -/
theorem forall₂_resize_of {x : α} {y : β} {xs : List α} {ys : List β} (d : Nat)
    (hfresh : xs.length < d → R x y) (h : List.Forall₂ R xs ys) :
    List.Forall₂ R (resize d x xs) (resize d y ys) := by
  rcases Nat.lt_or_ge xs.length d with hnew | hold
  · exact forall₂_resize d (hfresh hnew) h
  · have htake : ∀ {γ : Type} (z : γ) (zs : List γ), d ≤ zs.length → resize d z zs = zs.take d := by
      intro γ z zs hle
      rw [resize, growTo_of_le (by rw [List.length_take]; omega)]
    rw [htake x xs hold, htake y ys (h.length_eq ▸ hold)]
    exact List.forall₂_take d h

theorem exists_getLast?_of_forall₂ {xs : List α} {ys : List β} (h : List.Forall₂ R xs ys)
    (hne : xs ≠ []) : ∃ x y, xs.getLast? = some x ∧ ys.getLast? = some y ∧ R x y := by
  induction h with
  | nil => exact absurd rfl hne
  | cons hR hrest ih =>
      cases hrest with
      | nil => exact ⟨_, _, rfl, rfl, hR⟩
      | cons hR' hrest =>
          obtain ⟨x, y, hx, hy, hxy⟩ := ih (List.cons_ne_nil _ _)
          exact ⟨x, y, by rw [List.getLast?_cons_cons, hx], by rw [List.getLast?_cons_cons, hy], hxy⟩

theorem rel_atLevel {x : α} {y : β} {xs : List α} {ys : List β} (d : Nat) (hfresh : R x y)
    (h : List.Forall₂ R xs ys) : R (atLevel d x xs) (atLevel d y ys) := by
  unfold atLevel
  generalize d - 1 = i
  induction h generalizing i with
  | nil => exact hfresh
  | cons hR _ ih =>
      cases i with
      | zero => exact hR
      | succ i => exact ih i

theorem forall₂_setLevel {x : α} {y : β} {xs : List α} {ys : List β} (d : Nat) (hxy : R x y)
    (h : List.Forall₂ R xs ys) : List.Forall₂ R (setLevel d x xs) (setLevel d y ys) := by
  unfold setLevel
  generalize d - 1 = i
  induction h generalizing i with
  | nil => exact .nil
  | cons hR hrest ih =>
      cases i with
      | zero => exact .cons hxy hrest
      | succ i => exact .cons hR (ih i)

end Related

end EvmRecorder.Levels
