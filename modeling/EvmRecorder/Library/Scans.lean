import Mathlib.Data.List.Find
import Mathlib.Data.Prod.Lex
import Mathlib.Order.Bounds.Basic

/-!
# Sequential scans

A list is scanned once for each of several tests, and the first scan that finds
something decides. Elements are thereby compared by the number of the first test they
pass, and by their position among those with the same number.
-/

namespace EvmRecorder.Scans

variable {α : Type*}

/-- What the first successful scan finds. -/
def firstFound (tests : List (α → Bool)) (xs : List α) : Option α :=
  tests.findSome? fun test => xs.find? test

/-- The number, from 1, of the first test that `x` passes. -/
def classOf (tests : List (α → Bool)) (x : α) : Option ℕ :=
  (tests.findIdx? fun test => test x).map (· + 1)

/-- Class and position of the elements that pass a test; the class is compared first. -/
def places (tests : List (α → Bool)) (xs : List α) : Set (ℕ ×ₗ ℕ) :=
  {place | ∃ x, xs[(ofLex place).2]? = some x ∧ classOf tests x = some (ofLex place).1}

@[simp] theorem firstFound_nil (xs : List α) : firstFound [] xs = none := rfl

@[simp] theorem firstFound_cons (test : α → Bool) (tests : List (α → Bool)) (xs : List α) :
    firstFound (test :: tests) xs = (xs.find? test).orElse fun _ => firstFound tests xs := by
  rw [firstFound, List.findSome?_cons]
  cases xs.find? test <;> rfl

theorem firstFound_singleton (test : α → Bool) (xs : List α) :
    firstFound [test] xs = xs.find? test := by
  rw [firstFound_cons]
  cases xs.find? test <;> rfl

@[simp] theorem classOf_nil (x : α) : classOf [] x = none := rfl

@[simp] theorem classOf_cons (test : α → Bool) (tests : List (α → Bool)) (x : α) :
    classOf (test :: tests) x = if test x then some 1 else (classOf tests x).map (· + 1) := by
  rw [classOf, List.findIdx?_cons]
  cases test x <;> rfl

/-- A find that also passes a second test is the find for both. -/
theorem find?_and_eq_some {xs : List α} {test test' : α → Bool} {x : α}
    (h : xs.find? test = some x) (h' : test' x = true) :
    (xs.find? fun y => test y && test' y) = some x := by
  obtain ⟨hx, before, after, hsplit, hfails⟩ := List.find?_eq_some_iff_append.mp h
  refine List.find?_eq_some_iff_append.mpr ⟨by simp [hx, h'], before, after, hsplit, ?_⟩
  intro y hy
  have hy := hfails y hy
  simp only [Bool.not_eq_true', Bool.and_eq_false_iff] at hy ⊢
  exact .inl hy

/-! ## §1  The least place -/

section

variable {tests : List (α → Bool)} {xs : List α} {x : α}

theorem classOf_eq_none_iff : classOf tests x = none ↔ ∀ test ∈ tests, test x = false := by
  rw [classOf, Option.map_eq_none_iff, List.findIdx?_eq_none_iff]

theorem classOf_pos {c : ℕ} (h : classOf tests x = some c) : 0 < c := by
  obtain ⟨i, -, rfl⟩ := Option.map_eq_some_iff.mp h
  exact Nat.succ_pos i

/-- The first element that passes the first test stands at the least place: others of
its class come later. -/
theorem isLeast_of_find? {test : α → Bool} (h : xs.find? test = some x) :
    ∃ i, IsLeast (places (test :: tests) xs) (toLex (1, i)) ∧ xs[i]? = some x := by
  obtain ⟨htest, i, hi, rfl, hfirst⟩ := List.find?_eq_some_iff_getElem.mp h
  have hget : xs[i]? = some xs[i] := List.getElem?_eq_getElem hi
  refine ⟨i, ⟨⟨xs[i], hget, ?_⟩, ?_⟩, hget⟩
  · rw [classOf_cons, if_pos htest]
    rfl
  · rintro place ⟨y, hy, hclass⟩
    obtain ⟨hj, rfl⟩ := List.getElem?_eq_some_iff.mp hy
    rw [Prod.Lex.le_iff]
    rw [classOf_cons] at hclass
    cases hpasses : test xs[(ofLex place).2] with
    | true =>
        rw [hpasses, if_pos rfl] at hclass
        refine .inr ⟨Option.some.inj hclass, ?_⟩
        by_contra hlt
        have hskipped := hfirst _ (Nat.lt_of_not_le hlt)
        rw [hpasses] at hskipped
        cases hskipped
    | false =>
        rw [hpasses, if_neg Bool.false_ne_true, Option.map_eq_some_iff] at hclass
        obtain ⟨c, hc, hplace⟩ := hclass
        rw [← hplace]
        exact .inl (Nat.succ_lt_succ (classOf_pos hc))

/-- A test that all elements fail shifts the classes. -/
theorem isLeast_cons_of_forall {test : α → Bool} (hfails : ∀ y ∈ xs, test y = false) {c i : ℕ}
    (h : IsLeast (places tests xs) (toLex (c, i))) :
    IsLeast (places (test :: tests) xs) (toLex (c + 1, i)) := by
  have hshift : ∀ y ∈ xs, classOf (test :: tests) y = (classOf tests y).map (· + 1) := by
    intro y hy
    rw [classOf_cons, hfails y hy, if_neg Bool.false_ne_true]
  obtain ⟨⟨y, hy, hclass⟩, hleast⟩ := h
  constructor
  · refine ⟨y, hy, ?_⟩
    rw [hshift y (List.mem_of_getElem? hy), hclass]
    rfl
  · rintro place ⟨z, hz, hplace⟩
    rw [hshift z (List.mem_of_getElem? hz), Option.map_eq_some_iff] at hplace
    obtain ⟨c', hc', hsum⟩ := hplace
    have hle : toLex (c, i) ≤ toLex (c', (ofLex place).2) := hleast ⟨z, hz, hc'⟩
    rw [Prod.Lex.toLex_le_toLex] at hle
    rw [Prod.Lex.le_iff, ← hsum]
    rcases hle with hlt | ⟨heq, hpos⟩
    · exact .inl (Nat.succ_lt_succ hlt)
    · exact .inr ⟨congrArg Nat.succ heq, hpos⟩

/-- What is found stands at the least place. -/
theorem isLeast_of_firstFound (h : firstFound tests xs = some x) :
    ∃ c i, IsLeast (places tests xs) (toLex (c, i)) ∧ xs[i]? = some x := by
  induction tests with
  | nil => cases h
  | cons test tests ih =>
      rw [firstFound_cons] at h
      cases hfind : xs.find? test with
      | some y =>
          rw [hfind] at h
          obtain rfl := Option.some.inj h
          exact ⟨1, isLeast_of_find? hfind⟩
      | none =>
          rw [hfind] at h
          obtain ⟨c, i, hleast, hx⟩ := ih h
          have hfails : ∀ y ∈ xs, test y = false := fun y hy =>
            Bool.eq_false_iff.mpr (List.find?_eq_none.mp hfind y hy)
          exact ⟨c + 1, i, isLeast_cons_of_forall hfails hleast, hx⟩

/-- Nothing is found when there is no place. -/
theorem firstFound_eq_none_iff : firstFound tests xs = none ↔ places tests xs = ∅ := by
  rw [firstFound, List.findSome?_eq_none_iff, Set.eq_empty_iff_forall_notMem]
  simp only [List.find?_eq_none]
  constructor
  · rintro h place ⟨x, hx, hclass⟩
    have hfails : classOf tests x = none := by
      rw [classOf_eq_none_iff]
      intro test htest
      exact Bool.eq_false_iff.mpr (h test htest x (List.mem_of_getElem? hx))
    rw [hfails] at hclass
    cases hclass
  · intro h test htest x hx hpasses
    obtain ⟨i, hi, rfl⟩ := List.mem_iff_getElem.mp hx
    cases hclass : classOf tests xs[i] with
    | none =>
        rw [classOf_eq_none_iff] at hclass
        rw [hclass test htest] at hpasses
        cases hpasses
    | some c => exact h (toLex (c, i)) ⟨xs[i], List.getElem?_eq_getElem hi, hclass⟩

/-- The scans find the element at the least place. -/
theorem firstFound_eq_some_iff :
    firstFound tests xs = some x ↔
      ∃ c i, IsLeast (places tests xs) (toLex (c, i)) ∧ xs[i]? = some x := by
  constructor
  · exact isLeast_of_firstFound
  · rintro ⟨c, i, hplace, hx⟩
    cases hfound : firstFound tests xs with
    | none =>
        have hmem := hplace.1
        rw [firstFound_eq_none_iff.mp hfound] at hmem
        exact absurd hmem (Set.notMem_empty _)
    | some y =>
        obtain ⟨c', j, hplace', hy⟩ := isLeast_of_firstFound hfound
        obtain ⟨rfl, rfl⟩ := Prod.mk.inj (toLex.injective (hplace'.unique hplace))
        exact hy.symm.trans hx

end

/-! ## §2  Scans of a part of the list -/

/-- Tests that only elements with `keep` pass find what the tests find among those. -/
theorem firstFound_filter (keep : α → Bool) (tests : List (α → Bool)) (xs : List α) :
    firstFound tests (xs.filter keep) =
      firstFound (tests.map fun test x => keep x && test x) xs := by
  induction tests with
  | nil => rfl
  | cons test tests ih =>
      rw [List.map_cons, firstFound_cons, firstFound_cons, ih, List.find?_filter]
      simp

theorem classOf_map_and (keep : α → Bool) (tests : List (α → Bool)) (x : α) :
    classOf (tests.map fun test x => keep x && test x) x =
      if keep x then classOf tests x else none := by
  induction tests with
  | nil => cases keep x <;> rfl
  | cons test tests ih =>
      rw [List.map_cons, classOf_cons, classOf_cons, ih]
      cases keep x <;> simp

/-- Elements that pass no test may be left out. -/
theorem firstFound_filter_eq_self {keep : α → Bool} {tests : List (α → Bool)} {xs : List α}
    (h : ∀ x ∈ xs, classOf tests x ≠ none → keep x = true) :
    firstFound tests (xs.filter keep) = firstFound tests xs := by
  rw [firstFound_filter]
  induction tests with
  | nil => rfl
  | cons test tests ih =>
      have hhead : xs.find? (fun x => keep x && test x) = xs.find? test := by
        apply List.find?_congr
        intro x hx
        cases htest : test x with
        | false => exact Bool.and_false (keep x)
        | true => rw [h x hx (by simp [htest]), Bool.true_and]
      have htail : ∀ x ∈ xs, classOf tests x ≠ none → keep x = true := by
        intro x hx hclass
        apply h x hx
        cases htest : test x <;> simp [htest, hclass]
      rw [List.map_cons, firstFound_cons, firstFound_cons, hhead, ih htail]

end EvmRecorder.Scans
