import Mathlib.Algebra.BigOperators.Intervals
import Mathlib.Tactic

/-!
# Bracket words

Words over brackets of several kinds that open and close in stack order, with
the word left when the first pair of a kind is deleted; and matching brackets of
one kind, read off the height of a sequence of `+1`, `0` and `-1`.
-/

namespace EvmRecorder.Brackets

variable {κ : Type}

/-! ## §1  Nested words -/

inductive Paren (κ : Type) where
  | opening (k : κ)
  | closing (k : κ)
deriving DecidableEq, Repr

open Paren

variable [DecidableEq κ]

/-- The open brackets after a word, innermost first; `none` when some closing
bracket does not close the innermost open one. -/
def openAfter : List κ → List (Paren κ) → Option (List κ)
  | stack, [] => some stack
  | stack, opening k :: w => openAfter (k :: stack) w
  | [], closing _ :: _ => none
  | k' :: stack, closing k :: w => if k' = k then openAfter stack w else none

/-- Every closing bracket closes the innermost open one. Brackets may be left
open at the end. -/
def Nested (w : List (Paren κ)) : Prop := (openAfter [] w).isSome

instance (w : List (Paren κ)) : Decidable (Nested w) := inferInstanceAs (Decidable (_ = true))

/-- A closing bracket closes the innermost open one. -/
theorem openAfter_closing {stack : List κ} {k : κ} {w : List (Paren κ)}
    (h : (openAfter stack (closing k :: w)).isSome) :
    ∃ stack', stack = k :: stack' ∧ (openAfter stack' w).isSome := by
  cases stack with
  | nil => cases h
  | cons k' stack' =>
      simp only [openAfter] at h
      split at h
      · next heq => exact ⟨stack', by rw [heq], h⟩
      · cases h

def Paren.kind : Paren κ → κ
  | opening k => k
  | closing k => k

/-- How a bracket changes the number of open ones. -/
def Paren.sign : Paren κ → ℤ
  | opening _ => 1
  | closing _ => -1

/-- The open brackets of a kind are those opened less those closed. -/
theorem count_openAfter {k : κ} {w : List (Paren κ)} {stack out : List κ}
    (h : openAfter stack w = some out) :
    (out.count k : ℤ) =
      stack.count k + ((w.filter fun b => b.kind = k).map Paren.sign).sum := by
  induction w generalizing stack with
  | nil =>
      cases h
      simp
  | cons b w ih =>
      cases b with
      | opening k' =>
          rw [ih h, List.count_cons]
          by_cases hk : k' = k
          · simp [hk, Paren.kind, Paren.sign]
            omega
          · simp [hk, Paren.kind]
      | closing k' =>
          have hsome : (openAfter stack (closing k' :: w)).isSome := by
            rw [h]
            rfl
          obtain ⟨stack', rfl, -⟩ := openAfter_closing hsome
          rw [openAfter, if_pos rfl] at h
          rw [ih h, List.count_cons]
          by_cases hk : k' = k
          · simp [hk, Paren.kind, Paren.sign]
          · simp [hk, Paren.kind]

theorem length_openAfter {w : List (Paren κ)} {stack out : List κ}
    (h : openAfter stack w = some out) :
    (out.length : ℤ) = stack.length + (w.map Paren.sign).sum := by
  induction w generalizing stack with
  | nil =>
      cases h
      simp
  | cons b w ih =>
      cases b with
      | opening k =>
          rw [ih h, List.length_cons, List.map_cons, List.sum_cons, Paren.sign]
          omega
      | closing k =>
          have hsome : (openAfter stack (closing k :: w)).isSome := by
            rw [h]
            rfl
          obtain ⟨stack', rfl, -⟩ := openAfter_closing hsome
          rw [openAfter, if_pos rfl] at h
          rw [ih h, List.length_cons, List.map_cons, List.sum_cons, Paren.sign]
          omega

/-! ## §2  Deleting a pair -/

/-- Delete the partner of a bracket opened just before the word: the first
closing bracket that closes no bracket of the word. `n` brackets of the word are
open. -/
def dropPartner : Nat → List (Paren κ) → List (Paren κ)
  | _, [] => []
  | n, opening k :: w => opening k :: dropPartner (n + 1) w
  | 0, closing _ :: w => w
  | n + 1, closing k :: w => closing k :: dropPartner n w

/-- Delete the first opening bracket of a kind and its partner. -/
def dropFirst (k : κ) : List (Paren κ) → List (Paren κ)
  | [] => []
  | b :: w => if b = opening k then dropPartner 0 w else b :: dropFirst k w

/-! ## §3  Heights -/

section Heights

variable (w : ℕ → ℤ)

/-- Brackets opened less brackets closed by the first `n` letters. -/
def height (n : ℕ) : ℤ := ∑ i ∈ Finset.range n, w i

/-- `b` closes `a`: the first return to the height before `a`. -/
def Matched (a b : ℕ) : Prop :=
  a < b ∧ w a = 1 ∧ height w (b + 1) = height w a ∧
    ∀ i ∈ Finset.Ioc a b, height w a < height w i

instance (a b : ℕ) : Decidable (Matched w a b) := inferInstanceAs (Decidable (_ ∧ _))

/-- A letter opens a bracket, is no bracket, or closes one. -/
def UnitSteps : Prop := ∀ i, w i = 1 ∨ w i = 0 ∨ w i = -1

end Heights

variable {w : ℕ → ℤ}

@[simp] theorem height_zero : height w 0 = 0 := by simp [height]

theorem height_succ (n : ℕ) : height w (n + 1) = height w n + w n :=
  Finset.sum_range_succ w n

theorem Matched.closing {a b : ℕ} (h : Matched w a b) (hw : UnitSteps w) : w b = -1 := by
  obtain ⟨hab, -, hreturn, habove⟩ := h
  have hlast := habove b (Finset.mem_Ioc.mpr ⟨hab, Nat.le_refl b⟩)
  rw [height_succ] at hreturn
  rcases hw b with hb | hb | hb
  · omega
  · omega
  · exact hb

theorem Matched.unique {a b b' : ℕ} (h : Matched w a b) (h' : Matched w a b') : b = b' := by
  -- the earlier return would be above the start of the later one
  have hnot : ∀ {b b'}, Matched w a b → Matched w a b' → ¬ b < b' := by
    intro b b' h h' hlt
    have habove := h'.2.2.2 (b + 1) (Finset.mem_Ioc.mpr ⟨Nat.lt_succ_of_lt h.1, hlt⟩)
    rw [h.2.2.1] at habove
    exact lt_irrefl _ habove
  exact Nat.le_antisymm (Nat.le_of_not_lt (hnot h' h)) (Nat.le_of_not_lt (hnot h h'))

/-- A stretch above the height at `a`, one letter longer. -/
theorem above_succ {a n : ℕ} (habove : ∀ i ∈ Finset.Ioc a n, height w a < height w i)
    (hn : height w a < height w (n + 1)) :
    ∀ i ∈ Finset.Ioc a (n + 1), height w a < height w i := by
  intro i hi
  obtain ⟨hai, hin⟩ := Finset.mem_Ioc.mp hi
  rcases Nat.le_succ_iff.mp hin with hin | rfl
  · exact habove i (Finset.mem_Ioc.mpr ⟨hai, hin⟩)
  · exact hn

/-- The height returns to where it was before an opening bracket only after the
bracket is closed. -/
theorem exists_matched (hw : UnitSteps w) {a n : ℕ} (han : a < n) (ha : w a = 1)
    (hn : height w n ≤ height w a) : ∃ b, b < n ∧ Matched w a b := by
  have hex : ∃ b, a < b ∧ height w (b + 1) ≤ height w a := by
    obtain ⟨m, rfl⟩ : ∃ m, n = m + 1 := ⟨n - 1, by omega⟩
    refine ⟨m, ?_, hn⟩
    rcases Nat.lt_or_ge a m with h | h
    · exact h
    · obtain rfl : a = m := by omega
      rw [height_succ, ha] at hn
      omega
  classical
  obtain ⟨hab, hle⟩ := Nat.find_spec hex
  have hmin : ∀ i, i < Nat.find hex → a < i → height w a < height w (i + 1) := by
    intro i hi hai
    have hnot := Nat.find_min hex hi
    push Not at hnot
    exact hnot hai
  -- all letters between keep the height above
  have habove : ∀ i ∈ Finset.Ioc a (Nat.find hex), height w a < height w i := by
    intro i hi
    obtain ⟨hai, hib⟩ := Finset.mem_Ioc.mp hi
    obtain ⟨j, rfl⟩ : ∃ j, i = j + 1 := ⟨i - 1, by omega⟩
    rcases Nat.eq_or_lt_of_le (Nat.lt_succ_iff.mp hai) with rfl | haj
    · rw [height_succ, ha]
      omega
    · exact hmin j (by omega) haj
  refine ⟨Nat.find hex, ?_, hab, ha, ?_, habove⟩
  · by_contra hge
    have := habove n (Finset.mem_Ioc.mpr ⟨han, Nat.le_of_not_lt hge⟩)
    omega
  · have hlast := habove _ (Finset.mem_Ioc.mpr ⟨hab, Nat.le_refl _⟩)
    rw [height_succ] at hle ⊢
    rcases hw (Nat.find hex) with h | h | h <;> omega

/-- A closing bracket that does not take the height below zero has a partner. -/
theorem exists_matched_left (hw : UnitSteps w) {b : ℕ} (hb : w b = -1)
    (hnonneg : ∀ n ≤ b + 1, 0 ≤ height w n) : ∃ a, Matched w a b := by
  -- the last position up to `b` that has the height after `b`
  let p : ℕ → Prop := fun i => height w i ≤ height w (b + 1)
  have hzero : p 0 := by
    show height w 0 ≤ height w (b + 1)
    rw [height_zero]
    exact hnonneg _ (Nat.le_refl _)
  classical
  have hle : Nat.findGreatest p b ≤ b := Nat.findGreatest_le b
  have hspec : p (Nat.findGreatest p b) := Nat.findGreatest_spec (Nat.zero_le b) hzero
  have hmax : ∀ i, Nat.findGreatest p b < i → i ≤ b → height w (b + 1) < height w i := by
    intro i hlt hib
    exact lt_of_not_ge (Nat.findGreatest_is_greatest hlt hib)
  generalize Nat.findGreatest p b = a at hle hspec hmax
  have hne : a ≠ b := by
    rintro rfl
    have : height w a ≤ height w (a + 1) := hspec
    rw [height_succ, hb] at this
    omega
  have hab : a < b := lt_of_le_of_ne hle hne
  have hnext := hmax (a + 1) (Nat.lt_succ_self a) hab
  have hspec : height w a ≤ height w (b + 1) := hspec
  have hstep := height_succ (w := w) a
  have ha : w a = 1 := by
    rcases hw a with h | h | h <;> omega
  have heq : height w (b + 1) = height w a := by omega
  refine ⟨a, hab, ha, heq, fun i hi => ?_⟩
  obtain ⟨hai, hib⟩ := Finset.mem_Ioc.mp hi
  rw [← heq]
  exact hmax i hai hib

/-! ## §4  Counters that follow a word -/

section Counters

variable {f e : ℕ → ℤ} {n : ℕ}

/-- A counter that every pair before `n` restores is the same at both ends of a
balanced stretch. -/
theorem level_of_balanced (hw : UnitSteps w)
    (hneutral : ∀ i, i < n → w i = 0 → f (i + 1) = f i)
    (hpairs : ∀ a b, b < n → Matched w a b → f (b + 1) = f a) (j : ℕ) (hjn : j ≤ n) :
    ∀ (k i : ℕ), i + k = j → (∀ m, i ≤ m → m ≤ j → height w i ≤ height w m) →
      height w j = height w i → f j = f i := by
  intro k
  induction k using Nat.strong_induction_on with
  | _ k ih =>
      intro i hij habove hend
      rcases Nat.eq_zero_or_pos k with rfl | hk
      · rw [← hij, Nat.add_zero]
      have hi := height_succ (w := w) i
      rcases hw i with hopen | hflat | hclose
      · -- the pair opened at `i`, then the rest
        obtain ⟨b, hbj, hmatch⟩ := exists_matched hw (by omega : i < j) hopen (le_of_eq hend)
        have hib : i < b := hmatch.1
        have hreturn : height w (b + 1) = height w i := hmatch.2.2.1
        rw [← hpairs i b (by omega) hmatch]
        refine ih (j - (b + 1)) (by omega) (b + 1) (by omega) ?_ (by rw [hend, hreturn])
        intro m hm hmj
        rw [hreturn]
        exact habove m (by omega) hmj
      · rw [hflat, add_zero] at hi
        rw [← hneutral i (by omega) hflat]
        refine ih (k - 1) (by omega) (i + 1) (by omega) ?_ (by rw [hend, hi])
        intro m hm hmj
        rw [hi]
        exact habove m (by omega) hmj
      · have := habove (i + 1) (Nat.le_succ i) (by omega)
        omega

/-- Between the brackets of a pair the counter is level as well. -/
theorem level_inside (hw : UnitSteps w)
    (hneutral : ∀ i, i < n → w i = 0 → f (i + 1) = f i)
    {a b : ℕ} (hpairs : ∀ a' b', b' < b → Matched w a' b' → f (b' + 1) = f a') (hbn : b ≤ n)
    (hmatch : Matched w a b) : f b = f (a + 1) := by
  obtain ⟨hab, ha, hreturn, habove⟩ := hmatch
  have hb : w b = -1 := Matched.closing ⟨hab, ha, hreturn, habove⟩ hw
  have hafter := height_succ (w := w) a
  have hbefore := height_succ (w := w) b
  refine level_of_balanced hw (fun i hi => hneutral i (by omega)) hpairs b (Nat.le_refl b)
    (b - (a + 1)) (a + 1) (by omega) ?_ (by omega)
  intro m hm hmb
  have := habove m (Finset.mem_Ioc.mpr ⟨hm, hmb⟩)
  omega

/-- Every pair restores the counter iff the contributions of its two brackets
cancel. -/
theorem pairs_level_iff (hw : UnitSteps w) (hstep : ∀ i, i < n → f (i + 1) = f i + e i)
    (hneutral : ∀ i, i < n → w i = 0 → e i = 0) :
    (∀ a b, b < n → Matched w a b → f (b + 1) = f a) ↔
      ∀ a b, b < n → Matched w a b → e a + e b = 0 := by
  have hflat : ∀ i, i < n → w i = 0 → f (i + 1) = f i := by
    intro i hi hi0
    rw [hstep i hi, hneutral i hi hi0, add_zero]
  constructor
  · intro hpairs a b hb hmatch
    have hinside := level_inside hw hflat (fun a' b' hb' => hpairs a' b' (by omega)) hb.le hmatch
    have hpair := hpairs a b hb hmatch
    have hab : a < b := hmatch.1
    have hstepa := hstep a (by omega)
    have hstepb := hstep b hb
    omega
  · intro hcancel a b
    induction b using Nat.strong_induction_on generalizing a with
    | _ b ih =>
        intro hb hmatch
        have hinside := level_inside hw hflat
          (fun a' b' hb' => ih b' hb' a' (by omega)) hb.le hmatch
        have hpair := hcancel a b hb hmatch
        have hab : a < b := hmatch.1
        have hstepa := hstep a (by omega)
        have hstepb := hstep b hb
        omega

/-- A counter that no opening bracket lowers and every pair restores never goes
below its start. -/
theorem start_le_of_pairs_level (hw : UnitSteps w)
    (hstep : ∀ i, i < n → f (i + 1) = f i + e i)
    (hneutral : ∀ i, i < n → w i = 0 → e i = 0) (hopen : ∀ i, i < n → w i = 1 → 0 ≤ e i)
    (hpairs : ∀ a b, b < n → Matched w a b → f (b + 1) = f a)
    (hnonneg : ∀ i, i ≤ n → 0 ≤ height w i) : ∀ i, i ≤ n → f 0 ≤ f i := by
  intro i
  induction i using Nat.strong_induction_on with
  | _ i ih =>
      intro hi
      cases i with
      | zero => exact le_refl _
      | succ i =>
          have hprev := ih i (Nat.lt_succ_self i) (by omega)
          rcases hw i with h | h | h
          · rw [hstep i hi]
            have := hopen i hi h
            omega
          · rw [hstep i hi, hneutral i hi h, add_zero]
            exact hprev
          · obtain ⟨a, hmatch⟩ := exists_matched_left hw h fun m hm => hnonneg m (by omega)
            rw [hpairs a i hi hmatch]
            exact ih a (by have := hmatch.1; omega) (by have := hmatch.1; omega)

end Counters

end EvmRecorder.Brackets
