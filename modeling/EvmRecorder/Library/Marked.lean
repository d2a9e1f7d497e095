import Mathlib.Tactic

/-!
# Marked sequences

Sequences of marks and values, as a writer produces them that issues a mark when
it moves on and values in between. Two of them are equal exactly when they have
the same marks and, between any two marks, the same values.
-/

namespace EvmRecorder.Marked

variable {α β : Type}

/-! ## §1  Marks and the values between them -/

def marks (l : List (α ⊕ β)) : List α := l.filterMap Sum.getLeft?

/-- The values after mark `m` and before the next one. -/
def between : Nat → List (α ⊕ β) → List β
  | _, [] => []
  | 0, .inl _ :: _ => []
  | m + 1, .inl _ :: l => between m l
  | 0, .inr b :: l => b :: between 0 l
  | m + 1, .inr _ :: l => between (m + 1) l

/-- One block: its marks, then its values. -/
def block (as : List α) (bs : List β) : List (α ⊕ β) := as.map .inl ++ bs.map .inr

@[simp] theorem marks_inl (a : α) (l : List (α ⊕ β)) : marks (.inl a :: l) = a :: marks l := rfl

@[simp] theorem marks_inr (b : β) (l : List (α ⊕ β)) : marks (.inr b :: l) = marks l := rfl

theorem marks_append (l l' : List (α ⊕ β)) : marks (l ++ l') = marks l ++ marks l' :=
  List.filterMap_append

@[simp] theorem marks_block (as : List α) (bs : List β) : marks (block as bs) = as := by
  induction as with
  | nil => simp [marks, block]
  | cons a as ih => simpa [marks, block] using ih

theorem between_append : ∀ (m : Nat) (l l' : List (α ⊕ β)),
    between m (l ++ l') =
      between m l ++ if (marks l).length ≤ m then between (m - (marks l).length) l' else []
  | m, [], l' => by simp [between, marks]
  | 0, .inl a :: l, l' => by simp [between, marks]
  | m + 1, .inl a :: l, l' => by
      simp only [List.cons_append, between, marks_inl, List.length_cons, between_append m l l',
        Nat.add_le_add_iff_right, Nat.add_sub_add_right]
  | 0, .inr b :: l, l' => by
      simp only [List.cons_append, between, marks_inr, between_append 0 l l']
      rfl
  | m + 1, .inr b :: l, l' => by
      simp only [List.cons_append, between, marks_inr, between_append (m + 1) l l']
      rfl

/-- The values of a block come after its last mark. -/
theorem between_block (bs : List β) : ∀ (m : Nat) (as : List α),
    between m (block as bs) = if m = as.length then bs else []
  | 0, [] => by
      induction bs with
      | nil => rfl
      | cons b bs ih => simpa [between, block] using ih
  | m + 1, [] => by
      induction bs with
      | nil => rfl
      | cons b bs ih => simpa [between, block] using ih
  | 0, a :: as => by simp [between, block]
  | m + 1, a :: as => by simpa [between, block] using between_block bs m as

theorem ext_iff {l l' : List (α ⊕ β)} :
    l = l' ↔ marks l = marks l' ∧ ∀ m, between m l = between m l' := by
  constructor
  · rintro rfl
    exact ⟨rfl, fun _ => rfl⟩
  rintro ⟨hmarks, hbetween⟩
  induction l generalizing l' with
  | nil =>
      rcases l' with _ | ⟨a | b, l'⟩
      · rfl
      · cases hmarks
      · cases hbetween 0
  | cons x l ih =>
      rcases x with a | b
      · rcases l' with _ | ⟨a' | b', l'⟩
        · cases hmarks
        · obtain ⟨rfl, htail⟩ := List.cons.inj hmarks
          rw [ih htail fun m => hbetween (m + 1)]
        · cases hbetween 0
      · rcases l' with _ | ⟨a' | b', l'⟩
        · cases hbetween 0
        · cases hbetween 0
        · obtain ⟨rfl, hzero⟩ := List.cons.inj (hbetween 0)
          have hrest : ∀ m, between m l = between m l' := by
            rintro (_ | m)
            · exact hzero
            · exact hbetween (m + 1)
          have htail : l = l' := ih hmarks hrest
          rw [htail]

/-! ## §2  Sequences of blocks -/

section Blocks

variable (as : Nat → List α) (f g : Nat → List β) (n : Nat)

/-- Blocks `0` to `n - 1`. -/
def blocks : List (α ⊕ β) := (List.range n).flatMap fun k => block (as k) (f k)

/-- The number of marks up to block `k`. -/
def markCount (k : Nat) : Nat := ((List.range (k + 1)).flatMap as).length

/-- The values of the blocks that follow mark `m` without another mark. -/
def valuesAfter (m : Nat) : List β :=
  ((List.range n).filter fun k => markCount as k = m).flatMap f

theorem blocks_succ : blocks as f (n + 1) = blocks as f n ++ block (as n) (f n) := by
  rw [blocks, List.range_succ, List.flatMap_append, List.flatMap_singleton, ← blocks]

/-- A list that grows by at least one block at a time contains the blocks. -/
theorem blocks_sublist {as : Nat → List α} {f : Nat → List β} (out : Nat → List (α ⊕ β)) :
    ∀ n, (∀ k, k < n → ∃ new, out (k + 1) = out k ++ new ∧ (block (as k) (f k)).Sublist new) →
      (blocks as f n).Sublist (out n)
  | 0, _ => List.nil_sublist _
  | n + 1, h => by
      obtain ⟨new, hnew, hblock⟩ := h n (Nat.lt_succ_self n)
      rw [blocks_succ, hnew]
      exact (blocks_sublist out n fun k hk => h k (Nat.lt_succ_of_lt hk)).append hblock

theorem marks_blocks : marks (blocks as f n) = (List.range n).flatMap as := by
  induction n with
  | zero => rfl
  | succ n ih =>
      rw [blocks_succ, marks_append, ih, marks_block, List.range_succ, List.flatMap_append,
        List.flatMap_singleton]

theorem valuesAfter_succ (m : Nat) :
    valuesAfter as f (n + 1) m =
      valuesAfter as f n m ++ if markCount as n = m then f n else [] := by
  rw [valuesAfter, List.range_succ, List.filter_append, List.flatMap_append, ← valuesAfter]
  by_cases hm : markCount as n = m
  · simp [hm]
  · simp [hm]

theorem between_blocks (m : Nat) : between m (blocks as f n) = valuesAfter as f n m := by
  induction n with
  | zero => cases m <;> rfl
  | succ n ih =>
      have hcount : markCount as n = ((List.range n).flatMap as).length + (as n).length := by
        simp [markCount, List.range_succ]
      rw [valuesAfter_succ, blocks_succ, between_append, ih, marks_blocks, between_block]
      congr 1
      by_cases hm : markCount as n = m
      · rw [if_pos hm, if_pos (by omega), if_pos (by omega)]
      · rw [if_neg hm]
        split
        · rw [if_neg (by omega)]
        · rfl

/-- With the same marks, sequences of blocks are equal exactly when the values
after every mark are. -/
theorem blocks_eq_iff : blocks as f n = blocks as g n ↔
    ∀ m, valuesAfter as f n m = valuesAfter as g n m := by
  rw [ext_iff, marks_blocks, marks_blocks]
  simp only [between_blocks, true_and]

end Blocks

end EvmRecorder.Marked
