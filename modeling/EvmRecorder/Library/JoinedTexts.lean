import Mathlib.Tactic

/-!
# Joined texts

Texts that are joined by a separator can be told apart: by the separator, if its first
character does not occur in them, or by a character in which they differ.
-/

namespace EvmRecorder.JoinedTexts

/-! ## §1  Separators -/

section Separators

variable {α : Type*}

/-- A list is split in one way at the first occurrence of an element. -/
theorem append_cons_inj {a : α} : ∀ {x y : List α} {x' y' : List α}, a ∉ x → a ∉ y →
    x ++ a :: x' = y ++ a :: y' → x = y ∧ x' = y'
  | [], [], _, _, _, _, h => ⟨rfl, (List.cons.inj h).2⟩
  | [], b :: y, _, _, _, hy, h =>
      absurd (List.mem_cons.mpr (.inl (List.cons.inj h).1)) hy
  | b :: x, [], _, _, hx, _, h =>
      absurd (List.mem_cons.mpr (.inl (List.cons.inj h).1.symm)) hx
  | b :: x, c :: y, _, _, hx, hy, h => by
      obtain ⟨hbc, hrest⟩ := List.cons.inj h
      obtain ⟨hxy, htail⟩ := append_cons_inj (fun hmem => hx (List.mem_cons_of_mem b hmem))
        (fun hmem => hy (List.mem_cons_of_mem c hmem)) hrest
      exact ⟨congrArg₂ List.cons hbc hxy, htail⟩

theorem not_mem_intercalate {c sep : α} (hsep : c ≠ sep) :
    ∀ {texts : List (List α)}, (∀ t ∈ texts, c ∉ t) → c ∉ [sep].intercalate texts
  | [], _ => by simp
  | [t], h => by simpa using h t (by simp)
  | t :: u :: texts, h => by
      have ih : c ∉ [sep].intercalate (u :: texts) :=
        not_mem_intercalate hsep fun s hs => h s (List.mem_cons_of_mem _ hs)
      rw [List.intercalate_cons_cons]
      simp only [List.mem_append, List.mem_singleton, not_or]
      exact ⟨⟨h t List.mem_cons_self, hsep⟩, ih⟩

theorem mem_intercalate {c : α} {sep : List α} : ∀ {texts : List (List α)} {t : List α},
    t ∈ texts → c ∈ t → c ∈ sep.intercalate texts
  | [u], t, ht, hc => by
      rw [List.mem_singleton.mp ht] at hc
      simpa using hc
  | u :: v :: texts, t, ht, hc => by
      rw [List.intercalate_cons_cons, List.mem_append, List.mem_append]
      rcases List.mem_cons.mp ht with rfl | ht
      · exact .inl (.inl hc)
      · exact .inr (mem_intercalate ht hc)

/-- Non-empty texts without the first character of the separator are joined in one way. -/
theorem intercalate_inj {c : α} {sep : List α} : ∀ {xs ys : List (List α)},
    (∀ t ∈ xs, t ≠ [] ∧ c ∉ t) → (∀ t ∈ ys, t ≠ [] ∧ c ∉ t) →
      (c :: sep).intercalate xs = (c :: sep).intercalate ys → xs = ys
  | [], [], _, _, _ => rfl
  | [], [y], _, hy, h => by
      rw [List.intercalate_nil, List.intercalate_singleton] at h
      exact absurd h.symm (hy y List.mem_cons_self).1
  | [], y :: z :: ys, _, _, h => by
      rw [List.intercalate_nil, List.intercalate_cons_cons] at h
      simp at h
  | [x], [], hx, _, h => by
      rw [List.intercalate_nil, List.intercalate_singleton] at h
      exact absurd h (hx x List.mem_cons_self).1
  | x :: z :: xs, [], _, _, h => by
      rw [List.intercalate_nil, List.intercalate_cons_cons] at h
      simp at h
  | [x], [y], _, _, h => by
      rw [List.intercalate_singleton, List.intercalate_singleton] at h
      rw [h]
  | [x], y :: z :: ys, hx, _, h => by
      rw [List.intercalate_singleton, List.intercalate_cons_cons] at h
      refine absurd ?_ (hx x List.mem_cons_self).2
      rw [h]
      simp
  | x :: z :: xs, [y], _, hy, h => by
      rw [List.intercalate_singleton, List.intercalate_cons_cons] at h
      refine absurd ?_ (hy y List.mem_cons_self).2
      rw [← h]
      simp
  | x :: x' :: xs, y :: y' :: ys, hx, hy, h => by
      rw [List.intercalate_cons_cons, List.intercalate_cons_cons, List.append_assoc,
        List.append_assoc, List.cons_append, List.cons_append] at h
      obtain ⟨hhead, htail⟩ := append_cons_inj (hx x List.mem_cons_self).2
        (hy y List.mem_cons_self).2 h
      rw [hhead, intercalate_inj (fun t ht => hx t (List.mem_cons_of_mem x ht))
        (fun t ht => hy t (List.mem_cons_of_mem y ht)) (List.append_cancel_left htail)]

end Separators

/-! ## §2  Differences -/

/-- Texts that differ in a character. -/
def Diverge (s t : String) : Prop :=
  ∃ front c d x y, s.toList = front ++ c :: x ∧ t.toList = front ++ d :: y ∧ c ≠ d

theorem Diverge.append_ne {s t : String} (h : Diverge s t) (s' t' : String) :
    s ++ s' ≠ t ++ t' := by
  obtain ⟨front, c, d, x, y, hs, ht, hne⟩ := h
  intro heq
  have hlists := congrArg String.toList heq
  rw [String.toList_append, String.toList_append, hs, ht, List.append_assoc, List.append_assoc]
    at hlists
  exact hne (List.cons.inj (List.append_cancel_left hlists)).1

theorem Diverge.ne {s t : String} (h : Diverge s t) : s ≠ t := by
  rintro rfl
  exact h.append_ne "" "" rfl

theorem Diverge.append_left {s t : String} (h : Diverge s t) (front : String) :
    Diverge (front ++ s) (front ++ t) := by
  obtain ⟨chars, c, d, x, y, hs, ht, hne⟩ := h
  refine ⟨front.toList ++ chars, c, d, x, y, ?_, ?_, hne⟩
  · rw [String.toList_append, hs, List.append_assoc]
  · rw [String.toList_append, ht, List.append_assoc]

/-- Joined texts that are pairwise equal or differ in a character are equal one by one. -/
theorem eq_of_intercalate_eq {α : Type} {f g : α → String} (sep : String)
    (h : ∀ a, f a = g a ∨ Diverge (f a) (g a)) :
    ∀ {l : List α}, String.intercalate sep (l.map f) = String.intercalate sep (l.map g) →
      ∀ a ∈ l, f a = g a
  | [], _, a, ha => absurd ha List.not_mem_nil
  | [b], heq, a, ha => by
      rw [List.map_singleton, List.map_singleton, String.intercalate_singleton,
        String.intercalate_singleton] at heq
      rw [List.mem_singleton.mp ha]
      exact heq
  | b :: c :: l, heq, a, ha => by
      rw [List.map_cons, List.map_cons, List.map_cons, List.map_cons,
        String.intercalate_cons_cons, String.intercalate_cons_cons, String.append_assoc,
        String.append_assoc, ← List.map_cons, ← List.map_cons] at heq
      rcases h b with hb | hb
      · rw [hb] at heq
        have hrest := eq_of_intercalate_eq sep h
          ((String.append_right_inj _).mp ((String.append_right_inj _).mp heq))
        rcases List.mem_cons.mp ha with rfl | ha
        · exact hb
        · exact hrest a ha
      · exact absurd heq (hb.append_ne _ _)

end EvmRecorder.JoinedTexts
